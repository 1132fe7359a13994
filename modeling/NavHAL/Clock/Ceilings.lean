import NavHAL.Clock.Programmed

/-!
# The ceilings of the buses

The frequencies that the registers select, as exact fractions, against the ratings
of the part.  Only the APB dividers are raised to a ceiling, and they and the wait
states are sized from the driver's own 32-bit estimate of SYSCLK.
-/

namespace NavHAL.Clock

/-! ## Frequencies -/

/-- The frequency `num / den` in Hz; none when `den` is 0. -/
structure Freq where
  num : Nat
  den : Nat

namespace Freq

def div (f : Freq) (k : Nat) : Freq := ⟨f.num, f.den * k⟩

def AtMost (f : Freq) (limitHz : Nat) : Prop := 0 < f.den ∧ f.num ≤ limitHz * f.den

instance (f : Freq) (limitHz : Nat) : Decidable (f.AtMost limitHz) :=
  inferInstanceAs (Decidable (_ ∧ _))

variable {f : Freq} {limitHz k : Nat}

theorem AtMost.mono {limitHz' : Nat} (h : f.AtMost limitHz) (hle : limitHz ≤ limitHz') :
    f.AtMost limitHz' :=
  ⟨h.1, Nat.le_trans h.2 (Nat.mul_le_mul_right f.den hle)⟩

/-- A divider by `k` divides the ceiling that is needed before it. -/
theorem AtMost.div (h : f.AtMost (limitHz * k)) (hk : 0 < k) : (f.div k).AtMost limitHz := by
  refine ⟨Nat.mul_pos h.1 hk, ?_⟩
  calc f.num ≤ limitHz * k * f.den := h.2
    _ = limitHz * (f.den * k) := by rw [Nat.mul_assoc, Nat.mul_comm k f.den]

theorem div_one : f.div 1 = f := by
  simp [Freq.div]

end Freq

/-- The flash answers at this HCLK: a wait state is needed for every 30 MHz begun. -/
def FlashKeepsUp (hclk : Freq) (ws : Nat) : Prop := hclk.AtMost (30000000 * (ws + 1))

instance (hclk : Freq) (ws : Nat) : Decidable (FlashKeepsUp hclk ws) :=
  inferInstanceAs (Decidable (Freq.AtMost _ _))

/-! ## What the registers select -/

namespace Regs

def sysclk (b : Board) (r : Regs) : Freq :=
  match (r.cfgr >>> 2 &&& 3#32).toNat with
  | 0 => ⟨b.hsiFreqHz.toNat, 1⟩
  | 1 => ⟨b.hseFreqHz.toNat, 1⟩
  | 2 =>
    let pllM := (r.pllcfgr >>> 0 &&& 0x3F#32).toNat
    let pllN := (r.pllcfgr >>> 6 &&& 0x1FF#32).toNat
    let pllP := ((r.pllcfgr >>> 16 &&& 3#32).toNat + 1) * 2
    let pllSrc := r.pllcfgr >>> 22 &&& 1#32
    let vcoIn := if pllSrc ≠ 0 then b.hseFreqHz else b.hsiFreqHz
    ⟨vcoIn.toNat * pllN, pllM * pllP⟩
  | _ => ⟨0, 0⟩

def ahbFreq (b : Board) (r : Regs) : Freq := (r.sysclk b).div (decodePrescaler r.hpreField)

def apb1Freq (b : Board) (r : Regs) : Freq :=
  (r.ahbFreq b).div (decodeApbPrescaler r.ppre1Field)

def apb2Freq (b : Board) (r : Regs) : Freq :=
  (r.ahbFreq b).div (decodeApbPrescaler r.ppre2Field)

end Regs

namespace ClockConfig

/-- SYSCLK with the PLL parameters that the fields hold, without any rounding. -/
def heldSysclk (b : Board) (cfg : ClockConfig) : Freq :=
  match cfg.source with
  | .hsi => ⟨b.hsiFreqHz.toNat, 1⟩
  | .hse => ⟨b.hseFreqHz.toNat, 1⟩
  | .pll =>
    let vcoIn := if cfg.pll.heldHse then b.hseFreqHz else b.hsiFreqHz
    ⟨vcoIn.toNat * cfg.pll.heldN, cfg.pll.heldM * cfg.pll.heldP⟩

def heldHclk (b : Board) (cfg : ClockConfig) : Freq := (cfg.heldSysclk b).div cfg.hpre

end ClockConfig

section

variable {b : Board} {cfg : ClockConfig} {r : Regs}

/-- SYSCLK depends on the switch and, for the PLL, on its fields. -/
theorem sysclk_of_tree (hsws : r.sws = cfg.source.sw)
    (hpll : cfg.source = .pll → r.pllcfgr = cfg.pll.word) : r.sysclk b = cfg.heldSysclk b := by
  have hsws : (r.cfgr >>> 2 &&& 3#32) = cfg.source.sw := hsws
  unfold Regs.sysclk ClockConfig.heldSysclk
  rw [hsws]
  cases hsrc : cfg.source with
  | hsi => rfl
  | hse => rfl
  | pll =>
    have hword := hpll hsrc
    show Freq.mk _ _ = Freq.mk _ _
    rw [hword, read_pllM, read_pllN, read_pllP, read_vcoIn]

theorem Programmed.sysclk (h : Programmed b cfg r) : r.sysclk b = cfg.heldSysclk b :=
  sysclk_of_tree h.sws h.pllcfgr

theorem Programmed.ahbFreq (h : Programmed b cfg r) : r.ahbFreq b = cfg.heldHclk b := by
  unfold Regs.ahbFreq ClockConfig.heldHclk
  rw [h.sysclk, h.hpre]

theorem Programmed.apb1Freq (h : Programmed b cfg r) :
    r.apb1Freq b = (cfg.heldHclk b).div (cfg.ppre1 b) := by
  unfold Regs.apb1Freq
  rw [h.ahbFreq, h.ppre1]

theorem Programmed.apb2Freq (h : Programmed b cfg r) :
    r.apb2Freq b = (cfg.heldHclk b).div (cfg.ppre2 b) := by
  unfold Regs.apb2Freq
  rw [h.ahbFreq, h.ppre2]

end

/-! ## The clamp of the APB dividers -/

theorem le_minDivLoop (hclk limitHz fuel d : Nat) : d ≤ minDivLoop hclk limitHz fuel d := by
  induction fuel generalizing d with
  | zero => exact Nat.le_refl d
  | succ fuel ih =>
    unfold minDivLoop
    split
    · exact Nat.le_trans (Nat.le_mul_of_pos_right d (by decide)) (ih (d * 2))
    · exact Nat.le_refl d

theorem minDivFor_eq_one_iff (hclk limitHz : Nat) :
    minDivFor hclk limitHz = 1 ↔ hclk ≤ limitHz := by
  unfold minDivFor
  rw [minDivLoop, Nat.div_one]
  by_cases h : hclk > limitHz
  · rw [if_pos ⟨by decide, h⟩]
    have hge := le_minDivLoop hclk limitHz 3 (1 * 2)
    constructor
    · intro heq
      omega
    · intro hle
      omega
  · rw [if_neg fun hc => h hc.2]
    exact iff_of_true rfl (Nat.not_lt.mp h)

theorem one_le_minDivFor (hclk limitHz : Nat) : 1 ≤ minDivFor hclk limitHz :=
  le_minDivLoop hclk limitHz 4 1

/-- HCLK reaches APB1 undivided only if that is asked for and seems within the ceiling. -/
theorem ppre1_eq_one_iff (b : Board) (cfg : ClockConfig) :
    cfg.ppre1 b = 1 ↔ cfg.ppre1Div = 1 ∧ cfg.hclk b ≤ 42000000 := by
  unfold ClockConfig.ppre1 ClockConfig.ppre
  dsimp only
  rw [← minDivFor_eq_one_iff]
  have hmin := one_le_minDivFor (cfg.hclk b) 42000000
  generalize minDivFor (cfg.hclk b) 42000000 = min at hmin ⊢
  have hone : cfg.ppre1Div = 1 ↔ cfg.ppre1Div.toNat = 1 := by
    rw [← UInt16.toNat_inj]
    rfl
  have hzero : cfg.ppre1Div = 0 ↔ cfg.ppre1Div.toNat = 0 := by
    rw [← UInt16.toNat_inj]
    rfl
  rw [hone]
  by_cases h0 : cfg.ppre1Div = 0
  · have hasked := hzero.mp h0
    rw [if_neg (not_not.mpr h0)]
    split <;> omega
  · have hasked := mt hzero.mpr h0
    rw [if_pos h0]
    split <;> omega

/-! ## The ratings -/

/-- The buses run within their ratings at the return, and the flash keeps up with
HCLK in every register state since SYSCLK was switched. -/
structure WithinRatings (b : Board) (res : InitResult) : Prop where
  ahb : (res.regs.ahbFreq b).AtMost 84000000
  apb2 : (res.regs.apb2Freq b).AtMost 84000000
  apb1 : (res.regs.apb1Freq b).AtMost 42000000
  flash : ∀ r ∈ res.running, FlashKeepsUp (r.ahbFreq b) r.latency

/-- The wait states in force when SYSCLK is switched. -/
def ClockConfig.switchWs (b : Board) (cfg : ClockConfig) (before : Nat) : Nat :=
  if cfg.source = .pll then flashWsFor (targetSysclkHz b cfg) else before

/-- What the caller must see to: the real HCLK is within the rating of AHB, an
undivided APB1 is within its own, also where the driver's estimate of HCLK is too
low, and so are the wait states at the switch. -/
structure AskedWithinRatings (b : Board) (cfg : ClockConfig) (before : Nat) : Prop where
  ahb : (cfg.heldHclk b).AtMost 84000000
  apb1 : cfg.ppre1Div = 1 → cfg.hclk b ≤ 42000000 → (cfg.heldHclk b).AtMost 42000000
  flash : FlashKeepsUp (cfg.heldHclk b) (cfg.switchWs b before)

/-- The wait states for an oscillator are enough for any HCLK made from it that the
eight values of the field can serve. -/
theorem flashKeepsUp_oscillator {hz k : Nat} (hahb : (Freq.mk hz k).AtMost 240000000) :
    FlashKeepsUp ⟨hz, k⟩ (flashWsFor hz) := by
  refine ⟨hahb.1, ?_⟩
  have hmax : hz ≤ 240000000 * k := hahb.2
  show hz ≤ 30000000 * (flashWsFor hz + 1) * k
  unfold flashWsFor
  by_cases h0 : hz = 0
  · omega
  · rw [if_neg h0]
    dsimp only
    split
    · omega
    · have hself : hz ≤ 30000000 * ((hz - 1) / 30000000 + 1) := by omega
      exact Nat.le_trans hself (Nat.le_mul_of_pos_right _ hahb.1)

section

variable {b : Board} {cfg : ClockConfig} {r : Regs} {res : InitResult}

theorem InitSpec.asked (h : InitSpec b cfg r res) (hw : WithinRatings b res) :
    AskedWithinRatings b cfg r.latency := by
  have hprog := h.tree _ h.last
  constructor
  · rw [← hprog.ahbFreq]
    exact hw.ahb
  · intro hdiv hclk
    have hone := (ppre1_eq_one_iff b cfg).mpr ⟨hdiv, hclk⟩
    have hapb := hw.apb1
    rw [hprog.apb1Freq, hone, Freq.div_one] at hapb
    exact hapb
  · unfold ClockConfig.switchWs
    by_cases hsrc : cfg.source = .pll
    · rw [if_pos hsrc]
      rcases h.latency _ h.last with hlat | hlat
      · rw [← hlat, ← hprog.ahbFreq]
        exact hw.flash _ h.last
      · exact absurd hsrc hlat.1
    · rw [if_neg hsrc]
      obtain ⟨r', hr', hlat⟩ := h.before hsrc
      rw [← hlat, ← (h.tree r' hr').ahbFreq]
      exact hw.flash r' hr'

/-- The wait states that the driver writes after the switch are enough. -/
theorem flashKeepsUp_after (hahb : (cfg.heldHclk b).AtMost 84000000)
    (hsrc : cfg.source ≠ .pll) :
    FlashKeepsUp (cfg.heldHclk b) (flashWsFor (targetSysclkHz b cfg)) := by
  unfold ClockConfig.heldHclk ClockConfig.heldSysclk targetSysclkHz at *
  cases h : cfg.source with
  | hsi =>
    rw [h] at hahb
    exact flashKeepsUp_oscillator (hahb.mono (by decide))
  | hse =>
    rw [h] at hahb
    exact flashKeepsUp_oscillator (hahb.mono (by decide))
  | pll => exact absurd h hsrc

theorem InitSpec.withinRatings (h : InitSpec b cfg r res)
    (hw : AskedWithinRatings b cfg r.latency) : WithinRatings b res := by
  have hprog := h.tree _ h.last
  have hacc := h.accepted
  constructor
  · rw [hprog.ahbFreq]
    exact hw.ahb
  · rw [hprog.apb2Freq]
    exact (hw.ahb.mono (Nat.le_mul_of_pos_right _ hacc.ppre2)).div hacc.ppre2
  · rw [hprog.apb1Freq]
    by_cases hone : cfg.ppre1 b = 1
    · obtain ⟨hdiv, hclk⟩ := (ppre1_eq_one_iff b cfg).mp hone
      rw [hone, Freq.div_one]
      exact hw.apb1 hdiv hclk
    · have htwo : 2 ≤ cfg.ppre1 b := by
        have := hacc.ppre1
        omega
      exact (hw.ahb.mono (Nat.mul_le_mul_left 42000000 htwo)).div hacc.ppre1
  · intro r' hr'
    rw [(h.tree r' hr').ahbFreq]
    have hflash := hw.flash
    unfold ClockConfig.switchWs at hflash
    by_cases hsrc : cfg.source = .pll
    · rw [if_pos hsrc] at hflash
      rcases h.latency r' hr' with hlat | hlat
      · rw [hlat]
        exact hflash
      · exact absurd hsrc hlat.1
    · rw [if_neg hsrc] at hflash
      rcases h.latency r' hr' with hlat | hlat
      · rw [hlat]
        exact flashKeepsUp_after hw.ahb hsrc
      · rw [hlat.2]
        exact hflash

end

/-! ## After initialisation -/

/-- An initialisation that was accepted keeps every bus and the flash within their
ratings exactly if what was asked for already does. -/
theorem within_ratings_iff (b : Board) (cfg : ClockConfig) (r : Regs)
    (hok : (stm32ClockInit b cfg r).status = .ok) :
    WithinRatings b (stm32ClockInit b cfg r) ↔ AskedWithinRatings b cfg r.latency :=
  ⟨(stm32ClockInit_ok hok).asked, (stm32ClockInit_ok hok).withinRatings⟩

/-- 16 MHz to the PLL, `n / p` of 1 MHz out of it, and every divider left to the driver. -/
def pllFromHsi (n : UInt16) (p : UInt8) : ClockConfig where
  source := .pll
  hpreDiv := 0
  ppre1Div := 0
  ppre2Div := 0
  pll :=
    { inputSrc := .hsi
      pllM := 16
      pllN := n
      pllP := p
      pllQ := 7 }

theorem within_ratings_84MHz :
    WithinRatings f401Board (stm32ClockInit f401Board (pllFromHsi 336 4) .atReset) :=
  (within_ratings_iff f401Board (pllFromHsi 336 4) .atReset (by decide)).mpr
    ⟨by decide, by decide, by decide⟩

/-- 336 over 2 is 168 MHz, and AHB gets all of it. -/
theorem ahb_is_not_clamped :
    (stm32ClockInit f401Board (pllFromHsi 336 2) .atReset).status = .ok ∧
      ¬ WithinRatings f401Board (stm32ClockInit f401Board (pllFromHsi 336 2) .atReset) := by
  refine ⟨by decide, fun h => ?_⟩
  have hahb := h.ahb
  revert hahb
  decide

end NavHAL.Clock
