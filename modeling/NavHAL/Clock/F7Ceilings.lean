import NavHAL.Clock.Ceilings
import NavHAL.Clock.F7Init
import NavHAL.Clock.Reporting

/-!
# The ceilings of the F7

The frequencies that the registers select against the ratings of the part, the
over-drive and the flash, and the getters against the frequencies.  The driver
holds no ceiling for HCLK, and sizes everything from an estimate of HCLK.
-/

namespace NavHAL.Clock

/-- The whole number of Hz. -/
def Freq.hz (f : Freq) : Nat := f.num / f.den

theorem Freq.hz_div (f : Freq) (k : Nat) : (f.div k).hz = f.hz / k :=
  (Nat.div_div_eq_div_mul f.num f.den k).symm

/-- The formula of the getters loses what the division by PLLM drops, `n` times over,
once that reaches a multiple of PLLP, and what does not fit 32 bits. -/
def PllConfig.ReadExactly (b : Board) (pll : PllConfig) : Prop :=
  let vcoIn := (if pll.heldHse then b.hseFreqHz else b.hsiFreqHz).toNat
  let vco := vcoIn / pll.heldM * pll.heldN
  vco < 4294967296 ∧ vco % pll.heldP + vcoIn % pll.heldM * pll.heldN / pll.heldM < pll.heldP

instance (b : Board) (pll : PllConfig) : Decidable (pll.ReadExactly b) :=
  inferInstanceAs (Decidable (_ ∧ _))

/-- Adding `c` does not reach the next multiple of `p`. -/
theorem div_eq_add_div_iff {x c p : Nat} (hp : 0 < p) : x / p = (x + c) / p ↔ x % p + c < p := by
  have hsplit : (x + c) / p = x / p + (x % p + c) / p := by
    calc (x + c) / p = (x % p + c + p * (x / p)) / p := by
          congr 1
          have := Nat.mod_add_div x p
          omega
      _ = x / p + (x % p + c) / p := by rw [Nat.add_mul_div_left _ _ hp, Nat.add_comm]
  rw [hsplit, ← Nat.div_eq_zero_iff_lt hp]
  omega

theorem pllHz_eq_iff {vcoIn m n p : Nat} (hm : 0 < m) (hp : 0 < p) (hp32 : p ≤ 4294967296) :
    pllHz vcoIn m n p = vcoIn * n / (m * p) ↔
      vcoIn / m * n < 4294967296 ∧ vcoIn / m * n % p + vcoIn % m * n / m < p := by
  have hexact : vcoIn * n / (m * p) = (vcoIn / m * n + vcoIn % m * n / m) / p := by
    have hnum : vcoIn * n = vcoIn % m * n + m * (vcoIn / m * n) := by
      calc vcoIn * n = (vcoIn % m + m * (vcoIn / m)) * n := by rw [Nat.mod_add_div]
        _ = vcoIn % m * n + m * (vcoIn / m * n) := by rw [Nat.add_mul, Nat.mul_assoc]
    rw [← Nat.div_div_eq_div_mul, hnum, Nat.add_mul_div_left _ _ hm, Nat.add_comm]
  unfold pllHz
  rw [hexact]
  generalize vcoIn / m * n = x
  generalize vcoIn % m * n / m = c
  by_cases hx : x < 4294967296
  · rw [Nat.mod_eq_of_lt hx, div_eq_add_div_iff hp]
    exact (and_iff_right hx).symm
  · refine iff_of_false ?_ fun h => hx h.1
    -- the quotient drops by at least one multiple of `p`
    have hwrap : x % 4294967296 + p ≤ x + c := by
      have := Nat.mod_add_div x 4294967296
      have hone : 1 ≤ x / 4294967296 := (Nat.one_le_div_iff (by decide)).mpr (by omega)
      omega
    have hle : (x % 4294967296 + p) / p ≤ (x + c) / p := Nat.div_le_div_right hwrap
    rw [Nat.add_div_right _ hp] at hle
    omega

namespace F7

/-! ## What the driver chooses -/

section

variable {asked : UInt16} {auto code : BitVec 32} {hclk limitHz : Nat}

theorem ppreEncode_mem {div : Nat} {bits : BitVec 32} (h : ppreEncode div = some bits) :
    div = 1 ∨ div = 2 ∨ div = 4 ∨ div = 8 ∨ div = 16 := by
  unfold ppreEncode at h
  split at h
  all_goals first | contradiction | decide

/-- A divider asked for is programmed if HCLK over it stays within the ceiling. -/
theorem ppre_eq_some (h : ppre asked auto hclk limitHz = some code) :
    asked.toNat = 0 ∧ code = auto ∨
      (asked.toNat = 1 ∨ asked.toNat = 2 ∨ asked.toNat = 4 ∨ asked.toNat = 8 ∨
          asked.toNat = 16) ∧
        (hclk / asked.toNat ≤ limitHz ∧ decodeApbPrescaler code = asked.toNat ∨
          limitHz < hclk / asked.toNat ∧ code = auto) := by
  unfold ppre at h
  split at h
  · rename_i hzero
    cases h
    exact Or.inl ⟨by rw [hzero]; rfl, rfl⟩
  · right
    split at h
    · contradiction
    · rename_i req hreq
      cases h
      refine ⟨ppreEncode_mem hreq, ?_⟩
      by_cases hle : hclk / asked.toNat ≤ limitHz
      · rw [if_pos hle]
        exact Or.inl ⟨hle, (ppreEncode_eq_some hreq).1⟩
      · rw [if_neg hle]
        exact Or.inr ⟨Nat.lt_of_not_le hle, rfl⟩

theorem autoPpre1_cases (hclk : Nat) :
    hclk ≤ 54000000 ∧ decodeApbPrescaler (autoPpre1 hclk) = 1 ∨
      54000000 < hclk ∧ hclk ≤ 108000000 ∧ decodeApbPrescaler (autoPpre1 hclk) = 2 ∨
      108000000 < hclk ∧ decodeApbPrescaler (autoPpre1 hclk) = 4 := by
  unfold autoPpre1
  by_cases h54 : hclk ≤ 54000000
  · rw [if_pos h54]
    exact Or.inl ⟨h54, rfl⟩
  · rw [if_neg h54]
    by_cases h108 : hclk ≤ 108000000
    · rw [if_pos h108]
      exact Or.inr (Or.inl ⟨by omega, h108, rfl⟩)
    · rw [if_neg h108]
      exact Or.inr (Or.inr ⟨by omega, rfl⟩)

theorem autoPpre2_cases (hclk : Nat) :
    hclk ≤ 108000000 ∧ decodeApbPrescaler (autoPpre2 hclk) = 1 ∨
      108000000 < hclk ∧ decodeApbPrescaler (autoPpre2 hclk) = 2 := by
  unfold autoPpre2
  by_cases h108 : hclk ≤ 108000000
  · rw [if_pos h108]
    exact Or.inl ⟨h108, rfl⟩
  · rw [if_neg h108]
    exact Or.inr ⟨by omega, rfl⟩

/-- HCLK reaches APB1 undivided. -/
def Undivided1 (hclk : Nat) (asked : UInt16) : Prop := asked.toNat ≤ 1 ∧ hclk ≤ 54000000

/-- APB1 gets half of HCLK; the driver's quotient rounds 108 MHz and 1 Hz down. -/
def Halved1 (hclk : Nat) (asked : UInt16) : Prop :=
  asked.toNat ≤ 1 ∧ 54000000 < hclk ∧ hclk ≤ 108000000 ∨ asked.toNat = 2 ∧ hclk ≤ 108000001

/-- HCLK reaches APB2 undivided. -/
def Undivided2 (hclk : Nat) (asked : UInt16) : Prop := asked.toNat ≤ 1 ∧ hclk ≤ 108000000

instance (hclk : Nat) (asked : UInt16) : Decidable (Undivided1 hclk asked) :=
  inferInstanceAs (Decidable (_ ∧ _))

instance (hclk : Nat) (asked : UInt16) : Decidable (Halved1 hclk asked) :=
  inferInstanceAs (Decidable (_ ∨ _))

instance (hclk : Nat) (asked : UInt16) : Decidable (Undivided2 hclk asked) :=
  inferInstanceAs (Decidable (_ ∧ _))

theorem ppre1_cases (h : ppre asked (autoPpre1 hclk) hclk 54000000 = some code) :
    (decodeApbPrescaler code = 1 ↔ Undivided1 hclk asked) ∧
      (decodeApbPrescaler code = 2 ↔ Halved1 hclk asked) ∧
      (decodeApbPrescaler code = 1 ∨ decodeApbPrescaler code = 2 ∨
        4 ≤ decodeApbPrescaler code) := by
  unfold Undivided1 Halved1
  have hauto := autoPpre1_cases hclk
  rcases ppre_eq_some h with ⟨hasked, rfl⟩ | ⟨hasked, ⟨hle, hcode⟩ | ⟨hlt, rfl⟩⟩
  · rw [hasked]
    omega
  · rcases hasked with ha | ha | ha | ha | ha
    all_goals rw [ha] at hle hcode ⊢
    all_goals omega
  · rcases hasked with ha | ha | ha | ha | ha
    all_goals rw [ha] at hlt ⊢
    all_goals omega

theorem ppre2_cases (h : ppre asked (autoPpre2 hclk) hclk 108000000 = some code) :
    (decodeApbPrescaler code = 1 ↔ Undivided2 hclk asked) ∧
      (decodeApbPrescaler code = 1 ∨ 2 ≤ decodeApbPrescaler code) := by
  unfold Undivided2
  have hauto := autoPpre2_cases hclk
  rcases ppre_eq_some h with ⟨hasked, rfl⟩ | ⟨hasked, ⟨hle, hcode⟩ | ⟨hlt, rfl⟩⟩
  · rw [hasked]
    omega
  · rcases hasked with ha | ha | ha | ha | ha
    all_goals rw [ha] at hle hcode ⊢
    all_goals omega
  · rcases hasked with ha | ha | ha | ha | ha
    all_goals rw [ha] at hlt ⊢
    all_goals omega

end

/-! ## The ratings and the reports -/

/-- The getters answer with the frequencies that the registers select. -/
structure ReportsTree (b : Board) (r : Clock.Regs) : Prop where
  sysclk : stm32ClockGetSysclk b r = (r.sysclk b).hz
  ahb : halClockGetAhbclk b r = (r.ahbFreq b).hz
  apb1 : halClockGetApb1clk b r = (r.apb1Freq b).hz
  apb2 : halClockGetApb2clk b r = (r.apb2Freq b).hz

/-- The buses run within their ratings at the return, HPRE divides as asked, and in
every register state since SYSCLK was switched the core and the flash keep up. -/
structure SetUp (b : Board) (cfg : ClockConfig) (res : InitResult) : Prop where
  ahb : (res.regs.rcc.ahbFreq b).AtMost 216000000
  apb1 : (res.regs.rcc.apb1Freq b).AtMost 54000000
  apb2 : (res.regs.rcc.apb2Freq b).AtMost 108000000
  overDrive : ∀ r ∈ res.running, ¬ (r.rcc.ahbFreq b).AtMost 180000000 → r.OverDrive
  flash : ∀ r ∈ res.running, FlashKeepsUp (r.rcc.ahbFreq b) r.rcc.latency
  hpre : cfg.hpreDiv ≠ 0 → decodePrescaler res.regs.rcc.hpreField = cfg.hpreDiv.toNat
  reports : ReportsTree b res.regs.rcc

/-- The wait states in force when SYSCLK is switched. -/
def switchWs (b : Board) (cfg : ClockConfig) (before : Nat) : Nat :=
  if cfg.source = .pll then flashWsFor (hclk b cfg) else before

/-- What the caller must see to: no AHB divider, a real HCLK within its rating, and
an estimate of HCLK that is not too low for the dividers, the over-drive and the wait
states that the driver sizes from it. -/
structure Asked (b : Board) (cfg : ClockConfig) (r : Regs) : Prop where
  hpre : cfg.hpreDiv = 0 ∨ cfg.hpreDiv = 1
  ahb : (cfg.heldSysclk b).AtMost 216000000
  undivided1 : Undivided1 (hclk b cfg) cfg.ppre1Div → (cfg.heldSysclk b).AtMost 54000000
  halved1 : Halved1 (hclk b cfg) cfg.ppre1Div → (cfg.heldSysclk b).AtMost 108000000
  undivided2 : Undivided2 (hclk b cfg) cfg.ppre2Div → (cfg.heldSysclk b).AtMost 108000000
  overDrive : ¬ (cfg.heldSysclk b).AtMost 180000000 → needsOverDrive b cfg ∨ r.OverDrive
  flash : FlashKeepsUp (cfg.heldSysclk b) (switchWs b cfg r.rcc.latency)
  exact : cfg.source = .pll → cfg.pll.ReadExactly b

section

variable {b : Board} {cfg : ClockConfig} {bits : BitVec 32 × BitVec 32 × BitVec 32}

theorem Programmed.ahbFreq {r : Clock.Regs} (h : Programmed cfg bits r) (hbits : bits.1 = 0) :
    r.ahbFreq b = cfg.heldSysclk b := by
  have hone : decodePrescaler r.hpreField = 1 := by
    rw [h.hpre, hbits]
    rfl
  unfold Regs.ahbFreq
  rw [sysclk_of_tree h.sws h.pllcfgr, hone, Freq.div_one]

theorem div_atMost_iff {f : Freq} {k limitHz : Nat} (hk : 0 < k) :
    (f.div k).AtMost limitHz ↔ f.AtMost (limitHz * k) := by
  unfold Freq.AtMost Freq.div
  have hden : 0 < f.den * k ↔ 0 < f.den := by
    rw [Nat.mul_pos_iff_of_pos_right hk]
  have hmul : limitHz * (f.den * k) = limitHz * k * f.den := by
    rw [Nat.mul_assoc, Nat.mul_comm k f.den]
  rw [hden, hmul]

/-- APB1 is within its rating unless it gets more of HCLK than the estimate allows. -/
theorem apb1_atMost_iff {f : Freq} {asked : UInt16} {code : BitVec 32} {hclk : Nat}
    (hahb : f.AtMost 216000000) (h : ppre asked (autoPpre1 hclk) hclk 54000000 = some code) :
    (f.div (decodeApbPrescaler code)).AtMost 54000000 ↔
      (Undivided1 hclk asked → f.AtMost 54000000) ∧
        (Halved1 hclk asked → f.AtMost 108000000) := by
  obtain ⟨hone, htwo, hcases⟩ := ppre1_cases h
  rw [← hone, ← htwo]
  rcases hcases with hd | hd | hd
  · rw [hd, Freq.div_one]
    simp
  · rw [hd, div_atMost_iff (by decide)]
    simp
  · refine iff_of_true ?_ ⟨fun h1 => by omega, fun h2 => by omega⟩
    rw [div_atMost_iff (by omega)]
    exact hahb.mono (Nat.mul_le_mul_left 54000000 hd)

theorem apb2_atMost_iff {f : Freq} {asked : UInt16} {code : BitVec 32} {hclk : Nat}
    (hahb : f.AtMost 216000000) (h : ppre asked (autoPpre2 hclk) hclk 108000000 = some code) :
    (f.div (decodeApbPrescaler code)).AtMost 108000000 ↔
      (Undivided2 hclk asked → f.AtMost 108000000) := by
  obtain ⟨hone, hcases⟩ := ppre2_cases h
  rw [← hone]
  rcases hcases with hd | hd
  · rw [hd, Freq.div_one]
    simp
  · refine iff_of_true ?_ fun h1 => by omega
    rw [div_atMost_iff (by omega)]
    exact hahb.mono (Nat.mul_le_mul_left 108000000 hd)

theorem heldSysclkHz_eq_iff (hden : 0 < (cfg.heldSysclk b).den) :
    cfg.heldSysclkHz b = (cfg.heldSysclk b).hz ↔
      (cfg.source = .pll → cfg.pll.ReadExactly b) := by
  unfold ClockConfig.heldSysclkHz ClockConfig.heldSysclk Freq.hz at *
  cases hsrc : cfg.source with
  | hsi => simp
  | hse => simp
  | pll =>
    rw [hsrc] at hden
    have hm : 0 < cfg.pll.heldM := Nat.pos_of_mul_pos_right hden
    have hp : 0 < cfg.pll.heldP ∧ cfg.pll.heldP ≤ 8 := by
      unfold PllConfig.heldP
      omega
    have hiff := @pllHz_eq_iff (if cfg.pll.heldHse then b.hseFreqHz else b.hsiFreqHz).toNat
      cfg.pll.heldM cfg.pll.heldN cfg.pll.heldP hm hp.1 (by omega)
    exact hiff.trans ⟨fun h _ => h, fun h => h rfl⟩

/-- All getters are right once that of SYSCLK is. -/
theorem Programmed.reportsTree_iff {r : Clock.Regs} (h : Programmed cfg bits r)
    (hbits : bits.1 = 0) (hden : 0 < (cfg.heldSysclk b).den) :
    ReportsTree b r ↔ (cfg.source = .pll → cfg.pll.ReadExactly b) := by
  rw [← heldSysclkHz_eq_iff hden, ← sysclk_of_tree h.sws h.pllcfgr,
    ← getSysclk_of_tree h.sws h.pllcfgr]
  constructor
  · intro hrep
    exact hrep.sysclk
  · intro hsys
    have hone : decodePrescaler r.hpreField = 1 := by
      rw [h.hpre, hbits]
      rfl
    have hahb : r.ahbFreq b = r.sysclk b := by
      unfold Regs.ahbFreq
      rw [hone, Freq.div_one]
    constructor
    · exact hsys
    · show stm32ClockGetSysclk b r / decodePrescaler r.hpreField = _
      rw [hone, Nat.div_one, hahb, hsys]
    · show stm32ClockGetSysclk b r / decodeApbPrescaler r.ppre1Field = _
      rw [hsys, Regs.apb1Freq, Freq.hz_div, hahb]
    · show stm32ClockGetSysclk b r / decodeApbPrescaler r.ppre2Field = _
      rw [hsys, Regs.apb2Freq, Freq.hz_div, hahb]

variable {r : Regs} {res : InitResult}

theorem hpre_honoured_iff :
    (cfg.hpreDiv ≠ 0 → 1 = cfg.hpreDiv.toNat) ↔ cfg.hpreDiv = 0 ∨ cfg.hpreDiv = 1 := by
  have hone : 1 = cfg.hpreDiv.toNat ↔ cfg.hpreDiv = 1 := by
    rw [← UInt16.toNat_inj, eq_comm]
    rfl
  rw [hone]
  by_cases h0 : cfg.hpreDiv = 0
  · simp [h0]
  · simp [h0]

theorem flashKeepsUp_after (hahb : (cfg.heldSysclk b).AtMost 216000000)
    (hsrc : cfg.source ≠ .pll) :
    FlashKeepsUp (cfg.heldSysclk b) (flashWsFor (hclk b cfg)) := by
  unfold ClockConfig.heldSysclk hclk at *
  cases h : cfg.source with
  | hsi =>
    rw [h] at hahb
    exact flashKeepsUp_oscillator (hahb.mono (by decide))
  | hse =>
    rw [h] at hahb
    exact flashKeepsUp_oscillator (hahb.mono (by decide))
  | pll => exact absurd h hsrc

/-- The flash keeps up in all states since the switch if it does at the switch: what
is written later for an oscillator is enough. -/
theorem InitSpec.flash_iff (h : InitSpec b cfg bits r res)
    (hahb : (cfg.heldSysclk b).AtMost 216000000) :
    (∀ r' ∈ res.running, FlashKeepsUp (cfg.heldSysclk b) r'.rcc.latency) ↔
      FlashKeepsUp (cfg.heldSysclk b) (switchWs b cfg r.rcc.latency) := by
  unfold switchWs
  by_cases hsrc : cfg.source = .pll
  · rw [if_pos hsrc]
    have hlat : ∀ r' ∈ res.running, r'.rcc.latency = flashWsFor (hclk b cfg) := by
      intro r' hr'
      rcases h.latency r' hr' with hl | hl
      · exact hl
      · exact absurd hsrc hl.1
    constructor
    · intro hall
      rw [← hlat _ h.last]
      exact hall _ h.last
    · intro hws r' hr'
      rw [hlat r' hr']
      exact hws
  · rw [if_neg hsrc]
    constructor
    · intro hall
      obtain ⟨r', hr', hl⟩ := h.before hsrc
      rw [← hl]
      exact hall r' hr'
    · intro hws r' hr'
      rcases h.latency r' hr' with hl | hl
      · rw [hl]
        exact flashKeepsUp_after hahb hsrc
      · rw [hl.2]
        exact hws

theorem InitSpec.setUp_iff (h : InitSpec b cfg bits r res) : SetUp b cfg res ↔ Asked b cfg r := by
  obtain ⟨hh, h1, h2⟩ := prescalers_eq_some h.encoded
  have hprog := h.tree _ h.last
  have hfreq : ∀ r' ∈ res.running, r'.rcc.ahbFreq b = cfg.heldSysclk b :=
    fun r' hr' => (h.tree r' hr').ahbFreq hh
  have hapb1 : res.regs.rcc.apb1Freq b =
      (cfg.heldSysclk b).div (decodeApbPrescaler bits.2.1) := by
    rw [Regs.apb1Freq, hfreq _ h.last, hprog.ppre1]
  have hapb2 : res.regs.rcc.apb2Freq b =
      (cfg.heldSysclk b).div (decodeApbPrescaler bits.2.2) := by
    rw [Regs.apb2Freq, hfreq _ h.last, hprog.ppre2]
  have hhpre : decodePrescaler res.regs.rcc.hpreField = 1 := by
    rw [hprog.hpre, hh]
    rfl
  constructor
  · intro hs
    have hahb := hs.ahb
    rw [hfreq _ h.last] at hahb
    have hs1 := hs.apb1
    rw [hapb1, apb1_atMost_iff hahb h1] at hs1
    have hs2 := hs.apb2
    rw [hapb2, apb2_atMost_iff hahb h2] at hs2
    constructor
    · have hdiv := hs.hpre
      rw [hhpre] at hdiv
      exact hpre_honoured_iff.mp hdiv
    · exact hahb
    · exact hs1.1
    · exact hs1.2
    · exact hs2
    · intro hfast
      rw [← hfreq _ h.last] at hfast
      exact (h.overDrive _ h.last).mp (hs.overDrive _ h.last hfast)
    · refine (h.flash_iff hahb).mp fun r' hr' => ?_
      rw [← hfreq r' hr']
      exact hs.flash r' hr'
    · exact (hprog.reportsTree_iff hh hahb.1).mp hs.reports
  · intro hask
    have hahb := hask.ahb
    constructor
    · rw [hfreq _ h.last]
      exact hahb
    · rw [hapb1, apb1_atMost_iff hahb h1]
      exact ⟨hask.undivided1, hask.halved1⟩
    · rw [hapb2, apb2_atMost_iff hahb h2]
      exact hask.undivided2
    · intro r' hr' hfast
      rw [hfreq r' hr'] at hfast
      exact (h.overDrive r' hr').mpr (hask.overDrive hfast)
    · intro r' hr'
      rw [hfreq r' hr']
      exact (h.flash_iff hahb).mpr hask.flash r' hr'
    · rw [hhpre]
      exact hpre_honoured_iff.mpr hask.hpre
    · exact (hprog.reportsTree_iff hh hahb.1).mpr hask.exact

end

/-! ## After initialisation -/

/-- A set-up that was accepted keeps everything within its ratings, divides as asked
and is reported as it is exactly if what was asked for allows it. -/
theorem f7_set_up_iff (b : Board) (cfg : ClockConfig) (r : Regs)
    (hok : (stm32ClockInit b cfg r).status = .ok) :
    SetUp b cfg (stm32ClockInit b cfg r) ↔ Asked b cfg r := by
  obtain ⟨bits, hspec⟩ := stm32ClockInit_ok hok
  exact hspec.setUp_iff

def f767Board : Board where
  hsiFreqHz := 16000000
  hseFreqHz := 8000000
  hseBypass := true

def Regs.atReset : Regs where
  rcc := Clock.Regs.atReset
  apb1enr := 0
  pwrCr1 := 0xC000

/-- `n` MHz over 2 from HSE. -/
def pllFromHse (n : UInt16) (hpreDiv : UInt16) : ClockConfig where
  source := .pll
  hpreDiv := hpreDiv
  ppre1Div := 0
  ppre2Div := 0
  pll :=
    { inputSrc := .hse
      pllM := 8
      pllN := n
      pllP := 2
      pllQ := 9 }

theorem set_up_216MHz :
    SetUp f767Board (pllFromHse 432 1) (stm32ClockInit f767Board (pllFromHse 432 1) .atReset) :=
  (f7_set_up_iff f767Board (pllFromHse 432 1) .atReset (by decide)).mpr
    ⟨by decide, by decide, by decide, by decide, by decide, by decide, by decide, by decide⟩

/-- 220 MHz, with AHB at all of it although half was asked for. -/
theorem hclk_has_no_ceiling :
    (stm32ClockInit f767Board (pllFromHse 440 2) .atReset).status = .ok ∧
      ¬ SetUp f767Board (pllFromHse 440 2)
        (stm32ClockInit f767Board (pllFromHse 440 2) .atReset) := by
  refine ⟨by decide, fun h => ?_⟩
  have hahb := h.ahb
  revert hahb
  decide

end F7

end NavHAL.Clock
