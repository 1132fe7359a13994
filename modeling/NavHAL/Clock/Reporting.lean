import NavHAL.Clock.Programmed

/-!
# Reporting the clock tree

The getters against the tree that was programmed.  They read SYSCLK back from the
PLL fields, which hold only part of an oversized parameter, and they divide SYSCLK
by the APB prescalers, which divide HCLK.
-/

namespace NavHAL.Clock

/-! ## SYSCLK -/

namespace ClockConfig

variable (b : Board) (cfg : ClockConfig)

/-- SYSCLK by the same formula, with the PLL parameters that the fields hold. -/
def heldSysclkHz : Nat :=
  match cfg.source with
  | .hsi => b.hsiFreqHz.toNat
  | .hse => b.hseFreqHz.toNat
  | .pll =>
    let vcoIn := if cfg.pll.heldHse then b.hseFreqHz else b.hsiFreqHz
    pllHz vcoIn.toNat cfg.pll.heldM cfg.pll.heldN cfg.pll.heldP

end ClockConfig

section

variable {b : Board} {cfg : ClockConfig} {r : Regs}

theorem getSysclk_of_tree (hsws : r.sws = cfg.source.sw)
    (hpll : cfg.source = .pll → r.pllcfgr = cfg.pll.word) :
    stm32ClockGetSysclk b r = cfg.heldSysclkHz b := by
  have hsws : (r.cfgr >>> 2 &&& 3#32) = cfg.source.sw := hsws
  unfold stm32ClockGetSysclk ClockConfig.heldSysclkHz
  rw [hsws]
  cases hsrc : cfg.source with
  | hsi => rfl
  | hse => rfl
  | pll =>
    have hword := hpll hsrc
    show pllHz _ _ _ _ = pllHz _ _ _ _
    rw [hword, read_pllM, read_pllN, read_pllP, read_vcoIn]

theorem Programmed.getSysclk (h : Programmed b cfg r) :
    stm32ClockGetSysclk b r = cfg.heldSysclkHz b :=
  getSysclk_of_tree h.sws h.pllcfgr

/-- Parameters in the range of their fields are held as they are. -/
theorem heldSysclkHz_of_fits (hin : cfg.pll.inputSrc ≠ .pll) (hm : cfg.pll.pllM.toNat < 64)
    (hm0 : cfg.pll.pllM ≠ 0) (hn : cfg.pll.pllN.toNat < 512)
    (hp : cfg.pll.pllP = 2 ∨ cfg.pll.pllP = 4 ∨ cfg.pll.pllP = 6 ∨ cfg.pll.pllP = 8) :
    cfg.heldSysclkHz b = targetSysclkHz b cfg := by
  have hcode : cfg.pll.heldP = cfg.pll.pllP.toNat ∧ cfg.pll.pllpCode.getLsbD 6 = false ∧
      cfg.pll.pllP ≠ 0 := by
    unfold PllConfig.heldP PllConfig.pllpCode
    rcases hp with hp | hp | hp | hp <;> rw [hp] <;> decide
  obtain ⟨hheldP, hbit, hp0⟩ := hcode
  have hheldM : cfg.pll.heldM = cfg.pll.pllM.toNat := Nat.mod_eq_of_lt hm
  have hheldN : cfg.pll.heldN = cfg.pll.pllN.toNat := Nat.mod_eq_of_lt hn
  unfold ClockConfig.heldSysclkHz targetSysclkHz
  cases hsrc : cfg.source with
  | hsi => rfl
  | hse => rfl
  | pll =>
    simp only [hheldM, hheldN, hheldP, PllConfig.heldHse, hbit, Bool.or_false, hm0, hp0]
    cases hsrc' : cfg.pll.inputSrc with
    | hsi => simp
    | hse => simp
    | pll => exact absurd hsrc' hin

/-! ## The buses -/

def halClockGetAhbclk (b : Board) (r : Regs) : Nat := halClockGetBusClock b r 0
def halClockGetApb1clk (b : Board) (r : Regs) : Nat := halClockGetBusClock b r 1
def halClockGetApb2clk (b : Board) (r : Regs) : Nat := halClockGetBusClock b r 2

/-- The reported frequencies are those of the tree; the APB prescalers divide HCLK. -/
structure ReportsTree (b : Board) (cfg : ClockConfig) (r : Regs) : Prop where
  sysclk : stm32ClockGetSysclk b r = targetSysclkHz b cfg
  ahb : halClockGetAhbclk b r = stm32ClockGetSysclk b r / cfg.hpre
  apb1 : halClockGetApb1clk b r = stm32ClockGetSysclk b r / cfg.hpre / cfg.ppre1 b
  apb2 : halClockGetApb2clk b r = stm32ClockGetSysclk b r / cfg.hpre / cfg.ppre2 b

/-- The PLL fields hold what was asked for, as far as the frequency goes, and HCLK
is SYSCLK, or else both bus frequencies round to 0. -/
structure Reportable (b : Board) (cfg : ClockConfig) : Prop where
  pll : cfg.heldSysclkHz b = targetSysclkHz b cfg
  hclk : cfg.hpre = 1 ∨
    targetSysclkHz b cfg < cfg.ppre1 b ∧ targetSysclkHz b cfg < cfg.ppre2 b

/-- Leaving out one of two divisions. -/
theorem div_eq_div_div_iff {s h p : Nat} (hp : 0 < p) : s / p = s / h / p ↔ h = 1 ∨ s < p := by
  have hswap : s / h / p = s / p / h := by
    rw [Nat.div_div_eq_div_mul, Nat.mul_comm, ← Nat.div_div_eq_div_mul]
  rw [hswap, eq_comm, Nat.div_eq_self, Nat.div_eq_zero_iff_lt hp, or_comm]

theorem Programmed.reportsTree_iff (h : Programmed b cfg r) (hacc : Accepted b cfg) :
    ReportsTree b cfg r ↔ Reportable b cfg := by
  have hsys := h.getSysclk
  have hahb : halClockGetAhbclk b r = stm32ClockGetSysclk b r / cfg.hpre := by
    show stm32ClockGetSysclk b r / decodePrescaler r.hpreField = _
    rw [h.hpre]
  have hapb1 : halClockGetApb1clk b r = stm32ClockGetSysclk b r / cfg.ppre1 b := by
    show stm32ClockGetSysclk b r / decodeApbPrescaler r.ppre1Field = _
    rw [h.ppre1]
  have hapb2 : halClockGetApb2clk b r = stm32ClockGetSysclk b r / cfg.ppre2 b := by
    show stm32ClockGetSysclk b r / decodeApbPrescaler r.ppre2Field = _
    rw [h.ppre2]
  constructor
  · intro hrep
    have h1 := hrep.apb1
    have h2 := hrep.apb2
    rw [hapb1, hrep.sysclk, div_eq_div_div_iff hacc.ppre1] at h1
    rw [hapb2, hrep.sysclk, div_eq_div_div_iff hacc.ppre2] at h2
    constructor
    · rw [← hsys, hrep.sysclk]
    · rcases h1 with h1 | h1
      · exact Or.inl h1
      · exact h2.imp_right fun h2 => ⟨h1, h2⟩
  · intro hrep
    have htarget : stm32ClockGetSysclk b r = targetSysclkHz b cfg := hsys.trans hrep.pll
    constructor
    · exact htarget
    · exact hahb
    · rw [hapb1, htarget, div_eq_div_div_iff hacc.ppre1]
      exact hrep.hclk.imp_right And.left
    · rw [hapb2, htarget, div_eq_div_div_iff hacc.ppre2]
      exact hrep.hclk.imp_right And.right

end

/-! ## After initialisation -/

/-- After an initialisation that was accepted, the getters agree with the tree
exactly if the PLL fields hold the frequency that was asked for and HPRE is 1. -/
theorem clock_reports_iff (b : Board) (cfg : ClockConfig) (r : Regs)
    (hok : (stm32ClockInit b cfg r).status = .ok) :
    ReportsTree b cfg (stm32ClockInit b cfg r).regs ↔ Reportable b cfg := by
  have hspec := stm32ClockInit_ok hok
  exact (hspec.tree _ hspec.last).reportsTree_iff hspec.accepted

/-- 84 MHz from HSE, with APB1 at half of it. -/
def hse84MHz (hpreDiv : UInt16) : ClockConfig where
  source := .pll
  hpreDiv := hpreDiv
  ppre1Div := 2
  ppre2Div := 1
  pll :=
    { inputSrc := .hse
      pllM := 8
      pllN := 168
      pllP := 2
      pllQ := 7 }

theorem clock_reports_84MHz :
    ReportsTree f401Board (hse84MHz 1) (stm32ClockInit f401Board (hse84MHz 1) .atReset).regs :=
  (clock_reports_iff f401Board (hse84MHz 1) .atReset (by decide)).mpr
    ⟨by decide, Or.inl (by decide)⟩

/-- With HCLK at half of SYSCLK, both APB clocks are reported at twice their
frequency. -/
theorem apb_reported_from_sysclk :
    (stm32ClockInit f401Board (hse84MHz 2) .atReset).status = .ok ∧
      ¬ ReportsTree f401Board (hse84MHz 2)
        (stm32ClockInit f401Board (hse84MHz 2) .atReset).regs := by
  refine ⟨by decide, fun h => ?_⟩
  have hapb2 := h.apb2
  revert hapb2
  decide

end NavHAL.Clock
