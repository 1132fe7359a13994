import NavHAL.Clock.F7Ceilings
import NavHAL.Clock.Reporting
import NavHAL.Lib.NearestQuotient

/-!
# Solving for the PLL

`_solve_pll` of both families runs over the four dividers of the output.  What it
accepts and what it fills in is exact (`solvePll_spec`), so that a set-up by frequency
runs at it (`init_hz_runs_at_target`), but `pll_q` is the whole quotient of the VCO by
48 MHz, which is not always the nearest (`pllSolved_iff`).
-/

namespace NavHAL.Clock

open NearestQuotient

/-! ## The solver -/

/-- The two drivers, which differ in their limits. -/
inductive Family
  | f4
  | f7
  deriving DecidableEq

namespace Family

/-- `PLL_VCO_MIN_HZ` -/
def vcoMinHz : Family → UInt32
  | f4 => 192000000
  | f7 => 100000000

/-- `PLL_SYSCLK_MAX_HZ` -/
def sysclkMaxHz : Family → UInt32
  | f4 => 84000000
  | f7 => 216000000

end Family

/-- The oscillator that feeds the PLL. -/
def oscillatorHz (b : Board) (inputSrc : ClockSource) : UInt32 :=
  if inputSrc = .hse then b.hseFreqHz else b.hsiFreqHz

/-- `hal_clock_config_t cfg = {0}` -/
def PllConfig.zero : PllConfig where
  inputSrc := .hsi
  pllM := 0
  pllN := 0
  pllP := 0
  pllQ := 0

/-- What a divider that fits is filled in with. -/
def solved (inputSrc : ClockSource) (m n p : UInt32) (vco : UInt64) : PllConfig :=
  let q := (vco / 48000000).toUInt32
  { inputSrc := inputSrc
    pllM := m.toUInt8
    pllN := n.toUInt16
    pllP := p.toUInt8
    pllQ := (if 2 ≤ q ∧ q ≤ 15 then q else 7).toUInt8 }

/-- The loop over the dividers of the output. -/
def tryDividers (fam : Family) (inputSrc : ClockSource) (targetHz m : UInt32)
    (out : PllConfig) : List UInt32 → HalStatus × PllConfig
  | [] => (.errInvalidArg, out)
  | p :: rest =>
    let vco := targetHz.toUInt64 * p.toUInt64
    let n := (vco / 1000000).toUInt32
    if vco < fam.vcoMinHz.toUInt64 ∨ 432000000 < vco then
      tryDividers fam inputSrc targetHz m out rest
    else if n < 50 ∨ 432 < n then tryDividers fam inputSrc targetHz m out rest
    -- a target that the integer N cannot hit exactly
    else if n.toUInt64 * 1000000 ≠ vco then tryDividers fam inputSrc targetHz m out rest
    else (.ok, solved inputSrc m n p vco)

/-- `_solve_pll` -/
def solvePll (fam : Family) (b : Board) (inputSrc : ClockSource) (targetHz : UInt32)
    (out : PllConfig) : HalStatus × PllConfig :=
  if targetHz = 0 ∨ fam.sysclkMaxHz < targetHz then (.errInvalidArg, out)
  else
    let vcoIn := oscillatorHz b inputSrc
    if vcoIn % 1000000 ≠ 0 then (.errInvalidArg, out)
    else
      let m := vcoIn / 1000000
      if m < 2 ∨ 63 < m then (.errInvalidArg, out)
      else tryDividers fam inputSrc targetHz m out [2, 4, 6, 8]

def solvedConfig (pll : PllConfig) : ClockConfig where
  source := .pll
  hpreDiv := 0
  ppre1Div := 0
  ppre2Div := 0
  pll := pll

/-- `hal_clock_init_hz` of the F4 -/
def halClockInitHz (b : Board) (pllInput : ClockSource) (targetHz : UInt32) (r : Regs) :
    InitResult :=
  let res := solvePll .f4 b pllInput targetHz .zero
  if res.1 ≠ .ok then .stop res.1 r else stm32ClockInit b (solvedConfig res.2) r

/-- `hal_clock_init_hz` of the F7 -/
def F7.halClockInitHz (b : Board) (pllInput : ClockSource) (targetHz : UInt32) (r : F7.Regs) :
    F7.InitResult :=
  let res := solvePll .f7 b pllInput targetHz .zero
  if res.1 ≠ .ok then .stop res.1 r else F7.stm32ClockInit b (solvedConfig res.2) r

/-- SYSCLK as each driver computes it again before the switch. -/
def Family.recomputedHz (b : Board) (pll : PllConfig) : Family → Nat
  | f4 => targetSysclkHz b (solvedConfig pll)
  | f7 => F7.hclk b (solvedConfig pll)

/-! ## What is asked of it -/

def outputDividers : List Nat := [2, 4, 6, 8]

/-- `n` MHz is a VCO from which the divider makes the target. -/
structure Hits (fam : Family) (targetHz p n : Nat) : Prop where
  n_ge : 50 ≤ n
  n_le : n ≤ 432
  vco_ge : fam.vcoMinHz.toNat ≤ n * 1000000
  vco_le : n * 1000000 ≤ 432000000
  exact : n * 1000000 = targetHz * p

/-- The oscillator is a whole number of MHz that M can divide. -/
def Divisible (vcoInHz m : Nat) : Prop := 2 ≤ m ∧ m ≤ 63 ∧ m * 1000000 = vcoInHz

def Solvable (fam : Family) (vcoInHz targetHz : Nat) : Prop :=
  1 ≤ targetHz ∧ targetHz ≤ fam.sysclkMaxHz.toNat ∧ (∃ m, Divisible vcoInHz m) ∧
    ∃ p ∈ outputDividers, ∃ n, Hits fam targetHz p n

/-- The outputs meet the constraints, and the driver gets the target back from them. -/
structure Solution (fam : Family) (b : Board) (inputSrc : ClockSource) (targetHz : Nat)
    (pll : PllConfig) : Prop where
  source : pll.inputSrc = inputSrc
  m : Divisible (oscillatorHz b inputSrc).toNat pll.pllM.toNat
  p : pll.pllP.toNat ∈ outputDividers
  n : Hits fam targetHz pll.pllP.toNat pll.pllN.toNat
  noOverflow : (oscillatorHz b inputSrc).toNat / pll.pllM.toNat * pll.pllN.toNat < 4294967296
  recomputed : fam.recomputedHz b pll = targetHz

/-- The dividers that PLLQ can hold. -/
def legalQ : Set Nat := Set.Icc 2 15

/-- 48 MHz from a VCO of `n` MHz, or the nearest to it. -/
def RightQ (n q : Nat) : Prop := (48 ∣ n → q * 48 = n) ∧ Nearest legalQ 48 n q

/-- A call succeeds exactly where there is a solution, and then it has found one with the best
`Q`. -/
def PllSolved (fam : Family) (b : Board) (inputSrc : ClockSource) (targetHz : UInt32) : Prop :=
  let res := solvePll fam b inputSrc targetHz .zero
  (res.1 = .ok ↔ Solvable fam (oscillatorHz b inputSrc).toNat targetHz.toNat) ∧
    (res.1 = .ok → Solution fam b inputSrc targetHz.toNat res.2 ∧
      RightQ res.2.pllN.toNat res.2.pllQ.toNat)

/-- The divider that the loop comes to first. -/
def Chosen (fam : Family) (targetHz p n : Nat) : Prop :=
  p ∈ outputDividers ∧ Hits fam targetHz p n ∧
    ∀ p' ∈ outputDividers, p' < p → ∀ n', ¬ Hits fam targetHz p' n'

/-- 48 goes into `n` with a remainder small enough beside the quotient. -/
def SmallRemainder (n : Nat) : Prop := n % 48 * (2 * (n / 48) + 1) ≤ 48 * (n / 48)

/-! ## One divider -/

section

variable {fam : Family} {b : Board} {inputSrc : ClockSource} {targetHz m p : UInt32}
  {out : PllConfig} {n : Nat}

theorem vco_toNat (targetHz : UInt32) (hp : p.toNat ≤ 8) :
    (targetHz.toUInt64 * p.toUInt64).toNat = targetHz.toNat * p.toNat := by
  have hbound : targetHz.toNat * p.toNat ≤ 4294967296 * 8 :=
    Nat.mul_le_mul (Nat.le_of_lt targetHz.toNat_lt) hp
  rw [UInt64.toNat_mul, UInt32.toNat_toUInt64, UInt32.toNat_toUInt64]
  exact Nat.mod_eq_of_lt (by omega)

theorem n_toNat (targetHz : UInt32) (hp : p.toNat ≤ 8) :
    (targetHz.toUInt64 * p.toUInt64 / 1000000).toUInt32.toNat =
      targetHz.toNat * p.toNat / 1000000 := by
  have hbound : targetHz.toNat * p.toNat ≤ 4294967296 * 8 :=
    Nat.mul_le_mul (Nat.le_of_lt targetHz.toNat_lt) hp
  rw [UInt64.toNat_toUInt32, UInt64.toNat_div, vco_toNat targetHz hp]
  exact Nat.mod_eq_of_lt (show targetHz.toNat * p.toNat / 1000000 < 4294967296 by omega)

/-- The three checks of a divider are together whether it hits the target. -/
theorem hits_iff (fam : Family) (targetHz : UInt32) (hp : p.toNat ≤ 8) :
    (∃ n, Hits fam targetHz.toNat p.toNat n) ↔
      ¬ (targetHz.toUInt64 * p.toUInt64 < fam.vcoMinHz.toUInt64 ∨
          432000000 < targetHz.toUInt64 * p.toUInt64) ∧
        ¬ ((targetHz.toUInt64 * p.toUInt64 / 1000000).toUInt32 < 50 ∨
          432 < (targetHz.toUInt64 * p.toUInt64 / 1000000).toUInt32) ∧
        (targetHz.toUInt64 * p.toUInt64 / 1000000).toUInt32.toUInt64 * 1000000 =
          targetHz.toUInt64 * p.toUInt64 := by
  have hvco := vco_toNat targetHz hp
  have hn := n_toNat targetHz hp
  have hlt : targetHz.toNat * p.toNat / 1000000 * 1000000 < 18446744073709551616 := by
    have := (targetHz.toUInt64 * p.toUInt64).toNat_lt
    omega
  have hback : ((targetHz.toUInt64 * p.toUInt64 / 1000000).toUInt32.toUInt64 * 1000000).toNat =
      targetHz.toNat * p.toNat / 1000000 * 1000000 := by
    rw [UInt64.toNat_mul, UInt32.toNat_toUInt64, hn]
    exact Nat.mod_eq_of_lt hlt
  rw [UInt64.lt_iff_toNat_lt, UInt64.lt_iff_toNat_lt, UInt32.lt_iff_toNat_lt,
    UInt32.lt_iff_toNat_lt, ← UInt64.toNat_inj, hback, hvco, hn, UInt32.toNat_toUInt64]
  show _ ↔ ¬ (_ ∨ 432000000 < _) ∧ ¬ (_ < 50 ∨ 432 < _) ∧ _
  constructor
  · rintro ⟨n, h⟩
    have hdiv : targetHz.toNat * p.toNat / 1000000 = n := by
      rw [← h.exact]
      exact Nat.mul_div_cancel n (by decide)
    have := h.n_ge
    have := h.n_le
    have := h.vco_ge
    have := h.vco_le
    have := h.exact
    omega
  · rintro ⟨hvco, hn, hexact⟩
    exact ⟨_, by omega, by omega, by omega, by omega, hexact⟩

theorem tryDividers_cons (fam : Family) (inputSrc : ClockSource) (targetHz m : UInt32)
    (out : PllConfig) (hp : p.toNat ≤ 8) (rest : List UInt32) :
    (∃ n, Hits fam targetHz.toNat p.toNat n ∧
        tryDividers fam inputSrc targetHz m out (p :: rest) =
          (.ok, solved inputSrc m (targetHz.toUInt64 * p.toUInt64 / 1000000).toUInt32 p
            (targetHz.toUInt64 * p.toUInt64))) ∨
      (∀ n, ¬ Hits fam targetHz.toNat p.toNat n) ∧
        tryDividers fam inputSrc targetHz m out (p :: rest) =
          tryDividers fam inputSrc targetHz m out rest := by
  have hchecks := hits_iff fam targetHz hp
  by_cases hhits : ∃ n, Hits fam targetHz.toNat p.toNat n
  · obtain ⟨hvco, hn, hexact⟩ := hchecks.mp hhits
    obtain ⟨n, hn'⟩ := hhits
    refine .inl ⟨n, hn', ?_⟩
    rw [tryDividers, if_neg hvco, if_neg hn, if_neg (not_not.mpr hexact)]
  · refine .inr ⟨fun n h => hhits ⟨n, h⟩, ?_⟩
    rw [tryDividers]
    rw [hchecks] at hhits
    split
    · rfl
    split
    · rfl
    split
    · rfl
    · exact absurd ⟨‹_›, ‹_›, not_not.mp ‹_›⟩ hhits

/-! ## The loop -/

/-- The dividers in their order: the first that hits is the least.  By induction on
those still to try. -/
theorem tryDividers_spec (fam : Family) (inputSrc : ClockSource) (targetHz m : UInt32)
    (out : PllConfig) (ps : List UInt32) (hsorted : ps.Pairwise (·.toNat < ·.toNat))
    (hle : ∀ p ∈ ps, p.toNat ≤ 8) :
    ((∀ p ∈ ps, ∀ n, ¬ Hits fam targetHz.toNat p.toNat n) ∧
        tryDividers fam inputSrc targetHz m out ps = (.errInvalidArg, out)) ∨
      ∃ p ∈ ps, ∃ n, Hits fam targetHz.toNat p.toNat n ∧
        (∀ p' ∈ ps, p'.toNat < p.toNat → ∀ n', ¬ Hits fam targetHz.toNat p'.toNat n') ∧
        tryDividers fam inputSrc targetHz m out ps =
          (.ok, solved inputSrc m (targetHz.toUInt64 * p.toUInt64 / 1000000).toUInt32 p
            (targetHz.toUInt64 * p.toUInt64)) := by
  induction ps with
  | nil => exact .inl ⟨by simp, rfl⟩
  | cons p rest ih =>
    rw [List.pairwise_cons] at hsorted
    rcases tryDividers_cons fam inputSrc targetHz m out (hle p (List.mem_cons_self ..)) rest
      with ⟨n, hhits, hres⟩ | ⟨hmiss, hres⟩
    · refine .inr ⟨p, List.mem_cons_self .., n, hhits, ?_, hres⟩
      intro p' hp' hlt
      rcases List.mem_cons.mp hp' with rfl | hrest
      · exact absurd hlt (Nat.lt_irrefl _)
      · exact absurd hlt (Nat.lt_asymm (hsorted.1 p' hrest))
    · rcases ih hsorted.2 (fun p' hp' => hle p' (List.mem_cons_of_mem _ hp')) with
        ⟨hnone, hend⟩ | ⟨p₁, hp₁, n, hhits, hleast, hend⟩
      · refine .inl ⟨?_, hres.trans hend⟩
        intro p' hp'
        rcases List.mem_cons.mp hp' with rfl | hrest
        · exact hmiss
        · exact hnone p' hrest
      · refine .inr ⟨p₁, List.mem_cons_of_mem _ hp₁, n, hhits, ?_, hres.trans hend⟩
        intro p' hp' hlt
        rcases List.mem_cons.mp hp' with rfl | hrest
        · exact hmiss
        · exact hleast p' hrest hlt

/-! ## What is filled in -/

theorem Hits.n_eq {p : Nat} (h : Hits fam targetHz.toNat p n) :
    targetHz.toNat * p / 1000000 = n := by
  rw [← h.exact]
  exact Nat.mul_div_cancel n (by decide)

theorem Hits.n_ge_hundred {targetHz p : Nat} (h : Hits fam targetHz p n) : 100 ≤ n := by
  have hmin : 100 * 1000000 ≤ fam.vcoMinHz.toNat := by cases fam <;> decide
  have := h.vco_ge
  omega

/-- The parameters as they are filled in; none is cut by its type. -/
theorem solved_fields (hp : p.toNat ≤ 8) (hm : m.toNat ≤ 63)
    (h : Hits fam targetHz.toNat p.toNat n) :
    let pll := solved inputSrc m (targetHz.toUInt64 * p.toUInt64 / 1000000).toUInt32 p
      (targetHz.toUInt64 * p.toUInt64)
    pll.pllM.toNat = m.toNat ∧ pll.pllN.toNat = n ∧ pll.pllP.toNat = p.toNat ∧
      pll.pllQ.toNat = n / 48 := by
  have hn_ge := h.n_ge_hundred
  have hn_le := h.n_le
  have hq : (targetHz.toUInt64 * p.toUInt64 / 48000000).toUInt32.toNat = n / 48 := by
    rw [UInt64.toNat_toUInt32, UInt64.toNat_div, vco_toNat targetHz hp, ← h.exact]
    show n * 1000000 / 48000000 % 4294967296 = n / 48
    omega
  refine ⟨?_, ?_, ?_, ?_⟩
  · show m.toUInt8.toNat = m.toNat
    rw [UInt32.toNat_toUInt8]
    omega
  · show (targetHz.toUInt64 * p.toUInt64 / 1000000).toUInt32.toUInt16.toNat = n
    rw [UInt32.toNat_toUInt16, n_toNat targetHz hp, h.n_eq]
    omega
  · show p.toUInt8.toNat = p.toNat
    rw [UInt32.toNat_toUInt8]
    omega
  · have hlegal : 2 ≤ (targetHz.toUInt64 * p.toUInt64 / 48000000).toUInt32 ∧
        (targetHz.toUInt64 * p.toUInt64 / 48000000).toUInt32 ≤ 15 := by
      rw [UInt32.le_iff_toNat_le, UInt32.le_iff_toNat_le, hq]
      show 2 ≤ n / 48 ∧ n / 48 ≤ 15
      omega
    simp only [solved]
    rw [if_pos hlegal, UInt32.toNat_toUInt8, hq]
    omega

/-- A whole number of MHz passes the two checks of the oscillator, with M as its MHz. -/
theorem divisible_iff {vcoIn : UInt32} :
    (∃ m, Divisible vcoIn.toNat m) ↔
      ¬ vcoIn % 1000000 ≠ 0 ∧ ¬ (vcoIn / 1000000 < 2 ∨ 63 < vcoIn / 1000000) := by
  have hdiv : (vcoIn / 1000000).toNat = vcoIn.toNat / 1000000 := UInt32.toNat_div _ _
  have hmod : (vcoIn % 1000000).toNat = vcoIn.toNat % 1000000 := UInt32.toNat_mod _ _
  rw [not_not, ← UInt32.toNat_inj, hmod, UInt32.lt_iff_toNat_lt, UInt32.lt_iff_toNat_lt, hdiv]
  show _ ↔ _ = 0 ∧ ¬ (_ < 2 ∨ 63 < _)
  constructor
  · rintro ⟨m, hge, hle, hm⟩
    omega
  · rintro ⟨hmod, hrange⟩
    exact ⟨vcoIn.toNat / 1000000, by omega, by omega, by omega⟩

theorem Divisible.m_eq {vcoInHz m : Nat} (h : Divisible vcoInHz m) : vcoInHz / 1000000 = m := by
  rw [← h.2.2]
  exact Nat.mul_div_cancel m (by decide)

/-- The formula gives the target back, and its product is the VCO. -/
theorem pllHz_solved {vcoInHz m p targetHz : Nat} (hm : Divisible vcoInHz m)
    (h : Hits fam targetHz p n) (hp : 0 < p) :
    vcoInHz / m * n < 4294967296 ∧ pllHz vcoInHz m n p = targetHz := by
  have hin : vcoInHz / m = 1000000 := by
    rw [← hm.2.2]
    exact Nat.mul_div_cancel_left _ (Nat.lt_of_lt_of_le (by decide) hm.1)
  have hbound := h.vco_le
  refine ⟨by rw [hin]; omega, ?_⟩
  rw [pllHz, hin, Nat.mod_eq_of_lt (by omega), Nat.mul_comm, h.exact]
  exact Nat.mul_div_cancel _ hp

/-- Both drivers use the formula once the parameters are not zero. -/
theorem recomputedHz_eq (fam : Family) (b : Board) {pll : PllConfig} (hm : pll.pllM ≠ 0) (hp : pll.pllP ≠ 0) :
    fam.recomputedHz b pll =
      pllHz (oscillatorHz b pll.inputSrc).toNat pll.pllM.toNat pll.pllN.toNat pll.pllP.toNat := by
  have hnonzero : ¬ (pll.pllM = 0 ∨ pll.pllP = 0) := by simp [hm, hp]
  cases fam
  · exact if_neg hnonzero
  · exact if_neg hnonzero

theorem outputDividers_bounds {p : Nat} (h : p ∈ outputDividers) : 2 ≤ p ∧ p ≤ 8 := by
  revert p
  decide

/-! ## One call -/

theorem outputDividers_eq : outputDividers = ([2, 4, 6, 8] : List UInt32).map UInt32.toNat := rfl

theorem dividers_sorted : ([2, 4, 6, 8] : List UInt32).Pairwise (·.toNat < ·.toNat) := by
  rw [← List.pairwise_map]
  show outputDividers.Pairwise (· < ·)
  decide

theorem dividers_le : ∀ p ∈ ([2, 4, 6, 8] : List UInt32), p.toNat ≤ 8 := by
  intro p hp
  have hmem : p.toNat ∈ outputDividers := by
    rw [outputDividers_eq]
    exact List.mem_map_of_mem hp
  exact (outputDividers_bounds hmem).2

/-- The checks before the loop. -/
theorem solvePll_checked (hrange : 1 ≤ targetHz.toNat ∧ targetHz.toNat ≤ fam.sysclkMaxHz.toNat)
    (hdiv : ∃ m, Divisible (oscillatorHz b inputSrc).toNat m) :
    solvePll fam b inputSrc targetHz out =
      tryDividers fam inputSrc targetHz (oscillatorHz b inputSrc / 1000000) out [2, 4, 6, 8] := by
  have htarget : ¬ (targetHz = 0 ∨ fam.sysclkMaxHz < targetHz) := by
    rw [← UInt32.toNat_inj, UInt32.lt_iff_toNat_lt]
    show ¬ (_ = 0 ∨ _)
    omega
  obtain ⟨hmod, hm⟩ := divisible_iff.mp hdiv
  rw [solvePll, if_neg htarget]
  dsimp only
  rw [if_neg hmod, if_neg hm]

theorem solvePll_refused (h : ¬ ((1 ≤ targetHz.toNat ∧ targetHz.toNat ≤ fam.sysclkMaxHz.toNat) ∧
      ∃ m, Divisible (oscillatorHz b inputSrc).toNat m)) :
    solvePll fam b inputSrc targetHz out = (.errInvalidArg, out) := by
  have htarget : targetHz = 0 ∨ fam.sysclkMaxHz < targetHz ↔
      ¬ (1 ≤ targetHz.toNat ∧ targetHz.toNat ≤ fam.sysclkMaxHz.toNat) := by
    rw [← UInt32.toNat_inj, UInt32.lt_iff_toNat_lt]
    show _ = 0 ∨ _ ↔ _
    omega
  rw [divisible_iff] at h
  rw [solvePll]
  dsimp only
  split
  · rfl
  split
  · rfl
  split
  · rfl
  · exact absurd ⟨not_not.mp (mt htarget.mpr ‹_›), ‹_›, ‹_›⟩ h

/-- What the loop fills in for a divider that hits the target is a solution. -/
theorem solution_of_hits (b : Board) (hm : Divisible (oscillatorHz b inputSrc).toNat m.toNat)
    (hp : p.toNat ∈ outputDividers) (h : Hits fam targetHz.toNat p.toNat n) :
    Solution fam b inputSrc targetHz.toNat
      (solved inputSrc m (targetHz.toUInt64 * p.toUInt64 / 1000000).toUInt32 p
        (targetHz.toUInt64 * p.toUInt64)) := by
  have hbounds := outputDividers_bounds hp
  have hpll := pllHz_solved hm h (by omega)
  obtain ⟨hM, hN, hP, -⟩ := @solved_fields fam inputSrc targetHz m p n hbounds.2 hm.2.1 h
  have hsource : (solved inputSrc m (targetHz.toUInt64 * p.toUInt64 / 1000000).toUInt32 p
      (targetHz.toUInt64 * p.toUInt64)).inputSrc = inputSrc := rfl
  generalize solved inputSrc m _ p _ = pll at hM hN hP hsource ⊢
  have hM0 : pll.pllM ≠ 0 := by
    rw [Ne, ← UInt8.toNat_inj, hM]
    have := hm.1
    show ¬ m.toNat = 0
    omega
  have hP0 : pll.pllP ≠ 0 := by
    rw [Ne, ← UInt8.toNat_inj, hP]
    show ¬ p.toNat = 0
    omega
  constructor
  · exact hsource
  · rw [hM]
    exact hm
  · rw [hP]
    exact hp
  · rw [hP, hN]
    exact h
  · rw [hM, hN]
    exact hpll.1
  · rw [recomputedHz_eq fam b hM0 hP0, hsource, hM, hN, hP]
    exact hpll.2

/-- The first divider of the loop that hits the target is the least of all. -/
theorem chosen_of_first (hp : p.toNat ∈ outputDividers) (h : Hits fam targetHz.toNat p.toNat n)
    (hleast : ∀ p' ∈ ([2, 4, 6, 8] : List UInt32), p'.toNat < p.toNat →
      ∀ n', ¬ Hits fam targetHz.toNat p'.toNat n') :
    Chosen fam targetHz.toNat p.toNat n := by
  refine ⟨hp, h, ?_⟩
  intro p' hp' hlt n'
  rw [outputDividers_eq] at hp'
  obtain ⟨p₁, hp₁, rfl⟩ := List.mem_map.mp hp'
  exact hleast p₁ hp₁ hlt n'

/-- What a call does: it refuses what has no solution and changes nothing, or it solves
with the least divider of the output and cuts `pll_q` to the whole quotient. -/
theorem solvePll_spec (fam : Family) (b : Board) (inputSrc : ClockSource) (targetHz : UInt32)
    (out : PllConfig) :
    (¬ Solvable fam (oscillatorHz b inputSrc).toNat targetHz.toNat ∧
        solvePll fam b inputSrc targetHz out = (.errInvalidArg, out)) ∨
      Solvable fam (oscillatorHz b inputSrc).toNat targetHz.toNat ∧
        ∃ pll, solvePll fam b inputSrc targetHz out = (.ok, pll) ∧
          Solution fam b inputSrc targetHz.toNat pll ∧
          Chosen fam targetHz.toNat pll.pllP.toNat pll.pllN.toNat ∧
          pll.pllQ.toNat = pll.pllN.toNat / 48 := by
  by_cases hchecks : (1 ≤ targetHz.toNat ∧ targetHz.toNat ≤ fam.sysclkMaxHz.toNat) ∧
      ∃ m, Divisible (oscillatorHz b inputSrc).toNat m
  case neg =>
    exact .inl ⟨fun h => hchecks ⟨⟨h.1, h.2.1⟩, h.2.2.1⟩, solvePll_refused hchecks⟩
  obtain ⟨hrange, m, hm⟩ := hchecks
  have hmHz : (oscillatorHz b inputSrc / 1000000).toNat = m := by
    rw [← hm.m_eq]
    exact UInt32.toNat_div _ _
  rw [solvePll_checked hrange ⟨m, hm⟩]
  rcases tryDividers_spec fam inputSrc targetHz (oscillatorHz b inputSrc / 1000000) out
      [2, 4, 6, 8] dividers_sorted dividers_le
    with ⟨hnone, hres⟩ | ⟨p, hp, n, hhits, hleast, hres⟩
  · refine .inl ⟨?_, hres⟩
    rintro ⟨-, -, -, p, hp, n, hhits⟩
    rw [outputDividers_eq] at hp
    obtain ⟨p', hp', rfl⟩ := List.mem_map.mp hp
    exact hnone p' hp' n hhits
  · have hpmem : p.toNat ∈ outputDividers := by
      rw [outputDividers_eq]
      exact List.mem_map_of_mem hp
    rw [← hmHz] at hm
    obtain ⟨-, hN, hP, hQ⟩ := @solved_fields fam inputSrc targetHz _ p n
      (outputDividers_bounds hpmem).2 hm.2.1 hhits
    refine .inr ⟨⟨hrange.1, hrange.2, ⟨_, hm⟩, p.toNat, hpmem, n, hhits⟩, _, hres,
      solution_of_hits b hm hpmem hhits, ?_, ?_⟩
    · rw [hP, hN]
      exact chosen_of_first hpmem hhits hleast
    · rw [hQ, hN]

end

/-! ## The choice of Q -/

theorem Chosen.unique {fam : Family} {targetHz p n p' n' : Nat} (h : Chosen fam targetHz p n)
    (h' : Chosen fam targetHz p' n') : n = n' := by
  have hp : p = p' := by
    rcases Nat.lt_trichotomy p p' with hlt | heq | hgt
    · exact absurd h.2.1 (h'.2.2 p h.1 hlt n)
    · exact heq
    · exact absurd h'.2.1 (h.2.2 p' h'.1 hgt n')
  have := h.2.1.exact
  have := h'.2.1.exact
  rw [← hp] at this
  omega

/-- A VCO of 100 to 432 MHz has the quotients 2 to 9. -/
theorem rightQ_iff {n : Nat} (hge : 100 ≤ n) (hle : n ≤ 432) :
    RightQ n (n / 48) ↔ SmallRemainder n := by
  have hpos : ∀ q ∈ legalQ, 0 < q := fun q hq => Nat.lt_of_lt_of_le (by decide) hq.1
  have hq : n / 48 ∈ legalQ := ⟨by omega, by omega⟩
  have hnext : n / 48 + 1 ∈ legalQ := ⟨by omega, by omega⟩
  rw [RightQ, nearest_div_iff (by decide) hpos hq hnext, SmallRemainder, and_iff_right_iff_imp]
  intro _ hdvd
  exact Nat.div_mul_cancel hdvd

/-- The solver is sound and complete, and its Q is right exactly when the VCO of the least
divider leaves a small remainder by 48 MHz. -/
theorem pllSolved_iff (fam : Family) (b : Board) (inputSrc : ClockSource) (targetHz : UInt32) :
    PllSolved fam b inputSrc targetHz ↔
      (Solvable fam (oscillatorHz b inputSrc).toNat targetHz.toNat →
        ∀ p n, Chosen fam targetHz.toNat p n → SmallRemainder n) := by
  rcases solvePll_spec fam b inputSrc targetHz .zero with
    ⟨hnone, hres⟩ | ⟨hsome, pll, hres, hsolution, hchosen, hq⟩
  · rw [PllSolved, hres]
    simp [hnone]
  · have hright := rightQ_iff hsolution.n.n_ge_hundred hsolution.n.n_le
    rw [PllSolved, hres]
    constructor
    · intro h _ p n hpn
      have hkept := (h.2 rfl).2
      rw [hq, hright] at hkept
      rw [hpn.unique hchosen]
      exact hkept
    · intro h
      have hsmall := h hsome _ _ hchosen
      refine ⟨iff_of_true rfl hsome, fun _ => ⟨hsolution, ?_⟩⟩
      rw [hq]
      exact hright.mpr hsmall

/-- 54 MHz from a VCO of 216 MHz: 216 / 4 is 54, 216 / 5 is 43.2. -/
theorem nearer_pllQ_missed : ¬ PllSolved .f4 f401Board .hse 54000000 := by
  intro h
  have hres : solvePll .f4 f401Board .hse 54000000 .zero =
      (.ok, { inputSrc := .hse, pllM := 8, pllN := 216, pllP := 4, pllQ := 4 }) := rfl
  have hright := (h.2 (by rw [hres])).2
  rw [hres] at hright
  have hfive : off 48 216 4 ≤ off 48 216 5 := hright.2.2 5 ⟨by decide, by decide⟩
  revert hfive
  norm_num [off]

/-! ## The set-up by frequency -/

section

variable {b : Board} {pllInput : ClockSource} {targetHz : UInt32}

theorem Solution.heldSysclkHz {fam : Family} {pll : PllConfig}
    (h : Solution fam b pllInput targetHz.toNat pll) (hsrc : pllInput ≠ .pll) :
    (solvedConfig pll).heldSysclkHz b = targetHz.toNat := by
  have hm := h.m
  have hn := h.n.n_le
  have hm0 : pll.pllM ≠ 0 := by
    rintro hzero
    rw [hzero] at hm
    exact absurd hm.1 (by decide)
  have hp : pll.pllP = 2 ∨ pll.pllP = 4 ∨ pll.pllP = 6 ∨ pll.pllP = 8 := by
    have hmem := h.p
    simp only [outputDividers, List.mem_cons, List.not_mem_nil, or_false] at hmem
    rw [← UInt8.toNat_inj, ← UInt8.toNat_inj, ← UInt8.toNat_inj, ← UInt8.toNat_inj]
    exact hmem
  have hp0 : pll.pllP ≠ 0 := by
    rintro hzero
    simp [hzero] at hp
  have hfits := @heldSysclkHz_of_fits b (solvedConfig pll)
    (by rw [solvedConfig, h.source]; exact hsrc) (Nat.lt_succ_of_le hm.2.1) hm0
    (Nat.lt_of_le_of_lt hn (by decide)) hp
  have hrecomputed := h.recomputed
  rw [recomputedHz_eq fam b hm0 hp0] at hrecomputed
  have htarget := recomputedHz_eq .f4 b hm0 hp0
  rw [hfits, ← hrecomputed]
  exact htarget

theorem halClockInitHz_sysclk {r : Regs} (hsrc : pllInput ≠ .pll)
    (hok : (halClockInitHz b pllInput targetHz r).status = .ok) :
    ∀ r' ∈ (halClockInitHz b pllInput targetHz r).running,
      stm32ClockGetSysclk b r' = targetHz.toNat := by
  rcases solvePll_spec .f4 b pllInput targetHz .zero with
    ⟨-, hres⟩ | ⟨-, pll, hres, hsolution, -, -⟩
  · rw [halClockInitHz, hres] at hok
    cases hok
  · have hinit : halClockInitHz b pllInput targetHz r = stm32ClockInit b (solvedConfig pll) r := by
      rw [halClockInitHz, hres]
      rfl
    rw [hinit] at hok ⊢
    intro r' hr'
    rw [((stm32ClockInit_ok hok).tree r' hr').getSysclk]
    exact hsolution.heldSysclkHz hsrc

theorem F7.halClockInitHz_sysclk {r : F7.Regs} (hsrc : pllInput ≠ .pll)
    (hok : (F7.halClockInitHz b pllInput targetHz r).status = .ok) :
    ∀ r' ∈ (F7.halClockInitHz b pllInput targetHz r).running,
      stm32ClockGetSysclk b r'.rcc = targetHz.toNat := by
  rcases solvePll_spec .f7 b pllInput targetHz .zero with
    ⟨-, hres⟩ | ⟨-, pll, hres, hsolution, -, -⟩
  · rw [F7.halClockInitHz, hres] at hok
    cases hok
  · have hinit : F7.halClockInitHz b pllInput targetHz r =
        F7.stm32ClockInit b (solvedConfig pll) r := by
      rw [F7.halClockInitHz, hres]
      rfl
    rw [hinit] at hok ⊢
    intro r' hr'
    obtain ⟨bits, hspec⟩ := F7.stm32ClockInit_ok hok
    have hprog := hspec.tree r' hr'
    rw [getSysclk_of_tree hprog.sws hprog.pllcfgr]
    exact hsolution.heldSysclkHz hsrc

/-- **A set-up by frequency that succeeds runs at the frequency**, from the switch on, and so the
getter says. -/
theorem init_hz_runs_at_target (b : Board) (targetHz : UInt32) (hsrc : pllInput ≠ .pll) :
    (∀ r, (halClockInitHz b pllInput targetHz r).status = .ok →
        ∀ r' ∈ (halClockInitHz b pllInput targetHz r).running,
          stm32ClockGetSysclk b r' = targetHz.toNat) ∧
      ∀ r, (F7.halClockInitHz b pllInput targetHz r).status = .ok →
        ∀ r' ∈ (F7.halClockInitHz b pllInput targetHz r).running,
          stm32ClockGetSysclk b r'.rcc = targetHz.toNat :=
  ⟨fun _ hok => halClockInitHz_sysclk hsrc hok, fun _ hok => F7.halClockInitHz_sysclk hsrc hok⟩

theorem init_hz_84MHz : (halClockInitHz f401Board .hse 84000000 .atReset).status = .ok ∧
    ∀ r' ∈ (halClockInitHz f401Board .hse 84000000 .atReset).running,
      stm32ClockGetSysclk f401Board r' = 84000000 := by
  have hok : (halClockInitHz f401Board .hse 84000000 .atReset).status = .ok := by decide
  exact ⟨hok, (init_hz_runs_at_target f401Board 84000000 (by decide)).1 .atReset hok⟩

end

end NavHAL.Clock
