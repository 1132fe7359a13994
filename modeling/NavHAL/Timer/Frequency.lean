import NavHAL.Lib.Steps
import NavHAL.Status

/-!
# The frequency of a timer (`hal_timer.c`, `timer.c`)

`hal_timer_init_freq` splits the ticks of a period into a prescaler and a reload, and
`hal_timer_get_frequency` divides them out again.  The split is exact but for the
remainder (`timebase_split`); a reload of `0xFFFFFFFF` makes the divisor of the second
wrap to 0 (`always_right_iff`).
-/

namespace NavHAL.Timer

open Steps

/-! ## Timers and their registers -/

/-- `hal_timer_t` -/
inductive Tim
  | tim0 | tim1 | tim2 | tim3 | tim4 | tim5 | tim6 | tim7 | tim8 | tim9 | tim10 | tim11 | tim12
  deriving DecidableEq, Repr

/-- `GET_TIMx_BASE(timer) != NULL` -/
def Tim.hasBase : Tim → Bool
  | .tim1 | .tim2 | .tim3 | .tim4 | .tim5 | .tim9 | .tim10 | .tim11 => true
  | .tim0 | .tim6 | .tim7 | .tim8 | .tim12 => false

/-- `timer == TIM2 || timer == TIM5` -/
def Tim.wide (timer : Tim) : Bool := timer == .tim2 || timer == .tim5

/-- The registers of a timer; PSC has 16 bits on all of them. -/
structure TimRegs where
  /-- its bit of `RCC_APBxENR` -/
  clockOn : Bool := false
  /-- `TIMx_CR1_CEN` -/
  cen : Bool := false
  cnt : UInt32 := 0
  psc : UInt16 := 0
  arr : UInt32 := 0

abbrev Bank := Tim → TimRegs

def Bank.set (bank : Bank) (timer : Tim) (regs : TimRegs) : Bank :=
  fun t => if t = timer then regs else bank t

structure TimerConfig where
  prescaler : UInt32
  autoReload : UInt32
  deriving DecidableEq, Repr

/-- ARR of the 16-bit counters keeps and reads half a word. -/
def arrHeld (timer : Tim) (autoReload : UInt32) : UInt32 :=
  if timer.wide then autoReload else autoReload.toUInt16.toUInt32

/-! ## The driver -/

/-- `stm32_timer_init`; the update event that it generates reloads what counts. -/
def stm32TimerInit (timer : Tim) (cfg : TimerConfig) (bank : Bank) : HalStatus × Bank :=
  if timer.hasBase = false then (.errInvalidArg, bank)
  else
    (.ok, bank.set timer
      { clockOn := true
        cen := true
        cnt := 0
        psc := cfg.prescaler.toUInt16
        arr := arrHeld timer cfg.autoReload })

/-- The pair that the search holds as its best, with what it leaves over. -/
structure Best where
  psc : UInt32
  arr : UInt32
  error : UInt64

def Best.of (totalTicks : UInt64) (pp : UInt32) : Best where
  psc := pp
  arr := (totalTicks / (pp + 1).toUInt64).toUInt32 - 1
  error := totalTicks % (pp + 1).toUInt64

/-- The loop from `pp` on; it makes at most ten rounds. -/
def searchPsc (totalTicks : UInt64) (limit : UInt32) : Nat → UInt32 → Best → Best
  | 0, _, best => best
  | n + 1, pp, best =>
    if pp < limit ∧ pp ≤ 0xFFFF then
      let error := totalTicks % (pp + 1).toUInt64
      let best := if error < best.error then Best.of totalTicks pp else best
      if error = 0 then best else searchPsc totalTicks limit n (pp + 1) best
    else best

/-- What `stm32_timer_set_timebase` makes of the ticks. -/
def timebase (timer : Tim) (totalTicks : UInt64) : TimerConfig :=
  let totalTicks := if totalTicks = 0 then 1 else totalTicks
  if timer.wide then
    if 0xFFFFFFFF < totalTicks then
      let psc := (totalTicks / 0xFFFFFFFF).toUInt32
      { prescaler := psc
        autoReload := (totalTicks / (psc + 1).toUInt64).toUInt32 - 1 }
    else { prescaler := 0, autoReload := totalTicks.toUInt32 - 1 }
  else if 0x10000 < totalTicks then
    let minPsc := (totalTicks / 0x10000).toUInt32
    let best := searchPsc totalTicks (minPsc + 10) 10 minPsc (Best.of totalTicks minPsc)
    { prescaler := best.psc, autoReload := best.arr }
  else { prescaler := 0, autoReload := totalTicks.toUInt32 - 1 }

/-- `stm32_timer_set_timebase` -/
def stm32TimerSetTimebase (timer : Tim) (totalTicks : UInt64) (bank : Bank) : HalStatus × Bank :=
  stm32TimerInit timer (timebase timer totalTicks) bank

/-- `stm32_timer_get_divider` -/
def stm32TimerGetDivider (timer : Tim) (bank : Bank) : UInt32 :=
  if timer.hasBase = false then 0 else (bank timer).psc.toUInt32 + 1

/-- `stm32_timer_get_auto_reload` -/
def stm32TimerGetAutoReload (timer : Tim) (bank : Bank) : UInt32 :=
  if timer.hasBase = false then 0 else arrHeld timer (bank timer).arr

/-- `stm32_timer_set_divider` -/
def stm32TimerSetDivider (timer : Tim) (divider : UInt32) (bank : Bank) : HalStatus × Bank :=
  if timer.hasBase = false ∨ divider = 0 ∨ 0x10000 < divider then (.errInvalidArg, bank)
  else (.ok, bank.set timer { bank timer with psc := (divider - 1).toUInt16 })

/-- `stm32_timer_set_prescaler` -/
def stm32TimerSetPrescaler (timer : Tim) (prescaler : UInt32) (bank : Bank) : HalStatus × Bank :=
  if timer.hasBase = false then (.errInvalidArg, bank)
  else (.ok, bank.set timer { bank timer with psc := prescaler.toUInt16 })

/-- `stm32_timer_set_auto_reload`, which leaves the counter running. -/
def stm32TimerSetAutoReload (timer : Tim) (autoReload : UInt32) (bank : Bank) :
    HalStatus × Bank :=
  if timer.hasBase = false then (.errInvalidArg, bank)
  else
    (.ok, bank.set timer { bank timer with cen := true, arr := arrHeld timer autoReload })

/-! ## The shared layer -/

/-- `hal_timer_init`; `none` is the null pointer. -/
def halTimerInit (timer : Tim) (cfg : Option TimerConfig) (bank : Bank) : HalStatus × Bank :=
  match cfg with
  | none => (.errInvalidArg, bank)
  | some cfg => stm32TimerInit timer cfg bank

/-- `hal_timer_init_freq` with the input clock of the timer. -/
def halTimerInitFreq (clk : UInt32) (timer : Tim) (freq : UInt32) (bank : Bank) :
    HalStatus × Bank :=
  if freq = 0 then (.errInvalidArg, bank)
  else if clk = 0 then (.err, bank)
  else
    let ticks := clk.toUInt64 / freq.toUInt64
    let ticks := if ticks = 0 then 1 else ticks
    stm32TimerSetTimebase timer ticks bank

/-- A division, `none` where the divisor is 0. -/
def divide (x y : UInt32) : Option UInt32 := if y = 0 then none else some (x / y)

/-- `hal_timer_get_frequency` -/
def halTimerGetFrequency (clk : UInt32) (timer : Tim) (bank : Bank) : Option UInt32 :=
  let divider := stm32TimerGetDivider timer bank
  let reload := stm32TimerGetAutoReload timer bank
  if clk = 0 ∨ divider = 0 then some 0
  else (divide clk divider).bind fun x => divide x (reload + 1)

/-- `hal_timer_set_divider` -/
def halTimerSetDivider (timer : Tim) (divider : UInt32) (bank : Bank) : HalStatus × Bank :=
  if divider = 0 then (.errInvalidArg, bank) else stm32TimerSetDivider timer divider bank

/-- The calls that write the two registers. -/
inductive Call
  | init (timer : Tim) (cfg : Option TimerConfig)
  | initFreq (clk : UInt32) (timer : Tim) (freq : UInt32)
  | setPrescaler (timer : Tim) (prescaler : UInt32)
  | setDivider (timer : Tim) (divider : UInt32)
  | setAutoReload (timer : Tim) (autoReload : UInt32)

def step (bank : Bank) : Call → Bank
  | .init timer cfg => (halTimerInit timer cfg bank).2
  | .initFreq clk timer freq => (halTimerInitFreq clk timer freq bank).2
  | .setPrescaler timer prescaler => (stm32TimerSetPrescaler timer prescaler bank).2
  | .setDivider timer divider => (halTimerSetDivider timer divider bank).2
  | .setAutoReload timer autoReload => (stm32TimerSetAutoReload timer autoReload bank).2

/-! ## Exact frequencies -/

/-- The largest value of the counter. -/
def counterMax (timer : Tim) : Nat := if timer.wide then 0xFFFFFFFF else 0xFFFF

/-- The ticks of a period. -/
def periodTicks (clk freq : Nat) : Nat := max 1 (clk / freq)

/-- Where the search for a 16-bit counter starts. -/
def smallestPsc (ticks : Nat) : Nat := if ticks ≤ 0x10000 then 0 else ticks / 0x10000

/-- The pair makes the ticks up to less than one prescaler period, and on a 16-bit
counter up to the least that ten prescalers leave. -/
structure Split (timer : Tim) (ticks psc arr : Nat) : Prop where
  psc_le : psc ≤ 0xFFFF
  arr_le : arr ≤ counterMax timer
  made_le : (psc + 1) * (arr + 1) ≤ ticks
  left_le : ticks - (psc + 1) * (arr + 1) ≤ psc
  least : timer.wide = false → ∀ p, smallestPsc ticks ≤ p → p < smallestPsc ticks + 10 →
    p ≤ 0xFFFF → ticks - (psc + 1) * (arr + 1) ≤ ticks % (p + 1)

/-- A set-up by frequency programs such a pair as it is, and what is read back is no
lower than asked for. -/
def InitFreqExact (bank : Bank) (timer : Tim) (clk freq : UInt32) : Prop :=
  let res := halTimerInitFreq clk timer freq bank
  let ticks := periodTicks clk.toNat freq.toNat
  res.1 = .ok ∧ Split timer ticks (res.2 timer).psc.toNat (res.2 timer).arr.toNat ∧
    (timebase timer (UInt64.ofNat ticks)).prescaler = (res.2 timer).psc.toUInt32 ∧
    (timebase timer (UInt64.ofNat ticks)).autoReload = (res.2 timer).arr ∧
    ∃ f, halTimerGetFrequency clk timer res.2 = some f ∧ min freq.toNat clk.toNat ≤ f.toNat

/-- No division by zero, whatever the timer and its clock. -/
def Safe (bank : Bank) : Prop := ∀ timer clk, halTimerGetFrequency clk timer bank ≠ none

/-- Every frequency that is asked for in this state is exact, and none divides by zero. -/
structure Right (bank : Bank) : Prop where
  exact : ∀ (timer : Tim) (clk freq : UInt32), timer.hasBase = true → 0 < clk → 0 < freq →
    InitFreqExact bank timer clk freq
  safe : Safe bank

/-- The reload whose increment wraps is not written to a 32-bit counter. -/
def Call.Fine : Call → Prop
  | .init timer (some cfg) => timer.wide = true → cfg.autoReload ≠ 0xFFFFFFFF
  | .setAutoReload timer autoReload => timer.wide = true → autoReload ≠ 0xFFFFFFFF
  | .init _ none | .initFreq .. | .setPrescaler .. | .setDivider .. => True

/-! ## The search -/

section

variable {totalTicks : UInt64} {lo : Nat}

/-- The pair is that of its prescaler, which is one that the search can come to. -/
structure Best.Valid (totalTicks : UInt64) (lo : Nat) (best : Best) : Prop where
  psc_ge : lo ≤ best.psc.toNat
  psc_le : best.psc.toNat ≤ 0xFFFF
  arr : best.arr.toNat + 1 = totalTicks.toNat / (best.psc.toNat + 1)
  error : best.error.toNat = totalTicks.toNat % (best.psc.toNat + 1)

theorem succ_toNat {pp : UInt32} (h : pp.toNat ≤ 0xFFFF) :
    (pp + 1).toUInt64.toNat = pp.toNat + 1 := by
  rw [UInt32.toNat_toUInt64, UInt32.toNat_add]
  exact Nat.mod_eq_of_lt (show pp.toNat + 1 < 4294967296 by omega)

/-- A quotient that is not 0 and fits a word, less one. -/
theorem pred_toNat {quot : UInt64} (hpos : 0 < quot.toNat) (hlt : quot.toNat < 4294967296) :
    (quot.toUInt32 - 1).toNat + 1 = quot.toNat := by
  have hword : quot.toUInt32.toNat = quot.toNat := by
    rw [UInt64.toNat_toUInt32]
    exact Nat.mod_eq_of_lt hlt
  have hone : (1 : UInt32) ≤ quot.toUInt32 := by
    rw [UInt32.le_iff_toNat_le, hword]
    exact hpos
  rw [UInt32.toNat_sub_of_le _ _ hone, hword]
  exact Nat.sub_add_cancel hpos

theorem Best.of_valid {pp : UInt32} (hmany : 0x10000 < totalTicks.toNat)
    (hlt : totalTicks.toNat < 4294967296) (hge : lo ≤ pp.toNat) (hle : pp.toNat ≤ 0xFFFF) :
    (Best.of totalTicks pp).Valid totalTicks lo where
  psc_ge := hge
  psc_le := hle
  arr := by
    have hquot : (totalTicks / (pp + 1).toUInt64).toNat = totalTicks.toNat / (pp.toNat + 1) := by
      rw [UInt64.toNat_div, succ_toNat hle]
    have hpos : 0 < totalTicks.toNat / (pp.toNat + 1) := Nat.div_pos (by omega) (Nat.succ_pos _)
    have hbound : totalTicks.toNat / (pp.toNat + 1) ≤ totalTicks.toNat := Nat.div_le_self _ _
    show ((totalTicks / (pp + 1).toUInt64).toUInt32 - 1).toNat + 1 = _
    rw [pred_toNat (by omega) (by omega), hquot]
    rfl
  error := by
    show (totalTicks % (pp + 1).toUInt64).toNat = _
    rw [UInt64.toNat_mod, succ_toNat hle]
    rfl

/-- From `pp` on, with `n` rounds to go: the best of those seen and of those to come.  By
induction on the rounds; a pair that leaves nothing over ends the search early. -/
theorem searchPsc_spec (hmany : 0x10000 < totalTicks.toNat) (hlt : totalTicks.toNat < 4294967296)
    {limit : UInt32} (hlimit : limit.toNat = lo + 10) (n : Nat) :
    ∀ (pp : UInt32) (best : Best), pp.toNat + n = lo + 10 → lo ≤ pp.toNat →
      best.Valid totalTicks lo →
      (∀ p, lo ≤ p → p < pp.toNat → p ≤ 0xFFFF →
        best.error.toNat ≤ totalTicks.toNat % (p + 1)) →
      (searchPsc totalTicks limit n pp best).Valid totalTicks lo ∧
        ∀ p, lo ≤ p → p < lo + 10 → p ≤ 0xFFFF →
          (searchPsc totalTicks limit n pp best).error.toNat ≤ totalTicks.toNat % (p + 1) := by
  induction n with
  | zero =>
    intro pp best hn hge hvalid hseen
    exact ⟨hvalid, fun p hp hlt hle => hseen p hp (by omega) hle⟩
  | succ n ih =>
    intro pp best hn hge hvalid hseen
    have hcond : pp < limit ∧ pp ≤ 0xFFFF ↔ pp.toNat ≤ 0xFFFF := by
      rw [UInt32.lt_iff_toNat_lt, UInt32.le_iff_toNat_le, hlimit]
      show _ ∧ pp.toNat ≤ 0xFFFF ↔ _
      omega
    rw [searchPsc]
    by_cases hle : pp.toNat ≤ 0xFFFF
    case neg =>
      rw [if_neg (mt hcond.mp hle)]
      exact ⟨hvalid, fun p hp _ hple => hseen p hp (by omega) hple⟩
    rw [if_pos (hcond.mpr hle)]
    dsimp only
    have herror : (totalTicks % (pp + 1).toUInt64).toNat =
        totalTicks.toNat % (pp.toNat + 1) := by rw [UInt64.toNat_mod, succ_toNat hle]
    -- the better of the two so far
    obtain ⟨best', hbest', hvalid', hbetter⟩ : ∃ best', best' =
        (if totalTicks % (pp + 1).toUInt64 < best.error then Best.of totalTicks pp else best) ∧
        best'.Valid totalTicks lo ∧ best'.error.toNat ≤ best.error.toNat ∧
        best'.error.toNat ≤ totalTicks.toNat % (pp.toNat + 1) := by
      refine ⟨_, rfl, ?_⟩
      split
      · have hlt' := UInt64.lt_iff_toNat_lt.mp ‹_›
        exact ⟨Best.of_valid hmany hlt hge hle, Nat.le_of_lt hlt', Nat.le_of_eq herror⟩
      · have hge' := Nat.le_of_not_lt (mt UInt64.lt_iff_toNat_lt.mpr ‹_›)
        exact ⟨hvalid, Nat.le_refl _, herror ▸ hge'⟩
    rw [← hbest']
    have hseen' : ∀ p, lo ≤ p → p < pp.toNat + 1 → p ≤ 0xFFFF →
        best'.error.toNat ≤ totalTicks.toNat % (p + 1) := by
      intro p hp hpp hple
      rcases Nat.lt_succ_iff_lt_or_eq.mp hpp with hearlier | rfl
      · exact Nat.le_trans hbetter.1 (hseen p hp hearlier hple)
      · exact hbetter.2
    split
    · have hzero : best'.error.toNat = 0 := by
        have hnone : totalTicks.toNat % (pp.toNat + 1) = 0 := by
          rw [← herror, ‹totalTicks % (pp + 1).toUInt64 = 0›]
          rfl
        exact Nat.le_zero.mp (hnone ▸ hbetter.2)
      exact ⟨hvalid', fun p _ _ _ => by omega⟩
    · have hnext : (pp + 1).toNat = pp.toNat + 1 := by
        rw [← UInt32.toNat_toUInt64, succ_toNat hle]
      exact ih (pp + 1) best' (by omega) (by omega) hvalid' (by rw [hnext]; exact hseen')

end

/-! ## The split -/

section

variable {timer : Tim} {totalTicks : UInt64}

/-- The remainder of the exact quotient is what is left over. -/
theorem split_of_quotient {ticks psc arr : Nat} (hpsc : psc ≤ 0xFFFF)
    (harr : arr ≤ counterMax timer) (hquot : arr + 1 = ticks / (psc + 1))
    (hleast : timer.wide = false → ∀ p, smallestPsc ticks ≤ p → p < smallestPsc ticks + 10 →
      p ≤ 0xFFFF → ticks % (psc + 1) ≤ ticks % (p + 1)) :
    Split timer ticks psc arr := by
  have hleft : ticks - (psc + 1) * (arr + 1) = ticks % (psc + 1) := by
    have := Nat.div_add_mod ticks (psc + 1)
    rw [hquot]
    omega
  refine ⟨hpsc, harr, ?_, ?_, ?_⟩
  · rw [hquot]
    exact Nat.mul_div_le ticks (psc + 1)
  · rw [hleft]
    exact Nat.le_of_lt_succ (Nat.mod_lt _ (Nat.succ_pos _))
  · rw [hleft]
    exact hleast

/-- Ticks that the counter can take as they are. -/
theorem unprescaled_split (hpos : 0 < totalTicks.toNat) (hlt : totalTicks.toNat < 4294967296)
    (hfew : totalTicks.toNat ≤ counterMax timer + 1) :
    Split timer totalTicks.toNat 0 (totalTicks.toUInt32 - 1).toNat := by
  have hpred := pred_toNat hpos hlt
  refine split_of_quotient (Nat.zero_le _) (by omega) (by omega) ?_
  intro _ p _ _ _
  omega

/-- More ticks than a 16-bit counter can take. -/
theorem searched_split (hnarrow : timer.wide = false) (hmany : 0x10000 < totalTicks.toNat)
    (hlt : totalTicks.toNat < 4294967296) {minPsc : UInt32}
    (hmin : minPsc.toNat = totalTicks.toNat / 0x10000) :
    let best := searchPsc totalTicks (minPsc + 10) 10 minPsc (Best.of totalTicks minPsc)
    Split timer totalTicks.toNat best.psc.toNat best.arr.toNat := by
  have hmax : counterMax timer = 0xFFFF := if_neg (by rw [hnarrow]; decide)
  have hsmallest : smallestPsc totalTicks.toNat = totalTicks.toNat / 0x10000 := if_neg (by omega)
  have hlimit : (minPsc + 10).toNat = totalTicks.toNat / 0x10000 + 10 := by
    rw [UInt32.toNat_add, hmin]
    exact Nat.mod_eq_of_lt (show totalTicks.toNat / 0x10000 + 10 < 4294967296 by omega)
  obtain ⟨hvalid, hleast⟩ := searchPsc_spec hmany hlt hlimit 10 minPsc
    (Best.of totalTicks minPsc) (by omega) (by omega)
    (Best.of_valid hmany hlt (by omega) (by omega)) (fun p hp hpp _ => by omega)
  dsimp only
  generalize searchPsc totalTicks _ 10 _ _ = best at hvalid hleast ⊢
  have hword : totalTicks.toNat / (best.psc.toNat + 1) < 0x10000 :=
    (Nat.div_lt_iff_lt_mul (Nat.succ_pos _)).mpr (by have := hvalid.psc_ge; omega)
  have harr : best.arr.toNat ≤ counterMax timer := by
    have := hvalid.arr
    omega
  refine split_of_quotient hvalid.psc_le harr hvalid.arr ?_
  rw [hsmallest, ← hvalid.error]
  exact fun _ => hleast

/-- The pair for the ticks that 32 bits can count, before it is written. -/
theorem timebase_split (timer : Tim) (hpos : 0 < totalTicks.toNat)
    (hlt : totalTicks.toNat < 4294967296) :
    Split timer totalTicks.toNat (timebase timer totalTicks).prescaler.toNat
      (timebase timer totalTicks).autoReload.toNat := by
  have hne : totalTicks ≠ 0 := by
    rintro rfl
    exact absurd hpos (by decide)
  rw [timebase, if_neg hne]
  dsimp only
  cases hwide : timer.wide with
  | true =>
    have hmax : counterMax timer = 0xFFFFFFFF := if_pos hwide
    have hfew : ¬ (0xFFFFFFFF : UInt64) < totalTicks := by
      rw [UInt64.lt_iff_toNat_lt]
      show ¬ 0xFFFFFFFF < _
      omega
    rw [if_pos rfl, if_neg hfew]
    exact unprescaled_split hpos hlt (by omega)
  | false =>
    have hmax : counterMax timer = 0xFFFF := if_neg (by rw [hwide]; decide)
    have hmany : (0x10000 : UInt64) < totalTicks ↔ 0x10000 < totalTicks.toNat :=
      UInt64.lt_iff_toNat_lt
    rw [if_neg (by decide)]
    by_cases hsearch : 0x10000 < totalTicks.toNat
    · rw [if_pos (hmany.mpr hsearch)]
      refine searched_split hwide hsearch hlt ?_
      rw [UInt64.toNat_toUInt32, UInt64.toNat_div]
      exact Nat.mod_eq_of_lt (show totalTicks.toNat / 0x10000 < 4294967296 by omega)
    · rw [if_neg (mt hmany.mp hsearch)]
      exact unprescaled_split hpos hlt (by omega)

end

/-! ## Reading the frequency back -/

section

variable {timer : Tim} {clk : UInt32} {bank : Bank}

theorem divider_toNat (psc : UInt16) : (psc.toUInt32 + 1).toNat = psc.toNat + 1 := by
  have := psc.toNat_lt
  rw [UInt32.toNat_add, UInt16.toNat_toUInt32]
  exact Nat.mod_eq_of_lt (show psc.toNat + 1 < 4294967296 by omega)

theorem divider_ne_zero (psc : UInt16) : psc.toUInt32 + 1 ≠ 0 := by
  rw [Ne, ← UInt32.toNat_inj, divider_toNat]
  exact Nat.succ_ne_zero _

theorem succ_eq_zero_iff (reload : UInt32) : reload + 1 = 0 ↔ reload = 0xFFFFFFFF := by
  have := reload.toNat_lt
  rw [← UInt32.toNat_inj, ← UInt32.toNat_inj, UInt32.toNat_add]
  show (reload.toNat + 1) % 4294967296 = 0 ↔ reload.toNat = 4294967295
  omega

theorem divide_of_ne {x y : UInt32} (h : y ≠ 0) : divide x y = some (x / y) := if_neg h

theorem getFrequency_of_base (hclk : clk ≠ 0) (hbase : timer.hasBase = true) :
    halTimerGetFrequency clk timer bank =
      divide (clk / ((bank timer).psc.toUInt32 + 1)) (arrHeld timer (bank timer).arr + 1) := by
  have hmissing : ¬ timer.hasBase = false := by simp [hbase]
  have hne := divider_ne_zero (bank timer).psc
  rw [halTimerGetFrequency, stm32TimerGetDivider, stm32TimerGetAutoReload, if_neg hmissing,
    if_neg hmissing]
  rw [if_neg (not_or.mpr ⟨hclk, hne⟩), divide_of_ne hne]
  rfl

/-- The divisor 0 can only be the wrapped reload. -/
theorem getFrequency_eq_none_iff :
    halTimerGetFrequency clk timer bank = none ↔
      clk ≠ 0 ∧ timer.hasBase = true ∧ arrHeld timer (bank timer).arr = 0xFFFFFFFF := by
  by_cases hclk : clk = 0
  · simp [halTimerGetFrequency, hclk]
  cases hbase : timer.hasBase with
  | false => simp [halTimerGetFrequency, stm32TimerGetDivider, hbase]
  | true =>
    rw [getFrequency_of_base hclk hbase, divide, ← succ_eq_zero_iff]
    split
    · simp [*]
    · simp [*]

theorem getFrequency_eq_some (hclk : clk ≠ 0) (hbase : timer.hasBase = true)
    (hreload : arrHeld timer (bank timer).arr ≠ 0xFFFFFFFF) :
    halTimerGetFrequency clk timer bank =
      some (clk / ((bank timer).psc.toUInt32 + 1) / (arrHeld timer (bank timer).arr + 1)) := by
  rw [getFrequency_of_base hclk hbase]
  exact divide_of_ne (mt (succ_eq_zero_iff _).mp hreload)

/-- Half a word is what ARR of a 16-bit counter can hold. -/
theorem arrHeld_of_le {arr : UInt32} (h : arr.toNat ≤ counterMax timer) :
    arrHeld timer arr = arr := by
  unfold arrHeld counterMax at *
  split
  · rfl
  · rw [if_neg ‹_›] at h
    apply UInt32.toNat_inj.mp
    rw [UInt16.toNat_toUInt32, UInt32.toNat_toUInt16]
    exact Nat.mod_eq_of_lt (show arr.toNat < 65536 by omega)

theorem arrHeld_eq_max_iff {arr : UInt32} :
    arrHeld timer arr = 0xFFFFFFFF ↔ timer.wide = true ∧ arr = 0xFFFFFFFF := by
  unfold arrHeld
  split
  · simp [*]
  · have hlt := arr.toUInt16.toNat_lt
    rw [← UInt32.toNat_inj, UInt16.toNat_toUInt32]
    show arr.toUInt16.toNat = 4294967295 ↔ _
    refine iff_of_false ?_ (fun h => absurd h.1 ‹_›)
    have : arr.toUInt16.toNat < 65536 := hlt
    omega

theorem safe_iff : Safe bank ↔ ∀ timer, timer.wide = true → (bank timer).arr ≠ 0xFFFFFFFF := by
  have hbase : ∀ timer : Tim, timer.wide = true → timer.hasBase = true := by
    rintro (_ | _) <;> decide
  constructor
  · intro h timer hwide harr
    exact h timer 1 (getFrequency_eq_none_iff.mpr
      ⟨by decide, hbase timer hwide, arrHeld_eq_max_iff.mpr ⟨hwide, harr⟩⟩)
  · intro h timer clk hnone
    obtain ⟨hwide, harr⟩ := arrHeld_eq_max_iff.mp (getFrequency_eq_none_iff.mp hnone).2.2
    exact h timer hwide harr

/-! ## Setting a frequency -/

theorem ticks_toNat (clk freq : UInt32) :
    (if clk.toUInt64 / freq.toUInt64 = 0 then 1 else clk.toUInt64 / freq.toUInt64).toNat =
      periodTicks clk.toNat freq.toNat := by
  have hquot : (clk.toUInt64 / freq.toUInt64).toNat = clk.toNat / freq.toNat := by
    rw [UInt64.toNat_div, UInt32.toNat_toUInt64, UInt32.toNat_toUInt64]
  unfold periodTicks
  by_cases hzero : clk.toUInt64 / freq.toUInt64 = 0
  · rw [if_pos hzero, ← hquot, hzero]
    rfl
  · have hpos : 0 < clk.toNat / freq.toNat := by
      rw [← hquot]
      exact Nat.pos_of_ne_zero (fun h => hzero (UInt64.toNat_inj.mp h))
    rw [if_neg hzero, hquot]
    omega

theorem periodTicks_pos {clk freq : Nat} : 0 < periodTicks clk freq := Nat.le_max_left _ _

theorem periodTicks_lt {clk freq : UInt32} :
    periodTicks clk.toNat freq.toNat < 4294967296 := by
  have := Nat.div_le_self clk.toNat freq.toNat
  have := clk.toNat_lt
  unfold periodTicks
  omega

/-- The frequency that a pair gives is no lower than the one of its ticks. -/
theorem min_le_quotient {clk freq psc arr : Nat}
    (hmade : (psc + 1) * (arr + 1) ≤ periodTicks clk freq) :
    min freq clk ≤ clk / (psc + 1) / (arr + 1) := by
  have hpos : 0 < (psc + 1) * (arr + 1) := Nat.mul_pos (Nat.succ_pos _) (Nat.succ_pos _)
  have hfast : min freq clk ≤ clk / periodTicks clk freq := by
    unfold periodTicks
    rcases Nat.eq_zero_or_pos (clk / freq) with hzero | hsome
    · rw [hzero]
      show min freq clk ≤ clk / 1
      omega
    · rw [Nat.max_eq_right hsome]
      have hle : freq ≤ clk / (clk / freq) :=
        (Nat.le_div_iff_mul_le hsome).mpr (Nat.mul_div_le clk freq)
      omega
  rw [Nat.div_div_eq_div_mul]
  exact Nat.le_trans hfast (Nat.div_le_div_left hmade hpos)

/-- What a set-up by frequency writes. -/
theorem initFreq_eq (bank : Bank) {freq : UInt32} (hbase : timer.hasBase = true) (hclk : clk ≠ 0)
    (hfreq : freq ≠ 0) :
    ∃ regs, halTimerInitFreq clk timer freq bank = (.ok, bank.set timer regs) ∧
      Split timer (periodTicks clk.toNat freq.toNat) regs.psc.toNat regs.arr.toNat ∧
      (timebase timer (UInt64.ofNat (periodTicks clk.toNat freq.toNat))).prescaler =
        regs.psc.toUInt32 ∧
      (timebase timer (UInt64.ofNat (periodTicks clk.toNat freq.toNat))).autoReload = regs.arr := by
  have hticks := ticks_toNat clk freq
  have hlt : periodTicks clk.toNat freq.toNat < 4294967296 := periodTicks_lt
  obtain ⟨ticks, hdef⟩ : ∃ ticks, ticks =
      if clk.toUInt64 / freq.toUInt64 = 0 then 1 else clk.toUInt64 / freq.toUInt64 := ⟨_, rfl⟩
  rw [← hdef] at hticks
  have hof : UInt64.ofNat (periodTicks clk.toNat freq.toNat) = ticks := by
    rw [← hticks, UInt64.ofNat_toNat]
  have hsplit := timebase_split timer (hticks ▸ periodTicks_pos) (hticks ▸ hlt)
  rw [hticks] at hsplit
  have hpsc : (timebase timer ticks).prescaler.toUInt16.toNat =
      (timebase timer ticks).prescaler.toNat := by
    rw [UInt32.toNat_toUInt16]
    have := hsplit.psc_le
    omega
  have hcall : halTimerInitFreq clk timer freq bank =
      stm32TimerInit timer (timebase timer ticks) bank := by
    rw [halTimerInitFreq, if_neg hfreq, if_neg hclk, hdef]
    rfl
  rw [hcall, stm32TimerInit, if_neg (by rw [hbase]; decide), hof, arrHeld_of_le hsplit.arr_le]
  refine ⟨_, rfl, ?_, ?_, rfl⟩
  · show Split timer _ (timebase timer ticks).prescaler.toUInt16.toNat _
    rw [hpsc]
    exact hsplit
  · apply UInt32.toNat_inj.mp
    rw [UInt16.toNat_toUInt32, hpsc]

/-- No pair for ticks of 32 bits has the reload that wraps. -/
theorem Split.arr_succ_lt {clk freq : UInt32} {psc arr : Nat}
    (h : Split timer (periodTicks clk.toNat freq.toNat) psc arr) : arr + 1 < 4294967296 := by
  have hlt : periodTicks clk.toNat freq.toNat < 4294967296 := periodTicks_lt
  have hle := Nat.le_trans (Nat.le_mul_of_pos_left (arr + 1) (Nat.succ_pos psc)) h.made_le
  omega

/-- A set-up by frequency is exact in every state. -/
theorem initFreq_exact (bank : Bank) {freq : UInt32} (hbase : timer.hasBase = true)
    (hclk : 0 < clk) (hfreq : 0 < freq) : InitFreqExact bank timer clk freq := by
  have hclk0 : clk ≠ 0 := by
    rintro rfl
    exact absurd hclk (by decide)
  have hfreq0 : freq ≠ 0 := by
    rintro rfl
    exact absurd hfreq (by decide)
  obtain ⟨regs, hres, hsplit, hpsc, harr⟩ := initFreq_eq bank hbase hclk0 hfreq0
  have hregs : (halTimerInitFreq clk timer freq bank).2 timer = regs := by
    rw [hres]
    exact if_pos rfl
  have hheld := arrHeld_of_le hsplit.arr_le
  have hsucc : (regs.arr + 1).toNat = regs.arr.toNat + 1 := by
    rw [UInt32.toNat_add]
    exact Nat.mod_eq_of_lt hsplit.arr_succ_lt
  have hreload : arrHeld timer ((halTimerInitFreq clk timer freq bank).2 timer).arr ≠
      0xFFFFFFFF := by
    rw [hregs, hheld, Ne, ← succ_eq_zero_iff, ← UInt32.toNat_inj, hsucc]
    exact Nat.succ_ne_zero _
  refine ⟨by rw [hres], ?_, ?_, ?_, _, getFrequency_eq_some hclk0 hbase hreload, ?_⟩
  · rw [hregs]
    exact hsplit
  · rw [hregs]
    exact hpsc
  · rw [hregs]
    exact harr
  · rw [hregs, UInt32.toNat_div, UInt32.toNat_div, divider_toNat, hheld, hsucc]
    exact min_le_quotient hsplit.made_le

theorem right_iff_safe : Right bank ↔ Safe bank :=
  ⟨Right.safe, fun h => ⟨fun _ _ _ hbase hclk hfreq => initFreq_exact bank hbase hclk hfreq, h⟩⟩

end

/-! ## Runs -/

section

variable {bank : Bank} {timer : Tim}

theorem Tim.hasBase_of_wide (h : timer.wide = true) : timer.hasBase = true := by
  revert h
  cases timer <;> decide

/-- Only the reload that is written matters. -/
theorem set_safe_iff (h : Safe bank) (regs : TimRegs) :
    Safe (bank.set timer regs) ↔ (timer.wide = true → regs.arr ≠ 0xFFFFFFFF) := by
  rw [safe_iff] at h ⊢
  constructor
  · intro hset hwide
    have hreload := hset timer hwide
    rwa [Bank.set, if_pos rfl] at hreload
  · intro hreload t hwide
    unfold Bank.set
    split
    · exact hreload (‹t = timer› ▸ hwide)
    · exact h t hwide

theorem set_safe (h : Safe bank) {regs : TimRegs} (harr : regs.arr = (bank timer).arr) :
    Safe (bank.set timer regs) := by
  rw [set_safe_iff h, harr]
  exact safe_iff.mp h timer

/-- The two calls that write a reload given to them. -/
theorem written_safe_iff (h : Safe bank) {autoReload : UInt32} {regs : TimRegs}
    (harr : regs.arr = arrHeld timer autoReload) :
    Safe (if timer.hasBase = false then (HalStatus.errInvalidArg, bank)
        else (.ok, bank.set timer regs)).2 ↔
      (timer.wide = true → autoReload ≠ 0xFFFFFFFF) := by
  by_cases hmissing : timer.hasBase = false
  · rw [if_pos hmissing]
    refine iff_of_true h ?_
    intro hwide
    rw [Tim.hasBase_of_wide hwide] at hmissing
    cases hmissing
  · rw [if_neg hmissing, set_safe_iff h, harr]
    refine forall_congr' ?_
    intro hwide
    rw [arrHeld, if_pos hwide]

/-- A set-up by frequency writes none, whatever is asked for. -/
theorem initFreq_safe (h : Safe bank) (clk : UInt32) (timer : Tim) (freq : UInt32) :
    Safe (halTimerInitFreq clk timer freq bank).2 := by
  by_cases hfreq : freq = 0
  · rw [halTimerInitFreq, if_pos hfreq]
    exact h
  by_cases hclk : clk = 0
  · rw [halTimerInitFreq, if_neg hfreq, if_pos hclk]
    exact h
  cases hbase : timer.hasBase with
  | false =>
    simp only [halTimerInitFreq, if_neg hfreq, if_neg hclk, stm32TimerSetTimebase,
      stm32TimerInit, if_pos hbase]
    exact h
  | true =>
    obtain ⟨regs, hres, hsplit, -, -⟩ := initFreq_eq bank hbase hclk hfreq
    rw [hres, set_safe_iff h]
    intro _ hmax
    have := hsplit.arr_succ_lt
    rw [hmax] at this
    exact absurd this (by decide)

/-- One call keeps the divisions safe exactly when it is fine. -/
theorem step_safe_iff (h : Safe bank) (call : Call) : Safe (step bank call) ↔ call.Fine := by
  cases call with
  | init timer cfg =>
    cases cfg with
    | none => exact iff_of_true h trivial
    | some cfg => exact written_safe_iff h rfl
  | initFreq clk timer freq => exact iff_of_true (initFreq_safe h clk timer freq) trivial
  | setPrescaler timer prescaler =>
    refine iff_of_true ?_ trivial
    simp only [step, stm32TimerSetPrescaler]
    split
    · exact h
    · exact set_safe h rfl
  | setDivider timer divider =>
    refine iff_of_true ?_ trivial
    simp only [step, halTimerSetDivider, stm32TimerSetDivider]
    split
    · exact h
    split
    · exact h
    · exact set_safe h rfl
  | setAutoReload timer autoReload => exact written_safe_iff h rfl

/-- A run is safe all along exactly when its calls are fine. -/
theorem always_safe_iff (h : Safe bank) (calls : List Call) :
    Always step Safe bank calls ↔ ∀ call ∈ calls, call.Fine := by
  have hstep : ∀ (s : Bank) (call : Call), Safe s → (Safe (step s call) ↔ call.Fine) := by
    intro s call hs
    exact step_safe_iff hs call
  have hsteps := @always_iff_each Bank Call step Safe (fun _ call => call.Fine) hstep bank calls h
  rw [hsteps]
  exact @each_iff_forall Bank Call step (fun _ call => call.Fine) Call.Fine (fun _ _ => Iff.rfl)
    bank calls

/-- Over any run every state is right exactly if no 32-bit counter has the reload
`0xFFFFFFFF` at the start and no call writes it to one. -/
theorem always_right_iff (bank : Bank) (calls : List Call) :
    Always step Right bank calls ↔
      (∀ timer, timer.wide = true → (bank timer).arr ≠ 0xFFFFFFFF) ∧
        ∀ call ∈ calls, call.Fine := by
  rw [← safe_iff]
  constructor
  · intro h
    have hsafe := h.head.safe
    exact ⟨hsafe, (always_safe_iff hsafe calls).mp (h.mono (fun _ => Right.safe))⟩
  · rintro ⟨hsafe, hfine⟩
    exact ((always_safe_iff hsafe calls).mpr hfine).mono (fun _ => right_iff_safe.mpr)

end

/-- TIM2 with the longest period there is. -/
theorem longest_period_divides_by_zero :
    ¬ Always step Right (fun _ => {}) [.init .tim2 (some ⟨0, 0xFFFFFFFF⟩)] := by
  intro hrun
  have hsafe : Safe (step (fun _ => {}) (.init .tim2 (some ⟨0, 0xFFFFFFFF⟩))) := hrun.2.safe
  exact safe_iff.mp hsafe .tim2 rfl rfl

end NavHAL.Timer
