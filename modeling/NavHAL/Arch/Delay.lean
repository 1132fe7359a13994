import NavHAL.Arch.TickPeriod
import NavHAL.Lib.BusyWait

/-!
# The busy-wait delays (`timebase.c`, `dwt.c`)

`hal_delay_us` and `hal_delay_ms` on SysTick and on the time stamp counter of the PC, and
`hal_cycle_counter_delay_us`.  Each loop polls its counter at instants of its own; an
instant is a number of counts since the delay was entered.  A delay is long enough
exactly where nothing is lost to a tick that had begun, to a division or to a product
(`neverShort_iff`).
-/

namespace NavHAL.Arch

open BusyWait

/-! ## SysTick -/

/-- `armv7em_timebase_delay_us` entered at the instant `start`; `tbAt` is the timebase at
each instant. -/
def armv7emTimebaseDelayUs (tbAt : Nat → Timebase) (start : Nat) (us : UInt32)
    (polls : List Nat) : Option Nat :=
  let ticksNeeded := us / (tbAt start).tickDurationUs
  let ticksNeeded := if ticksNeeded = 0 then 1 else ticksNeeded
  polls.find? fun d =>
    !decide ((tbAt (start + d)).systickTicks - (tbAt start).systickTicks < ticksNeeded)

/-- `armv7em_timebase_delay_ms` -/
def armv7emTimebaseDelayMs (tbAt : Nat → Timebase) (start : Nat) (ms : UInt32)
    (polls : List Nat) : Option Nat :=
  armv7emTimebaseDelayUs tbAt start (ms * 1000) polls

/-! ## The cycle counter -/

/-- `DWT->CYCCNT` at an instant, and `_cycles_per_us`. -/
structure CycleCounter where
  cyccnt : UInt32 := 0
  cyclesPerUs : UInt32 := 0

/-- `hal_cycle_counter_init`, with SYSCLK. -/
def halCycleCounterInit (hz : UInt32) : CycleCounter :=
  let perUs := hz / 1000000
  { cyccnt := 0, cyclesPerUs := if perUs = 0 then 1 else perUs }

/-- The counter, some cycles on. -/
def CycleCounter.after (c : CycleCounter) (cycles : Nat) : CycleCounter :=
  { c with cyccnt := c.cyccnt + UInt32.ofNat cycles }

/-- `hal_cycle_counter_delay` -/
def halCycleCounterDelay (c : CycleCounter) (cycles : UInt32) (polls : List Nat) : Option Nat :=
  polls.find? fun d => !decide ((c.after d).cyccnt - c.cyccnt < cycles)

/-- `hal_cycle_counter_delay_us` -/
def halCycleCounterDelayUs (c : CycleCounter) (us : UInt32) (polls : List Nat) : Option Nat :=
  halCycleCounterDelay c (us * c.cyclesPerUs) polls

/-! ## The PC -/

/-- The wait of both delays, from a value of the time stamp counter. -/
def pcDelay (tsc target : UInt64) (polls : List Nat) : Option Nat :=
  polls.find? fun d => !decide (tsc + UInt64.ofNat d - tsc < target)

/-- `pc_timebase_delay_us` -/
def pcTimebaseDelayUs (tb : PcTimebase) (tsc : UInt64) (us : UInt32) (polls : List Nat) :
    Option Nat :=
  pcDelay tsc (us.toUInt64 * tb.gCycPerUs) polls

/-- `pc_timebase_delay_ms` -/
def pcTimebaseDelayMs (tb : PcTimebase) (tsc : UInt64) (ms : UInt32) (polls : List Nat) :
    Option Nat :=
  pcDelay tsc (ms.toUInt64 * tb.gCycPerMs) polls

/-! ## Never short -/

/-- A tick that `hal_timebase_init` accepts. -/
abbrev TickUs := { tickUs : UInt32 // tickUs ≠ 0 }

/-- A delay, with what its timebase was set up with and where its counter stands. -/
inductive Delay
  | systickUs (ahbclk : UInt32) (tickUs : TickUs) (tb : Timebase) (start : Nat) (us : UInt32)
  | systickMs (ahbclk : UInt32) (tickUs : TickUs) (tb : Timebase) (start : Nat) (ms : UInt32)
  | cycleUs (sysclk cycles : UInt32) (us : UInt32)
  | pcUs (tscHz tsc0 tsc : UInt64) (tickUs : TickUs) (tb : PcTimebase) (us : UInt32)
  | pcMs (tscHz tsc0 tsc : UInt64) (tickUs : TickUs) (tb : PcTimebase) (ms : UInt32)

namespace Delay

/-- The instant at which it returns, in counts since it was entered. -/
def returnsAt (polls : List Nat) : Delay → Option Nat
  | systickUs ahbclk tickUs tb start us =>
    armv7emTimebaseDelayUs (timebaseAt ahbclk tickUs tb) start us polls
  | systickMs ahbclk tickUs tb start ms =>
    armv7emTimebaseDelayMs (timebaseAt ahbclk tickUs tb) start ms polls
  | cycleUs sysclk cycles us =>
    halCycleCounterDelayUs ((halCycleCounterInit sysclk).after cycles.toNat) us polls
  | pcUs tscHz tsc0 tsc tickUs tb us =>
    pcTimebaseDelayUs (pcTimebaseInit tscHz tsc0 tickUs tb).2 tsc us polls
  | pcMs tscHz tsc0 tsc tickUs tb ms =>
    pcTimebaseDelayMs (pcTimebaseInit tscHz tsc0 tickUs tb).2 tsc ms polls

/-- The counts of a second. -/
def rate : Delay → Nat
  | systickUs ahbclk .. | systickMs ahbclk .. => ahbclk.toNat
  | cycleUs sysclk .. => sysclk.toNat
  | pcUs tscHz .. | pcMs tscHz .. => tscHz.toNat

/-- What was asked for. -/
def amount : Delay → Nat
  | systickUs _ _ _ _ us | cycleUs _ _ us | pcUs _ _ _ _ _ us => us.toNat
  | systickMs _ _ _ _ ms | pcMs _ _ _ _ _ ms => ms.toNat

/-- And how many of it make a second. -/
def perSecond : Delay → Nat
  | systickUs .. | cycleUs .. | pcUs .. => 1000000
  | systickMs .. | pcMs .. => 1000

/-- So many counts last what was asked for. -/
def Lasts (delay : Delay) (counts : Nat) : Prop :=
  delay.amount * delay.rate ≤ counts * delay.perSecond

/-- It does not return sooner, whenever its counter is polled. -/
def NeverShort (delay : Delay) : Prop :=
  ∀ polls counts, delay.returnsAt polls = some counts → delay.Lasts counts

end Delay

/-! ## The condition -/

/-- Where `us` microseconds on SysTick are not cut short.  A tick of less than a cycle is
counted as `2^24` cycles; a reload of 0 never ends a tick; less than a tick must fit in what is
left of the one that has begun; from a tick on, nothing may be lost at all. -/
def SystickKept (ahbclk tickUs start us : Nat) : Prop :=
  let cycles := ahbclk * tickUs / 1000000
  let period := (cycles - 1) % 16777216 + 1
  if cycles = 0 then
    us < tickUs ∨ 2 * tickUs ≤ us ∨ us * ahbclk ≤ 1000000 ∨ start % 16777216 ≠ 16777215
  else if period = 1 then True
  else if us < tickUs then us * ahbclk ≤ (period - start % period) * 1000000
  else ahbclk * tickUs = period * 1000000 ∧ tickUs ∣ us ∧ period ∣ start

/-- Where milliseconds are not although their microseconds do not fit in 32 bits: no tick
ever comes, or ticks of less than a cycle are so much too long that they make up for it. -/
def WrappedKept (ahbclk tickUs start us : Nat) : Prop :=
  let cycles := ahbclk * tickUs / 1000000
  if cycles = 0 then
    us * ahbclk ≤ (max 1 (us % 4294967296 / tickUs) * 16777216 - start % 16777216) * 1000000
  else (cycles - 1) % 16777216 = 0

/-- A whole number of counts makes up the unit, or less than one, and the product fits. -/
def Whole (n rate unit size : Nat) : Prop :=
  n = 0 ∨ rate < unit ∨ unit ∣ rate ∧ n * (rate / unit) < size

/-- Where nothing is lost. -/
def Delay.Kept : Delay → Prop
  | .systickUs ahbclk tickUs _ start us =>
    SystickKept ahbclk.toNat tickUs.1.toNat start us.toNat
  | .systickMs ahbclk tickUs _ start ms =>
    if ms.toNat * 1000 < 4294967296 then
      SystickKept ahbclk.toNat tickUs.1.toNat start (ms.toNat * 1000)
    else WrappedKept ahbclk.toNat tickUs.1.toNat start (ms.toNat * 1000)
  | .cycleUs sysclk _ us => Whole us.toNat sysclk.toNat 1000000 4294967296
  | .pcUs tscHz _ _ _ _ us => Whole us.toNat tscHz.toNat 1000000 18446744073709551616
  | .pcMs tscHz _ _ _ _ ms => Whole ms.toNat tscHz.toNat 1000 18446744073709551616

/-! ## The loops as waits -/

section

variable {ahbclk : UInt32} {tickUs : TickUs} {tb : Timebase} {start : Nat} {polls : List Nat}

/-- The timebase at an instant of the run. -/
theorem timebaseAt_eq (cycles : Nat) :
    timebaseAt ahbclk tickUs tb cycles =
      { systickTicks := UInt32.ofNat (systickInterrupts (reloadFor ahbclk tickUs) cycles)
        tickDurationUs := tickUs
        tickReloadValue := reloadFor ahbclk tickUs } := by
  rw [timebaseAt, halTimebaseInit, if_neg tickUs.2, armv7emTimebaseInit, if_neg tickUs.2,
    repeat_tick]
  dsimp only
  rw [UInt32.zero_add]

/-- The difference of two readings of a 32-bit counter. -/
theorem sub32_toNat {a b : Nat} (h : b ≤ a) :
    (UInt32.ofNat a - UInt32.ofNat b).toNat = (a - b) % 4294967296 := by
  rw [← UInt32.ofNat_sub h]
  exact UInt32.toNat_ofNat'

theorem not_lt32 (x y : UInt32) : (!decide (x < y)) = decide (y.toNat ≤ x.toNat) := by
  rw [← decide_not, decide_eq_decide, UInt32.lt_iff_toNat_lt, Nat.not_lt]

theorem not_lt64 (x y : UInt64) : (!decide (x < y)) = decide (y.toNat ≤ x.toNat) := by
  rw [← decide_not, decide_eq_decide, UInt64.lt_iff_toNat_lt, Nat.not_lt]

/-- The ticks that the loop waits for. -/
theorem ticksNeeded_toNat (us : UInt32) :
    (if us / tickUs.1 = 0 then 1 else us / tickUs.1 : UInt32).toNat =
      max 1 (us.toNat / tickUs.1.toNat) := by
  have hquot : (us / tickUs.1).toNat = us.toNat / tickUs.1.toNat := UInt32.toNat_div ..
  by_cases hzero : us / tickUs.1 = 0
  · rw [if_pos hzero, ← hquot, hzero]
    rfl
  · have hpos : 0 < (us / tickUs.1).toNat :=
      Nat.pos_of_ne_zero (fun h => hzero (UInt32.toNat_inj.mp h))
    rw [if_neg hzero, ← hquot]
    omega

/-- The interrupts since the delay was entered. -/
def interruptsSince (ahbclk : UInt32) (tickUs : TickUs) (start d : Nat) : Nat :=
  systickInterrupts (reloadFor ahbclk tickUs) (start + d) -
    systickInterrupts (reloadFor ahbclk tickUs) start

theorem delayUs_eq (us : UInt32) :
    armv7emTimebaseDelayUs (timebaseAt ahbclk tickUs tb) start us polls =
      returns (interruptsSince ahbclk tickUs start) 4294967296
        (max 1 (us.toNat / tickUs.1.toNat)) polls := by
  rw [armv7emTimebaseDelayUs, returns]
  refine congrArg (fun p => polls.find? p) (funext fun d => ?_)
  have hle := systickInterrupts_mono (reloadFor ahbclk tickUs) (Nat.le_add_right start d)
  rw [not_lt32]
  simp only [timebaseAt_eq]
  rw [ticksNeeded_toNat, sub32_toNat hle]
  rfl

theorem cycleDelay_eq (c : CycleCounter) (cycles : UInt32) :
    halCycleCounterDelay c cycles polls = returns id 4294967296 cycles.toNat polls := by
  rw [halCycleCounterDelay, returns]
  refine congrArg (fun p => polls.find? p) (funext fun d => ?_)
  have hsince : (c.after d).cyccnt - c.cyccnt = UInt32.ofNat d := by
    rw [CycleCounter.after, UInt32.add_comm, UInt32.add_sub_cancel]
  rw [not_lt32, hsince, UInt32.toNat_ofNat']
  rfl

theorem pcDelay_eq (tsc target : UInt64) :
    pcDelay tsc target polls = returns id 18446744073709551616 target.toNat polls := by
  rw [pcDelay, returns]
  refine congrArg (fun p => polls.find? p) (funext fun d => ?_)
  have hsince : tsc + UInt64.ofNat d - tsc = UInt64.ofNat d := by
    rw [UInt64.add_comm, UInt64.add_sub_cancel]
  rw [not_lt64, hsince, UInt64.toNat_ofNat']
  rfl

/-! ## Each counter -/

/-- SysTick stands still, or at least one tick and as many as the microseconds hold last
long enough, less the part of the first that had passed. -/
theorem delayUs_long_iff (us : UInt32) (amount : Nat) :
    (∀ polls d, armv7emTimebaseDelayUs (timebaseAt ahbclk tickUs tb) start us polls = some d →
        amount * ahbclk.toNat ≤ d * 1000000) ↔
      reloadFor ahbclk tickUs = 0 ∨ amount * ahbclk.toNat ≤
        (max 1 (us.toNat / tickUs.1.toNat) * ((reloadFor ahbclk tickUs).toNat + 1) -
          start % ((reloadFor ahbclk tickUs).toNat + 1)) * 1000000 := by
  simp only [delayUs_eq]
  by_cases hreload : reloadFor ahbclk tickUs = 0
  · refine iff_of_true ?_ (.inl hreload)
    intro polls d hd
    have hstill : ∀ d, interruptsSince ahbclk tickUs start d < max 1 (us.toNat / tickUs.1.toNat) := by
      intro d
      rw [interruptsSince, hreload, systickInterrupts, if_pos rfl]
      exact Nat.lt_of_lt_of_le Nat.zero_lt_one (Nat.le_max_left _ _)
    rw [returns_none hstill] at hd
    cases hd
  · have hperiod : 0 < (reloadFor ahbclk tickUs).toNat + 1 := Nat.succ_pos _
    have hticks : interruptsSince ahbclk tickUs start =
        ticksSince ((reloadFor ahbclk tickUs).toNat + 1) start := by
      funext d
      simp only [interruptsSince, systickInterrupts, if_neg hreload]
      rfl
    have hpos : 0 < max 1 (us.toNat / tickUs.1.toNat) :=
      Nat.lt_of_lt_of_le Nat.zero_lt_one (Nat.le_max_left _ _)
    have hlt : max 1 (us.toNat / tickUs.1.toNat) < 4294967296 := by
      have hquot := Nat.div_le_self us.toNat tickUs.1.toNat
      have hword := us.toNat_lt
      omega
    rw [or_iff_right hreload, hticks]
    exact returns_iff hlt (fun d => le_ticksSince_iff hperiod)
      (ticksSince_earliest hperiod hpos)
      (fun hle h => Nat.le_trans h (Nat.mul_le_mul_right _ hle))

/-! ## SysTick on its arguments -/

theorem tickUs_pos (tickUs : TickUs) : 0 < tickUs.1.toNat :=
  Nat.pos_of_ne_zero fun hzero => tickUs.2 (UInt32.toNat_inj.mp hzero)

theorem reloadFor_ne (h : (reloadFor ahbclk tickUs).toNat ≠ 0) : reloadFor ahbclk tickUs ≠ 0 :=
  fun hzero => h (UInt32.toNat_inj.mpr hzero)

/-- Less than a cycle to a tick: only the last cycle of a round can be too short, and only
for what is waited one tick for. -/
theorem slowTick_iff {clk tick us : Nat} (htick : 0 < tick) (hslow : clk * tick < 1000000) :
    us * clk ≤ (max 1 (us / tick) * 16777216 - start % 16777216) * 1000000 ↔
      us < tick ∨ 2 * tick ≤ us ∨ us * clk ≤ 1000000 ∨ start % 16777216 ≠ 16777215 := by
  have hround := Nat.mod_lt start (by decide : 0 < 16777216)
  have hspent : us * clk ≤ (us / tick + 1) * 1000000 := by
    calc us * clk ≤ (us / tick + 1) * tick * clk :=
          Nat.mul_le_mul_right _ (Nat.le_of_lt (Nat.lt_mul_of_div_lt (Nat.lt_succ_self _) htick))
      _ = (us / tick + 1) * (clk * tick) := by rw [Nat.mul_assoc, Nat.mul_comm tick]
      _ ≤ (us / tick + 1) * 1000000 := Nat.mul_le_mul_left _ (Nat.le_of_lt hslow)
  have hless : us / tick = 0 ↔ us < tick := Nat.div_eq_zero_iff_lt htick
  have hmore : 2 ≤ us / tick ↔ 2 * tick ≤ us := Nat.le_div_iff_mul_le htick
  rw [← hless, ← hmore]
  generalize us / tick = n at hspent ⊢
  omega

/-- What the wait comes to, on the arguments alone. -/
theorem systickKept_iff {us : Nat} :
    reloadFor ahbclk tickUs = 0 ∨ us * ahbclk.toNat ≤
        (max 1 (us / tickUs.1.toNat) * ((reloadFor ahbclk tickUs).toNat + 1) -
          start % ((reloadFor ahbclk tickUs).toNat + 1)) * 1000000 ↔
      SystickKept ahbclk.toNat tickUs.1.toNat start us := by
  have htick := tickUs_pos tickUs
  unfold SystickKept
  dsimp only
  by_cases hslow : ahbclk.toNat * tickUs.1.toNat / 1000000 = 0
  · have hlt : ahbclk.toNat * tickUs.1.toNat < 1000000 := by omega
    have hreload := reloadFor_slow hlt
    rw [if_pos hslow, or_iff_right (reloadFor_ne (by omega)), hreload]
    exact slowTick_iff htick hlt
  · have hreload := reloadFor_toNat (by omega : 1000000 ≤ ahbclk.toNat * tickUs.1.toNat)
    rw [if_neg hslow, ← hreload]
    by_cases hzero : (reloadFor ahbclk tickUs).toNat + 1 = 1
    · rw [if_pos hzero]
      exact iff_of_true (.inl (UInt32.toNat_inj.mp (Nat.succ.inj hzero))) trivial
    · rw [if_neg hzero, or_iff_right (reloadFor_ne (by omega))]
      by_cases hpart : us < tickUs.1.toNat
      · rw [if_pos hpart, Nat.div_eq_of_lt hpart, Nat.max_eq_left (Nat.zero_le 1), Nat.one_mul]
      · have hle := Nat.le_of_not_lt hpart
        have hclk : 0 < ahbclk.toNat := Nat.pos_of_ne_zero fun hstill => by
          rw [hstill, Nat.zero_mul] at hslow
          exact hslow rfl
        rw [if_neg hpart, Nat.max_eq_right (Nat.div_pos hle htick)]
        exact wholeTicks_iff htick hclk (by decide) (Nat.succ_pos _) (by omega) hle

/-- Where the product with 1000 wraps, ticks of at least a cycle are too few. -/
theorem wrappedKept_iff {us : Nat} (hwraps : 4294967296 ≤ us) :
    reloadFor ahbclk tickUs = 0 ∨ us * ahbclk.toNat ≤
        (max 1 (us % 4294967296 / tickUs.1.toNat) * ((reloadFor ahbclk tickUs).toNat + 1) -
          start % ((reloadFor ahbclk tickUs).toNat + 1)) * 1000000 ↔
      WrappedKept ahbclk.toNat tickUs.1.toNat start us := by
  unfold WrappedKept
  dsimp only
  by_cases hslow : ahbclk.toNat * tickUs.1.toNat / 1000000 = 0
  · have hreload := reloadFor_slow (by omega : ahbclk.toNat * tickUs.1.toNat < 1000000)
    rw [if_pos hslow, or_iff_right (reloadFor_ne (by omega)), hreload]
  · have hreload := reloadFor_toNat (by omega : 1000000 ≤ ahbclk.toNat * tickUs.1.toNat)
    rw [if_neg hslow, ← hreload, ← UInt32.toNat_inj]
    apply or_iff_left
    have hclk : 0 < ahbclk.toNat := Nat.pos_of_ne_zero fun hstill => by
      rw [hstill, Nat.zero_mul] at hslow
      exact hslow rfl
    have hfew : max 1 (us % 4294967296 / tickUs.1.toNat) * tickUs.1.toNat < us := by
      have hword := tickUs.1.toNat_lt
      have hfloor := Nat.div_mul_le_self (us % 4294967296) tickUs.1.toNat
      rcases Nat.le_total 1 (us % 4294967296 / tickUs.1.toNat) with hone | hone
      · rw [Nat.max_eq_right hone]
        omega
      · rw [Nat.max_eq_left hone]
        omega
    rw [Nat.not_le]
    calc (max 1 (us % 4294967296 / tickUs.1.toNat) * ((reloadFor ahbclk tickUs).toNat + 1) -
          start % ((reloadFor ahbclk tickUs).toNat + 1)) * 1000000
        ≤ max 1 (us % 4294967296 / tickUs.1.toNat) * ((reloadFor ahbclk tickUs).toNat + 1) *
            1000000 := Nat.mul_le_mul_right _ (Nat.sub_le _ _)
      _ ≤ max 1 (us % 4294967296 / tickUs.1.toNat) * (ahbclk.toNat * tickUs.1.toNat) := by
          rw [Nat.mul_assoc]
          exact Nat.mul_le_mul_left _ (by omega)
      _ = max 1 (us % 4294967296 / tickUs.1.toNat) * tickUs.1.toNat * ahbclk.toNat := by
          rw [Nat.mul_comm ahbclk.toNat, Nat.mul_assoc]
      _ < us * ahbclk.toNat := Nat.mul_lt_mul_of_pos_right hfew hclk

/-! ## The counters of cycles -/

/-- The cycle counters count every instant. -/
theorem counts_iff {target size n rate : Nat} (unit : Nat) (hunit : 0 < unit) (hn : n < size)
    (htarget : target = n * max 1 (rate / unit) % size) :
    (∀ polls d, returns id size target polls = some d → n * rate ≤ d * unit) ↔
      Whole n rate unit size := by
  have hlt : target < size := by
    rw [htarget]
    exact Nat.mod_lt _ (by omega)
  have hfirst : ∀ d, target ≤ id d ↔ target ≤ d := fun _ => Iff.rfl
  have hearliest : (∀ polls d, returns id size target polls = some d → n * rate ≤ d * unit) ↔
      n * rate ≤ target * unit :=
    returns_iff hlt hfirst rfl (fun hle h => Nat.le_trans h (Nat.mul_le_mul_right _ hle))
  rw [hearliest, htarget]
  exact scaled_iff hunit hn

theorem perUs32_toNat (hz : UInt32) :
    (if hz / 1000000 = 0 then 1 else hz / 1000000 : UInt32).toNat =
      max 1 (hz.toNat / 1000000) := by
  have hquot : (hz / 1000000).toNat = hz.toNat / 1000000 := UInt32.toNat_div ..
  split
  · rw [← hquot, ‹hz / 1000000 = 0›]
    rfl
  · have hpos : (hz / 1000000).toNat ≠ 0 := fun h => ‹¬ hz / 1000000 = 0› (UInt32.toNat_inj.mp h)
    omega

theorem clamped_toNat (hz unit : UInt64) :
    (if hz / unit = 0 then 1 else hz / unit : UInt64).toNat =
      max 1 (hz.toNat / unit.toNat) := by
  have hquot : (hz / unit).toNat = hz.toNat / unit.toNat := UInt64.toNat_div ..
  split
  · rw [← hquot, ‹hz / unit = 0›]
    rfl
  · have hpos : (hz / unit).toNat ≠ 0 := fun h => ‹¬ hz / unit = 0› (UInt64.toNat_inj.mp h)
    omega

theorem pcTarget_toNat (n : UInt32) (hz unit : UInt64) :
    (n.toUInt64 * (if hz / unit = 0 then 1 else hz / unit)).toNat =
      n.toNat * max 1 (hz.toNat / unit.toNat) % 18446744073709551616 := by
  rw [UInt64.toNat_mul, clamped_toNat, UInt32.toNat_toUInt64]

end

/-- A delay is never short exactly where nothing of it is lost. -/
theorem neverShort_iff (delay : Delay) : delay.NeverShort ↔ delay.Kept := by
  cases delay with
  | systickUs ahbclk tickUs tb start us =>
    rw [Delay.Kept, ← systickKept_iff, ← delayUs_long_iff us us.toNat]
    exact Iff.rfl
  | systickMs ahbclk tickUs tb start ms =>
    have hus : (ms * 1000).toNat = ms.toNat * 1000 % 4294967296 := UInt32.toNat_mul ..
    have hlong := @delayUs_long_iff ahbclk tickUs tb start (ms * 1000) (ms.toNat * 1000)
    rw [hus] at hlong
    have hmillis : ∀ d, ms.toNat * ahbclk.toNat ≤ d * 1000 ↔
        ms.toNat * 1000 * ahbclk.toNat ≤ d * 1000000 := by
      intro d
      rw [Nat.mul_right_comm]
      omega
    show (∀ polls d, _ = some d → ms.toNat * ahbclk.toNat ≤ d * 1000) ↔ _
    simp only [hmillis]
    refine hlong.trans ?_
    by_cases hfits : ms.toNat * 1000 < 4294967296
    · rw [Delay.Kept, if_pos hfits, Nat.mod_eq_of_lt hfits]
      exact systickKept_iff
    · rw [Delay.Kept, if_neg hfits]
      exact wrappedKept_iff (Nat.le_of_not_lt hfits)
  | cycleUs sysclk cycles us =>
    have htarget : (us * (halCycleCounterInit sysclk).cyclesPerUs).toNat =
        us.toNat * max 1 (sysclk.toNat / 1000000) % 4294967296 := by
      rw [UInt32.toNat_mul, halCycleCounterInit, perUs32_toNat]
    have hcounts := counts_iff _ (by decide) us.toNat_lt htarget
    rw [Delay.Kept, ← hcounts, Delay.NeverShort]
    simp only [Delay.returnsAt, halCycleCounterDelayUs, cycleDelay_eq]
    exact Iff.rfl
  | pcUs tscHz tsc0 tsc tickUs tb us =>
    have htarget := pcTarget_toNat us tscHz 1000000
    have hcounts := counts_iff 1000000 (by decide)
      (Nat.lt_trans us.toNat_lt (by decide)) htarget
    rw [Delay.Kept, ← hcounts, Delay.NeverShort]
    simp only [Delay.returnsAt, pcTimebaseDelayUs, pcDelay_eq]
    rw [pcTimebaseInit, if_neg tickUs.2]
    exact Iff.rfl
  | pcMs tscHz tsc0 tsc tickUs tb ms =>
    have htarget := pcTarget_toNat ms tscHz 1000
    have hcounts := counts_iff 1000 (by decide)
      (Nat.lt_trans ms.toNat_lt (by decide)) htarget
    rw [Delay.Kept, ← hcounts, Delay.NeverShort]
    simp only [Delay.returnsAt, pcTimebaseDelayMs, pcDelay_eq]
    rw [pcTimebaseInit, if_neg tickUs.2]
    exact Iff.rfl

/-- 100 us at ticks of 1 ms, entered in the last cycle of one: a cycle later it is over. -/
theorem over_in_last_cycle :
    ¬ (Delay.systickUs 84000000 ⟨1000, by decide⟩ {} 83999 100).NeverShort := by
  intro h
  have hreturns : (Delay.systickUs 84000000 ⟨1000, by decide⟩ {} 83999 100).returnsAt [1] =
      some 1 := by decide
  exact absurd (h [1] 1 hreturns) (by unfold Delay.Lasts; decide)

end NavHAL.Arch
