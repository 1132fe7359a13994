import NavHAL.Status

/-!
# The SysTick timebase (`timebase.c`)

An instant is a number of AHB cycles since `hal_timebase_init`.  SysTick
interrupts once every `reload + 1` of them, and every interrupt is one
`hal_timebase_tick`.  The registered callback is not modelled.

* `elapsed_agrees` : with an exact tick of whole milliseconds two millisecond
  values are as far apart as their instants, up to one tick, while the
  microsecond product does not wrap between them, and only then; short ticks of
  any other length are off by more between some instants;
* `timeout_fires_early` : across the wrap a timeout of two seconds is over after
  one millisecond.
-/

namespace NavHAL.Arch

/-! ## The driver -/

/-- `systick_ticks`, `tick_duration_us`, `tick_reload_value` -/
structure Timebase where
  systickTicks : UInt32 := 0
  tickDurationUs : UInt32 := 1
  tickReloadValue : UInt32 := 0
  deriving DecidableEq, Repr

/-- The reload value, clipped to the 24 bits of `SYST_RVR`. -/
def reloadFor (ahbclk tickUs : UInt32) : UInt32 :=
  ((ahbclk.toUInt64 * tickUs.toUInt64 / 1000000 - 1) &&& 0xFFFFFF).toUInt32

def armv7emTimebaseInit (ahbclk tickUs : UInt32) (tb : Timebase) : HalStatus × Timebase :=
  if tickUs = 0 then (.errInvalidArg, tb)
  else (.ok,
    { systickTicks := 0, tickDurationUs := tickUs, tickReloadValue := reloadFor ahbclk tickUs })

def halTimebaseInit (ahbclk tickUs : UInt32) (tb : Timebase) : HalStatus × Timebase :=
  if tickUs = 0 then (.errInvalidArg, tb) else armv7emTimebaseInit ahbclk tickUs tb

def halTimebaseTick (tb : Timebase) : Timebase := { tb with systickTicks := tb.systickTicks + 1 }

def armv7emTimebaseGetMicros (tb : Timebase) : UInt32 := tb.systickTicks * tb.tickDurationUs

def armv7emTimebaseGetMillis (tb : Timebase) : UInt32 := armv7emTimebaseGetMicros tb / 1000

/-! ## Time -/

/-- The interrupts SysTick has raised; with a reload value of 0 it does not count. -/
def systickInterrupts (reload : UInt32) (cycles : Nat) : Nat :=
  if reload = 0 then 0 else cycles / (reload.toNat + 1)

/-- The timebase at an instant of a run that starts with `hal_timebase_init`. -/
def timebaseAt (ahbclk tickUs : UInt32) (tb : Timebase) (cycles : Nat) : Timebase :=
  let tb := (halTimebaseInit ahbclk tickUs tb).2
  Nat.repeat halTimebaseTick (systickInterrupts tb.tickReloadValue cycles) tb

def millisAt (ahbclk tickUs : UInt32) (tb : Timebase) (cycles : Nat) : UInt32 :=
  armv7emTimebaseGetMillis (timebaseAt ahbclk tickUs tb cycles)

/-- What a caller computes as the time since `start`. -/
def elapsedMillis (ahbclk tickUs : UInt32) (tb : Timebase) (start now : Nat) : UInt32 :=
  millisAt ahbclk tickUs tb now - millisAt ahbclk tickUs tb start

/-- The wait loops of `uart_get`, `cdc_get` and `hal_sdio_wait_sync` give up. -/
def timeoutFired (ahbclk tickUs : UInt32) (tb : Timebase) (timeoutMs : UInt32) (start now : Nat) :
    Bool :=
  decide (timeoutMs ≤ elapsedMillis ahbclk tickUs tb start now)

/-- The milliseconds computed are the time between the instants, up to one tick. -/
def ElapsedAgrees (ahbclk tickUs : UInt32) (tb : Timebase) (start now : Nat) : Prop :=
  let ms := (elapsedMillis ahbclk tickUs tb start now).toNat
  ms * 1000 * ahbclk.toNat ≤ (now - start) * 1000000 + tickUs.toNat * ahbclk.toNat ∧
    (now - start) * 1000000 ≤ ms * 1000 * ahbclk.toNat + tickUs.toNat * ahbclk.toNat

/-- A timeout is over no more than a tick before its time, and no more than a tick after. -/
def TimeoutRight (ahbclk tickUs : UInt32) (tb : Timebase) (timeoutMs : UInt32) (start now : Nat) :
    Prop :=
  (timeoutFired ahbclk tickUs tb timeoutMs start now = true →
      timeoutMs.toNat * 1000 * ahbclk.toNat ≤
        (now - start) * 1000000 + tickUs.toNat * ahbclk.toNat) ∧
    (timeoutFired ahbclk tickUs tb timeoutMs start now = false →
      (now - start) * 1000000 ≤
        timeoutMs.toNat * 1000 * ahbclk.toNat + tickUs.toNat * ahbclk.toNat)

/-- The instants are less than `2^31` ms apart. -/
def Near (ahbclk : UInt32) (start now : Nat) : Prop :=
  (now - start) * 1000 < 2147483648 * ahbclk.toNat

/-- A whole number of cycles makes up the tick, and the reload register holds it. -/
structure TickExact (ahbclk tickUs : UInt32) : Prop where
  whole : 1000000 ∣ ahbclk.toNat * tickUs.toNat
  counts : 2 * 1000000 ≤ ahbclk.toNat * tickUs.toNat
  fits : ahbclk.toNat * tickUs.toNat ≤ 16777216 * 1000000

/-- So does a whole number of milliseconds. -/
structure WholeTick (ahbclk tickUs : UInt32) : Prop extends TickExact ahbclk tickUs where
  millis : 1000 ∣ tickUs.toNat

/-- The microseconds counted at an instant, before they are reduced to 32 bits. -/
def microsCounted (ahbclk tickUs : UInt32) (cycles : Nat) : Nat :=
  systickInterrupts (reloadFor ahbclk tickUs) cycles * tickUs.toNat

/-- The 32-bit microsecond value does not wrap between the two instants. -/
def SameEpoch (ahbclk tickUs : UInt32) (start now : Nat) : Prop :=
  microsCounted ahbclk tickUs start / 4294967296 = microsCounted ahbclk tickUs now / 4294967296

/-! ## What the registers hold -/

theorem repeat_tick (n : Nat) (tb : Timebase) :
    Nat.repeat halTimebaseTick n tb =
      { tb with systickTicks := tb.systickTicks + UInt32.ofNat n } := by
  induction n with
  | zero => simp [Nat.repeat]
  | succ n ih =>
    rw [Nat.repeat, ih, halTimebaseTick, UInt32.add_assoc, UInt32.ofNat_add]
    rfl

section Exact

variable {ahbclk tickUs : UInt32}

theorem TickExact.ahbclk_pos (h : TickExact ahbclk tickUs) : 0 < ahbclk.toNat :=
  Nat.pos_of_ne_zero fun hzero => by
    have := h.counts
    rw [hzero, Nat.zero_mul] at this
    omega

theorem TickExact.tickUs_ne (h : TickExact ahbclk tickUs) : tickUs ≠ 0 := by
  rintro rfl
  have := h.counts
  rw [UInt32.toNat_zero, Nat.mul_zero] at this
  omega

/-- A tick of more than `2^24` cycles is clipped to a shorter one. -/
theorem reloadFor_toNat (h : 1000000 ≤ ahbclk.toNat * tickUs.toNat) :
    (reloadFor ahbclk tickUs).toNat =
      (ahbclk.toNat * tickUs.toNat / 1000000 - 1) % 16777216 := by
  have hlt : ahbclk.toNat * tickUs.toNat < 4294967296 * 4294967296 :=
    Nat.mul_lt_mul'' ahbclk.toNat_lt tickUs.toNat_lt
  have hquot : (ahbclk.toUInt64 * tickUs.toUInt64 / 1000000).toNat =
      ahbclk.toNat * tickUs.toNat / 1000000 := by
    rw [UInt64.toNat_div, UInt64.toNat_mul, UInt32.toNat_toUInt64, UInt32.toNat_toUInt64,
      Nat.mod_eq_of_lt (by omega)]
    rfl
  have hone : (1 : UInt64) ≤ ahbclk.toUInt64 * tickUs.toUInt64 / 1000000 := by
    rw [UInt64.le_iff_toNat_le, hquot]
    change 1 ≤ _
    omega
  have hmask : ∀ x : Nat, x &&& 0xFFFFFF = x % 16777216 :=
    fun x => Nat.and_two_pow_sub_one_eq_mod x 24
  rw [reloadFor, UInt64.toNat_toUInt32, UInt64.toNat_and, UInt64.toNat_sub_of_le _ _ hone, hquot]
  change (ahbclk.toNat * tickUs.toNat / 1000000 - 1 &&& 0xFFFFFF) % 4294967296 = _
  rw [hmask]
  omega

example : reloadFor 84000000 250000 = 4222783 := by decide

/-- Less than a cycle to a tick: the value wraps before it is clipped. -/
theorem reloadFor_slow (h : ahbclk.toNat * tickUs.toNat < 1000000) :
    (reloadFor ahbclk tickUs).toNat = 16777215 := by
  have hquot : ahbclk.toUInt64 * tickUs.toUInt64 / 1000000 = 0 := by
    apply UInt64.toNat_inj.mp
    rw [UInt64.toNat_div, UInt64.toNat_mul, UInt32.toNat_toUInt64, UInt32.toNat_toUInt64,
      Nat.mod_eq_of_lt (by omega)]
    exact Nat.div_eq_of_lt h
  rw [reloadFor, hquot]
  rfl

theorem TickExact.reload (h : TickExact ahbclk tickUs) :
    (reloadFor ahbclk tickUs).toNat + 1 = ahbclk.toNat * tickUs.toNat / 1000000 := by
  obtain ⟨-, hcounts, hfits⟩ := h
  rw [reloadFor_toNat (by omega)]
  omega

/-- The cycles of an exact tick. -/
theorem TickExact.period (h : TickExact ahbclk tickUs) :
    ((reloadFor ahbclk tickUs).toNat + 1) * 1000000 = tickUs.toNat * ahbclk.toNat := by
  rw [h.reload, Nat.div_mul_cancel h.whole, Nat.mul_comm]

theorem TickExact.reload_ne (h : TickExact ahbclk tickUs) : reloadFor ahbclk tickUs ≠ 0 := by
  intro hzero
  have hreload := h.reload
  have hcounts := h.counts
  rw [hzero, UInt32.toNat_zero] at hreload
  omega

/-- The millisecond value, from the microseconds counted. -/
theorem millisAt_toNat (htick : tickUs ≠ 0) (tb : Timebase) (cycles : Nat) :
    (millisAt ahbclk tickUs tb cycles).toNat =
      microsCounted ahbclk tickUs cycles % 4294967296 / 1000 := by
  have hinit : (halTimebaseInit ahbclk tickUs tb).2 =
      ⟨0, tickUs, reloadFor ahbclk tickUs⟩ := by
    rw [halTimebaseInit, if_neg htick, armv7emTimebaseInit, if_neg htick]
  rw [millisAt, timebaseAt, hinit, repeat_tick, armv7emTimebaseGetMillis,
    armv7emTimebaseGetMicros, UInt32.toNat_div, UInt32.toNat_mul, UInt32.zero_add,
    UInt32.toNat_ofNat', Nat.mod_mul_mod, microsCounted]
  rfl

theorem elapsed_toNat (htick : tickUs ≠ 0) (tb : Timebase) (start now : Nat) :
    (elapsedMillis ahbclk tickUs tb start now).toNat =
      (4294967296 - microsCounted ahbclk tickUs start % 4294967296 / 1000 +
        microsCounted ahbclk tickUs now % 4294967296 / 1000) % 4294967296 := by
  rw [← millisAt_toNat htick tb, ← millisAt_toNat htick tb]
  exact UInt32.toNat_sub ..

/-! ## Microseconds and cycles -/

theorem systickInterrupts_mono (reload : UInt32) {a b : Nat} (h : a ≤ b) :
    systickInterrupts reload a ≤ systickInterrupts reload b := by
  unfold systickInterrupts
  split
  · exact Nat.le_refl 0
  · exact Nat.div_le_div_right h

theorem microsCounted_mono {start now : Nat} (hle : start ≤ now) :
    microsCounted ahbclk tickUs start ≤ microsCounted ahbclk tickUs now :=
  Nat.mul_le_mul_right _ (systickInterrupts_mono _ hle)

/-- The microseconds counted are off the true time by less than a tick. -/
theorem TickExact.counted_close (h : TickExact ahbclk tickUs) {start now : Nat}
    (hle : start ≤ now) :
    (microsCounted ahbclk tickUs now - microsCounted ahbclk tickUs start) * ahbclk.toNat <
        (now - start) * 1000000 + tickUs.toNat * ahbclk.toNat ∧
      (now - start) * 1000000 <
        (microsCounted ahbclk tickUs now - microsCounted ahbclk tickUs start) * ahbclk.toNat +
          tickUs.toNat * ahbclk.toNat := by
  have hperiod := h.period
  generalize hcycles : (reloadFor ahbclk tickUs).toNat + 1 = period at hperiod
  have hpos : 0 < period := by omega
  have hticks : start / period ≤ now / period := Nat.div_le_div_right hle
  have hstart := Nat.div_add_mod start period
  have hnow := Nat.div_add_mod now period
  have hstart' := Nat.mod_lt start hpos
  have hnow' := Nat.mod_lt now hpos
  have hcounted : (microsCounted ahbclk tickUs now - microsCounted ahbclk tickUs start) *
      ahbclk.toNat = (period * (now / period) - period * (start / period)) * 1000000 := by
    rw [microsCounted, microsCounted, systickInterrupts, systickInterrupts, if_neg h.reload_ne,
      if_neg h.reload_ne, hcycles, ← Nat.sub_mul, Nat.mul_assoc, ← hperiod, ← Nat.mul_sub,
      ← Nat.mul_assoc, Nat.mul_comm period]
  rw [hcounted, ← hperiod]
  have hmono : period * (start / period) ≤ period * (now / period) :=
    Nat.mul_le_mul_left _ hticks
  omega

end Exact

/-! ## With and without a wrap -/

/-- Between two counts of one epoch, both of whole milliseconds, they are right. -/
theorem millis_same_epoch {a b : Nat} (hle : a ≤ b) (hepoch : a / 4294967296 = b / 4294967296)
    (ha : 1000 ∣ a) (hb : 1000 ∣ b) :
    (4294967296 - a % 4294967296 / 1000 + b % 4294967296 / 1000) % 4294967296 * 1000 = b - a := by
  have hsame : b % 4294967296 = a % 4294967296 + (b - a) := by omega
  obtain ⟨k, hk⟩ := Nat.dvd_sub hb ha
  have hdiv : b % 4294967296 / 1000 = a % 4294967296 / 1000 + k := by
    rw [hsame, hk, Nat.add_mul_div_left _ _ (by decide)]
  omega

/-- Across a wrap they are off by over thirty-five minutes. -/
theorem millis_across_wrap {a b : Nat} (hle : a ≤ b) (hwrap : a / 4294967296 ≠ b / 4294967296)
    (hshort : b - a < 2147483648 * 1000 + 2147483148) {ms : Nat} (hms : ms =
      (4294967296 - a % 4294967296 / 1000 + b % 4294967296 / 1000) % 4294967296) :
    ms * 1000 + 4294966296 ≤ b - a ∨ b - a + 4294966296 ≤ ms * 1000 := by
  have hlater : a / 4294967296 < b / 4294967296 :=
    Nat.lt_of_le_of_ne (Nat.div_le_div_right hle) hwrap
  omega

section Elapsed

variable {ahbclk tickUs : UInt32} {start now : Nat}

theorem SameEpoch.elapsed (hepoch : SameEpoch ahbclk tickUs start now)
    (h : WholeTick ahbclk tickUs) (hle : start ≤ now) (tb : Timebase) :
    ElapsedAgrees ahbclk tickUs tb start now := by
  obtain ⟨hupper, hlower⟩ := h.counted_close hle
  have hmillis : ∀ cycles, 1000 ∣ microsCounted ahbclk tickUs cycles :=
    fun _ => Nat.dvd_mul_left_of_dvd h.millis _
  rw [ElapsedAgrees, elapsed_toNat h.tickUs_ne,
    millis_same_epoch (microsCounted_mono hle) hepoch (hmillis start) (hmillis now)]
  exact ⟨Nat.le_of_lt hupper, Nat.le_of_lt hlower⟩

theorem ElapsedAgrees.same_epoch {tb : Timebase}
    (hagrees : ElapsedAgrees ahbclk tickUs tb start now) (h : TickExact ahbclk tickUs)
    (hle : start ≤ now) (hnear : Near ahbclk start now)
    (htick : tickUs.toNat ≤ 2147483148) : SameEpoch ahbclk tickUs start now := by
  apply Classical.byContradiction
  intro hwrap
  have hpos := h.ahbclk_pos
  obtain ⟨hupper, hlower⟩ := h.counted_close hle
  have hms := @elapsed_toNat ahbclk tickUs h.tickUs_ne tb start now
  have htick' := Nat.mul_le_mul_right ahbclk.toNat htick
  have hcounted : microsCounted ahbclk tickUs now - microsCounted ahbclk tickUs start <
      2147483648 * 1000 + 2147483148 := by
    apply Nat.lt_of_mul_lt_mul_right (a := ahbclk.toNat)
    rw [Nat.add_mul]
    unfold Near at hnear
    omega
  obtain ⟨hagree, hagree'⟩ := hagrees
  rcases millis_across_wrap (microsCounted_mono hle) hwrap hcounted hms with hlow | hhigh
  · have := Nat.mul_le_mul_right ahbclk.toNat hlow
    rw [Nat.add_mul] at this
    omega
  · have := Nat.mul_le_mul_right ahbclk.toNat hhigh
    rw [Nat.add_mul] at this
    omega

/-- So no timeout is over more than a tick early or late. -/
theorem ElapsedAgrees.timeout {tb : Timebase} (h : ElapsedAgrees ahbclk tickUs tb start now)
    (timeoutMs : UInt32) : TimeoutRight ahbclk tickUs tb timeoutMs start now := by
  obtain ⟨hupper, hlower⟩ := h
  simp only [TimeoutRight, timeoutFired, decide_eq_true_eq, decide_eq_false_iff_not,
    UInt32.le_iff_toNat_le, Nat.not_le]
  constructor
  · intro hfired
    have hmul := Nat.mul_le_mul_right ahbclk.toNat (Nat.mul_le_mul_right 1000 hfired)
    exact Nat.le_trans hmul hupper
  · intro hwaiting
    have hmul := Nat.mul_le_mul_right ahbclk.toNat
      (Nat.mul_le_mul_right 1000 (Nat.le_of_lt hwaiting))
    exact Nat.le_trans hlower (Nat.add_le_add_right hmul _)

end Elapsed

/-! ## Ticks that are off within one epoch -/

section Off

variable {ahbclk tickUs : UInt32}

/-- The instants of the first epoch. -/
theorem elapsed_first_epoch (htick : tickUs ≠ 0) (tb : Timebase) {start now : Nat}
    (hle : start ≤ now) (hfirst : microsCounted ahbclk tickUs now < 4294967296) :
    SameEpoch ahbclk tickUs start now ∧
      (elapsedMillis ahbclk tickUs tb start now).toNat =
        microsCounted ahbclk tickUs now / 1000 - microsCounted ahbclk tickUs start / 1000 := by
  have hmono := @microsCounted_mono ahbclk tickUs start now hle
  rw [elapsed_toNat htick, SameEpoch]
  omega

theorem microsCounted_tick (hreload : reloadFor ahbclk tickUs ≠ 0) (i : Nat) {j : Nat}
    (hj : j ≤ (reloadFor ahbclk tickUs).toNat) :
    microsCounted ahbclk tickUs (i * ((reloadFor ahbclk tickUs).toNat + 1) + j) =
      i * tickUs.toNat := by
  rw [microsCounted, systickInterrupts, if_neg hreload, Nat.mul_comm i,
    Nat.mul_add_div (Nat.succ_pos _), Nat.div_eq_of_lt (Nat.lt_succ_of_le hj), Nat.add_zero]

/-- A thousand seconds and more hold a million ticks. -/
theorem ticks_near {n period tick clk : Nat} (hn : n ≤ 1000999) (hperiod : period * 1000000 ≤ tick)
    (htick : tick ≤ 4290 * clk) (hclk : 2000 < clk) :
    (n * period + 1) * 1000 < 2147483648 * clk := by
  have hspan : n * (period * 1000000) ≤ 1000999 * tick := Nat.mul_le_mul hn hperiod
  rw [← Nat.mul_assoc] at hspan
  omega

/-- What short ticks gain on a million of them. -/
theorem ticks_gain {period tick : Nat} (h : period * 1000000 + 1 ≤ tick) :
    (1000999 * period + 1) * 1000000 + tick < 1001000 * tick := by
  omega

/-- The reading at tick 1 loses what is over a millisecond, the one at tick 1000 nothing. -/
theorem millis_from_first (t : Nat) :
    ((1 + 1 + 998) * t / 1000 - 1 * t / 1000) * 1000 = 999 * t + t % 1000 := by
  omega

/-- And the reading at tick 999 loses what is missing to one. -/
theorem millis_from_last {t : Nat} (h : ¬ 1000 ∣ t) :
    ((999 + 1 + 0) * t / 1000 - 999 * t / 1000) * 1000 = t + (1000 - t % 1000) := by
  omega

/-- From the last cycle of tick `i` to the first after `n` more, where that is too
short for what is counted. -/
theorem disagrees_of_ahead (htick : tickUs ≠ 0) (hreload : reloadFor ahbclk tickUs ≠ 0)
    (tb : Timebase) {period : Nat} (hperiod : (reloadFor ahbclk tickUs).toNat + 1 = period)
    (i n counted : Nat) (hfirst : (i + 1 + n) * tickUs.toNat < 4294967296)
    (hcounted : ((i + 1 + n) * tickUs.toNat / 1000 - i * tickUs.toNat / 1000) * 1000 = counted)
    (hnear : (n * period + 1) * 1000 < 2147483648 * ahbclk.toNat)
    (hahead : (n * period + 1) * 1000000 + tickUs.toNat * ahbclk.toNat <
      counted * ahbclk.toNat) :
    ∃ start now, start ≤ now ∧ Near ahbclk start now ∧ SameEpoch ahbclk tickUs start now ∧
      ¬ ElapsedAgrees ahbclk tickUs tb start now := by
  have hstart := microsCounted_tick hreload i (Nat.le_refl _)
  have hnow := microsCounted_tick hreload (i + 1 + n) (Nat.zero_le _)
  rw [hperiod] at hstart hnow
  rw [Nat.add_zero] at hnow
  have hspan : (i + 1 + n) * period =
      i * period + (reloadFor ahbclk tickUs).toNat + (n * period + 1) := by
    rw [Nat.add_mul, Nat.add_mul, Nat.one_mul]
    omega
  have hapart : (i + 1 + n) * period - (i * period + (reloadFor ahbclk tickUs).toNat) =
      n * period + 1 := by omega
  have hle : i * period + (reloadFor ahbclk tickUs).toNat ≤ (i + 1 + n) * period := by omega
  obtain ⟨hepoch, helapsed⟩ := elapsed_first_epoch htick tb hle (hnow ▸ hfirst)
  rw [hstart, hnow] at helapsed
  refine ⟨_, _, hle, ?_, hepoch, ?_⟩
  · rw [Near, hapart]
    exact hnear
  · intro hagrees
    have hupper := hagrees.1
    rw [helapsed, hapart, hcounted] at hupper
    omega

/-- An exact tick of no whole number of milliseconds: half a millisecond or more is cut
from one reading and not from the other. -/
theorem TickExact.disagrees (h : TickExact ahbclk tickUs) (hmillis : ¬ 1000 ∣ tickUs.toNat)
    (hclk : 2000 < ahbclk.toNat) (hshort : tickUs.toNat ≤ 4290) (tb : Timebase) :
    ∃ start now, start ≤ now ∧ Near ahbclk start now ∧ SameEpoch ahbclk tickUs start now ∧
      ¬ ElapsedAgrees ahbclk tickUs tb start now := by
  obtain ⟨period, hperiod⟩ : ∃ period, (reloadFor ahbclk tickUs).toNat + 1 = period := ⟨_, rfl⟩
  have hcycles := h.period
  rw [hperiod] at hcycles
  have hlong := Nat.mul_le_mul_right ahbclk.toNat hshort
  by_cases hhalf : 500 ≤ tickUs.toNat % 1000
  · have hover : 500 * 2001 ≤ tickUs.toNat % 1000 * ahbclk.toNat := Nat.mul_le_mul hhalf hclk
    refine disagrees_of_ahead h.tickUs_ne h.reload_ne tb hperiod 1 998
      (999 * tickUs.toNat + tickUs.toNat % 1000) (by omega) (millis_from_first _)
      (ticks_near (by decide) (Nat.le_of_eq hcycles) hlong hclk) ?_
    rw [Nat.add_mul (999 * tickUs.toNat), Nat.mul_assoc 999]
    omega
  · have hover : 500 * 2001 ≤ (1000 - tickUs.toNat % 1000) * ahbclk.toNat :=
      Nat.mul_le_mul (by omega) hclk
    refine disagrees_of_ahead h.tickUs_ne h.reload_ne tb hperiod 999 0
      (tickUs.toNat + (1000 - tickUs.toNat % 1000)) (by omega) (millis_from_last hmillis)
      (ticks_near (by decide) (Nat.le_of_eq hcycles) hlong hclk) ?_
    rw [Nat.add_mul tickUs.toNat]
    omega

/-- No interrupt comes while the first tick should be over. -/
theorem disagrees_of_none (htick : tickUs ≠ 0) (hclk : 2000 < ahbclk.toNat)
    (hshort : tickUs.toNat ≤ 4290) (tb : Timebase)
    (hnone : systickInterrupts (reloadFor ahbclk tickUs)
      (ahbclk.toNat * tickUs.toNat / 1000000 + 1) = 0) :
    ∃ start now, start ≤ now ∧ Near ahbclk start now ∧ SameEpoch ahbclk tickUs start now ∧
      ¬ ElapsedAgrees ahbclk tickUs tb start now := by
  have hlong := Nat.mul_le_mul_right ahbclk.toNat hshort
  have hcomm := Nat.mul_comm tickUs.toNat ahbclk.toNat
  have hcounted : microsCounted ahbclk tickUs (ahbclk.toNat * tickUs.toNat / 1000000 + 1) = 0 := by
    rw [microsCounted, hnone, Nat.zero_mul]
  obtain ⟨hepoch, helapsed⟩ := @elapsed_first_epoch ahbclk tickUs htick tb 0 _ (Nat.zero_le _)
    (hcounted ▸ (by decide : 0 < 4294967296))
  rw [hcounted, Nat.zero_div, Nat.zero_sub] at helapsed
  refine ⟨_, _, Nat.zero_le _, ?_, hepoch, ?_⟩
  · rw [Near]
    omega
  · intro hagrees
    have hlower := hagrees.2
    rw [helapsed] at hlower
    omega

/-- An inexact tick: SysTick stands still, or counts too long, or gains a cycle within
an epoch. -/
theorem disagrees_of_inexact (h : ¬ TickExact ahbclk tickUs) (htick : tickUs ≠ 0)
    (hclk : 2000 < ahbclk.toNat) (hshort : tickUs.toNat ≤ 4290) (tb : Timebase) :
    ∃ start now, start ≤ now ∧ Near ahbclk start now ∧ SameEpoch ahbclk tickUs start now ∧
      ¬ ElapsedAgrees ahbclk tickUs tb start now := by
  by_cases hslow : ahbclk.toNat * tickUs.toNat < 1000000
  · have hreload := reloadFor_slow hslow
    apply disagrees_of_none htick hclk hshort
    rw [systickInterrupts, hreload, if_neg (fun hzero => by rw [hzero] at hreload; cases hreload)]
    omega
  · have hreload := reloadFor_toNat (Nat.le_of_not_lt hslow)
    by_cases hzero : reloadFor ahbclk tickUs = 0
    · apply disagrees_of_none htick hclk hshort
      rw [systickInterrupts, if_pos hzero]
    · have hpos : (reloadFor ahbclk tickUs).toNat ≠ 0 :=
        fun hz => hzero (UInt32.toNat_inj.mp hz)
      obtain ⟨period, hperiod⟩ : ∃ period, (reloadFor ahbclk tickUs).toNat + 1 = period := ⟨_, rfl⟩
      have hlong := Nat.mul_le_mul_right ahbclk.toNat hshort
      have hcomm := Nat.mul_comm tickUs.toNat ahbclk.toNat
      have hgains : period * 1000000 < tickUs.toNat * ahbclk.toNat := by
        apply Nat.lt_of_le_of_ne (by omega)
        intro hexact
        exact h ⟨⟨period, by omega⟩, by omega, by omega⟩
      refine disagrees_of_ahead htick hzero tb hperiod 0 1000999 (1001000 * tickUs.toNat)
        (by omega) (by omega) (ticks_near (by decide) (Nat.le_of_lt hgains) hlong hclk) ?_
      rw [Nat.mul_assoc 1001000]
      exact ticks_gain hgains

end Off

/-- With an exact tick of whole milliseconds the callers' arithmetic is right while the
microsecond value does not wrap, and, for ticks that do not swallow half a wrap, only then.
Any other tick of up to 4290 us is off by more than a tick between some instants. -/
theorem elapsed_agrees (ahbclk tickUs : UInt32) (tb : Timebase)
    (haccepted : (halTimebaseInit ahbclk tickUs tb).1 = .ok) :
    (WholeTick ahbclk tickUs → ∀ start now, start ≤ now → Near ahbclk start now →
        (SameEpoch ahbclk tickUs start now → ElapsedAgrees ahbclk tickUs tb start now ∧
          ∀ timeoutMs, TimeoutRight ahbclk tickUs tb timeoutMs start now) ∧
        (tickUs.toNat ≤ 2147483148 → ElapsedAgrees ahbclk tickUs tb start now →
          SameEpoch ahbclk tickUs start now)) ∧
      (¬ WholeTick ahbclk tickUs → 2000 < ahbclk.toNat → tickUs.toNat ≤ 4290 →
        ∃ start now, start ≤ now ∧ Near ahbclk start now ∧ SameEpoch ahbclk tickUs start now ∧
          ¬ ElapsedAgrees ahbclk tickUs tb start now) := by
  constructor
  · intro hwhole start now hle hnear
    constructor
    · intro hepoch
      have hagrees := hepoch.elapsed hwhole hle tb
      exact ⟨hagrees, hagrees.timeout⟩
    · intro htick hagrees
      exact hagrees.same_epoch hwhole.toTickExact hle hnear htick
  · intro hwhole hclk hshort
    have htick : tickUs ≠ 0 := by
      intro hzero
      rw [halTimebaseInit, if_pos hzero] at haccepted
      cases haccepted
    by_cases hexact : TickExact ahbclk tickUs
    · exact hexact.disagrees (fun hmillis => hwhole ⟨hexact, hmillis⟩) hclk hshort tb
    · exact disagrees_of_inexact hexact htick hclk hshort tb

/-! ## A tick of one millisecond at 84 MHz -/

theorem wholeTick_84MHz : WholeTick 84000000 1000 := ⟨⟨by decide, by decide, by decide⟩, by decide⟩

theorem microsCounted_84MHz (cycles : Nat) :
    microsCounted 84000000 1000 cycles = cycles / 84000 * 1000 := by
  rw [microsCounted, systickInterrupts, if_neg (by decide)]
  rfl

/-- Two instants an hour apart. -/
theorem one_hour_agrees : SameEpoch 84000000 1000 0 (3600000 * 84000) ∧
    ElapsedAgrees 84000000 1000 {} 0 (3600000 * 84000) := by
  have hepoch : SameEpoch 84000000 1000 0 (3600000 * 84000) := by
    rw [SameEpoch, microsCounted_84MHz, microsCounted_84MHz]
  have hnear : Near 84000000 0 (3600000 * 84000) := by
    rw [Near]
    decide
  exact ⟨hepoch, (((elapsed_agrees 84000000 1000 {} rfl).1 wholeTick_84MHz 0 (3600000 * 84000)
    (Nat.zero_le _) hnear).1 hepoch).1⟩

/-- Seventy-one minutes into a run one millisecond is taken for seven weeks, and a
timeout of two seconds is over. -/
theorem timeout_fires_early : (halTimebaseInit 84000000 1000 {}).1 = .ok ∧
    ¬ ElapsedAgrees 84000000 1000 {} (4294967 * 84000) (4294968 * 84000) ∧
    timeoutFired 84000000 1000 {} 2000 (4294967 * 84000) (4294968 * 84000) = true := by
  have helapsed : (elapsedMillis 84000000 1000 {} (4294967 * 84000) (4294968 * 84000)).toNat =
      4290672329 := by
    rw [elapsed_toNat wholeTick_84MHz.tickUs_ne, microsCounted_84MHz, microsCounted_84MHz]
  refine ⟨rfl, ?_, ?_⟩
  · rw [ElapsedAgrees, helapsed]
    decide
  · rw [timeoutFired, decide_eq_true_eq, UInt32.le_iff_toNat_le, helapsed]
    decide

end NavHAL.Arch
