/-!
# Waiting on a free-running counter

A loop polls a counter until it has gone on by a target, and a poll sees the count only
modulo the counter's size.  Polls can come at any instants; what holds of every return
holds of the earliest (`returns_iff`).  `scaled_iff` is for a target computed from a rate
that was first cut to whole counts per unit of time, `wholeTicks_iff` for one in ticks of
which the first had begun.
-/

namespace NavHAL.BusyWait

variable {count : Nat → Nat} {size target earliest : Nat} {polls : List Nat}

/-- The first poll that ends the loop; polls are instants since it was entered. -/
def returns (count : Nat → Nat) (size target : Nat) (polls : List Nat) : Option Nat :=
  polls.find? fun d => decide (target ≤ count d % size)

theorem returns_some {d : Nat} (h : returns count size target polls = some d) :
    target ≤ count d := by
  unfold returns at h
  have hover := List.find?_some h
  exact Nat.le_trans (of_decide_eq_true hover) (Nat.mod_le _ _)

theorem returns_singleton {d : Nat} (hcount : count d = target) (hlt : target < size) :
    returns count size target [d] = some d := by
  have hover : target ≤ count d % size :=
    Nat.le_of_eq (by rw [hcount, Nat.mod_eq_of_lt hlt])
  simp [returns, hover]

/-- A counter that stands still keeps the loop going. -/
theorem returns_none (hstill : ∀ d, count d < target) : returns count size target polls = none := by
  cases h : returns count size target polls with
  | none => rfl
  | some d => exact absurd (returns_some h) (Nat.not_le.mpr (hstill d))

/-- A property that only gets easier with time holds of every return exactly if it holds
of the instant at which the count reaches the target. -/
theorem returns_iff (hlt : target < size) (hfirst : ∀ d, target ≤ count d ↔ earliest ≤ d)
    (hcount : count earliest = target) {P : Nat → Prop}
    (hmono : ∀ {d d' : Nat}, d ≤ d' → P d → P d') :
    (∀ polls d, returns count size target polls = some d → P d) ↔ P earliest := by
  constructor
  · intro h
    exact h [earliest] earliest (returns_singleton hcount hlt)
  · intro h polls d hd
    exact hmono ((hfirst d).mp (returns_some hd)) h

/-! ## Whole counts per unit -/

/-- `n` units are enough counts when nothing of the rate is cut off and their product is
not either; below one count per unit the rate is taken as one. -/
theorem scaled_iff {n rate unit size : Nat} (hunit : 0 < unit) (hn : n < size) :
    n * rate ≤ (n * max 1 (rate / unit) % size) * unit ↔
      n = 0 ∨ rate < unit ∨ unit ∣ rate ∧ n * (rate / unit) < size := by
  rcases Nat.eq_zero_or_pos n with rfl | hpos
  · simp
  rcases Nat.lt_or_ge rate unit with hslow | hfast
  · have hzero : rate / unit = 0 := Nat.div_eq_of_lt hslow
    have hle : n * rate ≤ n * unit := Nat.mul_le_mul_left n (Nat.le_of_lt hslow)
    rw [hzero, Nat.max_eq_left (Nat.zero_le 1), Nat.mul_one, Nat.mod_eq_of_lt hn]
    exact iff_of_true hle (.inr (.inl hslow))
  have hquot : 1 ≤ rate / unit := Nat.div_pos hfast hunit
  have hnot : ¬ (n = 0 ∨ rate < unit) := by omega
  rw [Nat.max_eq_right hquot, ← or_assoc, or_iff_right hnot]
  have hcut : n * (rate / unit) * unit ≤ n * rate := by
    rw [Nat.mul_assoc]
    exact Nat.mul_le_mul_left n (Nat.div_mul_le_self rate unit)
  rcases Nat.lt_or_ge (n * (rate / unit)) size with hfits | hwraps
  · rw [Nat.mod_eq_of_lt hfits, and_iff_left hfits]
    constructor
    · intro h
      have heq : n * (rate / unit * unit) = n * rate := by
        rw [← Nat.mul_assoc]
        exact Nat.le_antisymm hcut h
      exact Nat.dvd_of_mod_eq_zero
        (by have := Nat.eq_of_mul_eq_mul_left hpos heq; have := Nat.div_add_mod' rate unit; omega)
    · intro h
      exact Nat.le_of_eq (by rw [Nat.mul_assoc, Nat.div_mul_cancel h])
  · have hless : n * (rate / unit) % size < n * (rate / unit) :=
      Nat.lt_of_lt_of_le (Nat.mod_lt _ (by omega)) hwraps
    have hshort := Nat.mul_lt_mul_of_pos_right hless hunit
    exact iff_of_false (by omega) (fun h => Nat.not_le.mpr h.2 hwraps)

/-! ## Ticks -/

/-- The ticks seen since `start`, of `period` counts each. -/
def ticksSince (period start d : Nat) : Nat := (start + d) / period - start / period

/-- `n` ticks have passed once the part of a tick that was over at the start is made up. -/
theorem le_ticksSince_iff {period start n d : Nat} (hperiod : 0 < period) :
    n ≤ ticksSince period start d ↔ n * period - start % period ≤ d := by
  have hmono : start / period ≤ (start + d) / period :=
    Nat.div_le_div_right (Nat.le_add_right _ _)
  have hstart := Nat.div_add_mod' start period
  have hstep : n ≤ ticksSince period start d ↔ start / period + n ≤ (start + d) / period := by
    unfold ticksSince
    omega
  rw [hstep, Nat.le_div_iff_mul_le hperiod, Nat.add_mul]
  omega

theorem ticksSince_earliest {period start n : Nat} (hperiod : 0 < period) (hn : 0 < n) :
    ticksSince period start (n * period - start % period) = n := by
  have hphase := Nat.mod_lt start hperiod
  have hone : period ≤ n * period := Nat.le_mul_of_pos_left period hn
  have hstart := Nat.div_add_mod' start period
  have hinstant : start + (n * period - start % period) = (start / period + n) * period := by
    rw [Nat.add_mul]
    omega
  rw [ticksSince, hinstant, Nat.mul_div_cancel _ hperiod, Nat.add_sub_cancel_left]

/-- Ticks no longer than they should be, of which a part of the first is over, are enough
for a tick or more when nothing is lost: none is shorter, none had begun, and they are
whole. -/
theorem wholeTicks_iff {tick amount rate unit period start : Nat} (htick : 0 < tick)
    (hrate : 0 < rate) (hunit : 0 < unit) (hperiod : 0 < period)
    (hshort : period * unit ≤ rate * tick) (hle : tick ≤ amount) :
    amount * rate ≤ (amount / tick * period - start % period) * unit ↔
      rate * tick = period * unit ∧ tick ∣ amount ∧ period ∣ start := by
  have hticks : 1 ≤ amount / tick := Nat.div_pos hle htick
  obtain ⟨lost, hlost⟩ := Nat.le.dest hshort
  have hwhole : amount * rate =
      amount / tick * (period * unit) + amount / tick * lost + amount % tick * rate := by
    calc amount * rate = (amount / tick * tick + amount % tick) * rate := by rw [Nat.div_add_mod']
      _ = amount / tick * (rate * tick) + amount % tick * rate := by
          rw [Nat.add_mul, Nat.mul_comm rate, Nat.mul_assoc]
      _ = _ := by rw [← hlost, Nat.mul_add]
  have hspan : start % period * unit ≤ amount / tick * (period * unit) := by
    rw [← Nat.mul_assoc]
    exact Nat.mul_le_mul_right unit (Nat.le_trans (Nat.le_of_lt (Nat.mod_lt start hperiod))
      (Nat.le_mul_of_pos_left period hticks))
  rw [Nat.sub_mul, Nat.mul_assoc, hwhole]
  have hnone : amount / tick * (period * unit) + amount / tick * lost + amount % tick * rate ≤
      amount / tick * (period * unit) - start % period * unit ↔
      amount / tick * lost = 0 ∧ amount % tick * rate = 0 ∧ start % period * unit = 0 := by
    omega
  rw [hnone, Nat.mul_eq_zero, Nat.mul_eq_zero, Nat.mul_eq_zero, or_iff_right (by omega),
    or_iff_left (by omega), or_iff_left (by omega), ← Nat.dvd_iff_mod_eq_zero,
    ← Nat.dvd_iff_mod_eq_zero, ← hlost]
  refine and_congr_left' ?_
  omega

end NavHAL.BusyWait
