import Mathlib.Logic.Relation
import NavHAL.Status

/-!
# The window watchdog (`hal_wwdg.c`, `watchdog.c`)

`hal_wwdg_start` looks for the finest timebase whose 64 ticks cover the timeout.  The
rate of the ticks is cut to whole Hz before the milliseconds are multiplied by it, in 32
bits (`wwdgHonours_iff`).  Whatever it programs, `hal_wwdg_window_open` is right about the
next kick (`windowOpen_exact`).
-/

namespace NavHAL.Watchdog

/-! ## Registers -/

/-- `WWDG_PCLK_DIV << tb` -/
def divider (tb : Nat) : Nat := 4096 <<< tb

/-- The registers of the watchdog by their fields, and the statics of the driver. -/
structure Wwdg where
  /-- `RCC_APB1ENR_WWDGEN` -/
  clockOn : Bool := false
  wdgtb : Nat := 0
  w : UInt32 := 0x7F
  t : UInt32 := 0x7F
  wdga : Bool := false
  wwdgReload : UInt8 := 0
  wwdgWindow : UInt8 := 0
  wwdgRunning : Bool := false

/-- How the search for a timebase ends. -/
inductive Search
  | tickTooSlow
  | fits (tb : Nat) (tickHz counts : UInt32)
  | tooLong
  deriving DecidableEq, Repr

/-- The loop from timebase `tb` on, with `n` to go; beside its end the exact values of
the sums it makes. -/
def searchTimebase (pclk1 timeoutMs : UInt32) : Nat → Nat → List Nat × Search
  | _, 0 => ([], .tooLong)
  | tb, n + 1 =>
    let tickHz := pclk1 / UInt32.ofNat (divider tb)
    if tickHz = 0 then ([], .tickTooSlow)
    else
      let counts := (timeoutMs * tickHz + 999) / 1000
      let sum := timeoutMs.toNat * tickHz.toNat + 999
      if counts ≤ 64 then ([sum], .fits tb tickHz counts)
      else
        let rest := searchTimebase pclk1 timeoutMs (tb + 1) n
        (sum :: rest.1, rest.2)

/-- What follows the loop; the list collects the exact values of the products too. -/
def program (windowMs : UInt32) (st : Wwdg) : Search → List Nat × HalStatus × Wwdg
  | .tickTooSlow | .tooLong => ([], .errInvalidArg, st)
  | .fits tb tickHz counts =>
    if counts = 0 then ([], .errInvalidArg, st)
    else
      let t := 0x3F + counts
      let wcounts := windowMs * tickHz / 1000
      let product := windowMs.toNat * tickHz.toNat
      if counts ≤ wcounts then ([product], .errInvalidArg, st)
      else
        let w := t - wcounts
        ([product], .ok, { st with
          clockOn := true
          wdgtb := tb
          w := w &&& 0x7F
          wdga := true
          t := t &&& 0x7F
          wwdgReload := t.toUInt8
          wwdgWindow := w.toUInt8
          wwdgRunning := true })

/-- `stm32_wwdg_start` -/
def stm32WwdgStart (pclk1 timeoutMs windowMs : UInt32) (st : Wwdg) :
    List Nat × HalStatus × Wwdg :=
  if pclk1 = 0 then ([], .errNotInitialized, st)
  else
    let search := searchTimebase pclk1 timeoutMs 0 4
    let result := program windowMs st search.2
    (search.1 ++ result.1, result.2)

/-- `hal_wwdg_start` -/
def halWwdgStart (pclk1 timeoutMs windowMs : UInt32) (st : Wwdg) : List Nat × HalStatus × Wwdg :=
  if timeoutMs = 0 ∨ timeoutMs ≤ windowMs then ([], .errInvalidArg, st)
  else stm32WwdgStart pclk1 timeoutMs windowMs st

/-- `hal_wwdg_kick` -/
def halWwdgKick (st : Wwdg) : HalStatus × Wwdg :=
  if st.wwdgRunning = false then (.errNotInitialized, st)
  else (.ok, { st with t := st.wwdgReload.toUInt32 &&& 0x7F })

/-- `hal_wwdg_window_open` -/
def halWwdgWindowOpen (st : Wwdg) : Bool :=
  st.wwdgRunning && decide (st.t &&& 0x7F ≤ st.wwdgWindow.toUInt32)

/-! ## An honoured timeout -/

/-- Some timebase has a count of 1 to 64 ticks that lasts the timeout. -/
def Expressible (pclk1 timeoutMs : Nat) : Prop :=
  ∃ tb ≤ 3, ∃ counts, 1 ≤ counts ∧ counts ≤ 64 ∧ timeoutMs * pclk1 ≤ counts * 1000 * divider tb

/-- From a kick to the reset, that is down to `0x3F`, it is the timeout or longer. -/
def LongEnough (pclk1 timeoutMs : Nat) (st : Wwdg) : Prop :=
  timeoutMs * pclk1 ≤ ((halWwdgKick st).2.t.toNat - 0x3F) * 1000 * divider st.wdgtb

/-- By the end of the window the counter has come down to `W`. -/
def NeverEarly (pclk1 windowMs : Nat) (st : Wwdg) : Prop :=
  ((halWwdgKick st).2.t.toNat - st.w.toNat) * 1000 * divider st.wdgtb ≤ windowMs * pclk1

/-- One call: no product wraps, and the call is refused when nothing can
express it, or keeps both times. -/
def WwdgHonours (pclk1 timeoutMs windowMs : UInt32) (st : Wwdg) : Prop :=
  let r := halWwdgStart pclk1 timeoutMs windowMs st
  (∀ s ∈ r.1, s < 4294967296) ∧
    ((r.2.1 = .errInvalidArg ∧ r.2.2 = st ∧ ¬ Expressible pclk1.toNat timeoutMs.toNat) ∨
      (r.2.1 = .ok ∧ r.2.2.wdga = true ∧ LongEnough pclk1.toNat timeoutMs.toNat r.2.2 ∧
        NeverEarly pclk1.toNat windowMs.toNat r.2.2))

/-! ## The condition -/

/-- The whole Hz of a tick. -/
def tickRate (pclk1 tb : Nat) : Nat := pclk1 / divider tb

/-- What rounding up to whole ticks adds, in thousandths of one. -/
def roundUpGain (timeoutMs rate : Nat) : Nat :=
  (timeoutMs * rate + 999) / 1000 * 1000 - timeoutMs * rate

/-- From timebase `tb` on, up to the first that fits: no clock too slow for a rate of
1 Hz while the timeout is one that 64 ticks can last, no sum of 33 bits, and where the
timeout fits the rounding up makes good what the whole Hz lose. -/
def HonouredFrom (pclk1 timeoutMs : Nat) : Nat → Nat → Prop
  | _, 0 => True
  | tb, n + 1 =>
    let rate := tickRate pclk1 tb
    if rate = 0 then 64 * 1000 * divider 3 < timeoutMs * pclk1
    else timeoutMs * rate + 999 < 4294967296 ∧
      if (timeoutMs * rate + 999) / 1000 ≤ 64 then
        timeoutMs * (pclk1 % divider tb) ≤ roundUpGain timeoutMs rate * divider tb
      else HonouredFrom pclk1 timeoutMs (tb + 1) n

/-! ## Ticks -/

section

variable {pclk1 timeoutMs windowMs : UInt32} {tb : Nat}

theorem divider_le (htb : tb ≤ 3) : divider tb ≤ divider 3 := by
  have h : ∀ tb ≤ 3, divider tb ≤ divider 3 := by decide
  exact h tb htb

theorem divider_pos (htb : tb ≤ 3) : 0 < divider tb := by
  have h : ∀ tb ≤ 3, 0 < divider tb := by decide
  exact h tb htb

theorem tickHz_toNat (htb : tb ≤ 3) :
    (pclk1 / UInt32.ofNat (divider tb)).toNat = tickRate pclk1.toNat tb := by
  have h : ∀ tb ≤ 3, (UInt32.ofNat (divider tb)).toNat = divider tb := by decide
  rw [UInt32.toNat_div, h tb htb, tickRate]

/-- The longest timeout is the one of 64 ticks at the slowest timebase. -/
theorem expressible_iff {pclk1 timeoutMs : Nat} :
    Expressible pclk1 timeoutMs ↔ timeoutMs * pclk1 ≤ 64 * 1000 * divider 3 := by
  constructor
  · rintro ⟨tb, htb, counts, -, hcounts, h⟩
    exact Nat.le_trans h
      (Nat.mul_le_mul (Nat.mul_le_mul_right _ hcounts) (divider_le htb))
  · intro h
    exact ⟨3, Nat.le_refl 3, 64, by decide, by decide, h⟩

theorem rate_mul_le (pclk1 tb : Nat) : tickRate pclk1 tb * divider tb ≤ pclk1 :=
  Nat.div_mul_le_self _ _

/-- A timeout of more than 64 ticks of the slowest timebase, by their whole Hz. -/
theorem not_expressible {pclk1 timeoutMs : Nat} (h : 64 * 1000 < timeoutMs * tickRate pclk1 3) :
    ¬ Expressible pclk1 timeoutMs := by
  have hrate := Nat.mul_le_mul_left timeoutMs (rate_mul_le pclk1 3)
  have hticks := Nat.mul_lt_mul_of_pos_right h (divider_pos (Nat.le_refl 3))
  rw [Nat.mul_assoc timeoutMs] at hticks
  rw [expressible_iff]
  exact Nat.not_le.mpr (Nat.lt_of_lt_of_le hticks hrate)

/-- Whole ticks last the timeout when rounding up makes good what the whole Hz lose. -/
theorem ticks_last_iff (pclk1 timeoutMs tb : Nat) :
    timeoutMs * pclk1 ≤ (timeoutMs * tickRate pclk1 tb + 999) / 1000 * 1000 * divider tb ↔
      timeoutMs * (pclk1 % divider tb) ≤
        roundUpGain timeoutMs (tickRate pclk1 tb) * divider tb := by
  have hsplit : timeoutMs * pclk1 =
      timeoutMs * tickRate pclk1 tb * divider tb + timeoutMs * (pclk1 % divider tb) := by
    rw [Nat.mul_assoc, ← Nat.mul_add, tickRate, Nat.mul_comm (pclk1 / divider tb), Nat.div_add_mod]
  have hup : (timeoutMs * tickRate pclk1 tb + 999) / 1000 * 1000 =
      timeoutMs * tickRate pclk1 tb + roundUpGain timeoutMs (tickRate pclk1 tb) := by
    rw [roundUpGain]
    omega
  rw [hsplit, hup, Nat.add_mul]
  exact Nat.add_le_add_iff_left

theorem counts_toNat {rate : UInt32} (h : timeoutMs.toNat * rate.toNat + 999 < 4294967296) :
    ((timeoutMs * rate + 999) / 1000).toNat = (timeoutMs.toNat * rate.toNat + 999) / 1000 := by
  rw [UInt32.toNat_div, UInt32.toNat_add, UInt32.toNat_mul]
  rw [Nat.mod_eq_of_lt (show timeoutMs.toNat * rate.toNat < 2 ^ 32 by omega)]
  exact congrArg (· / 1000) (Nat.mod_eq_of_lt h)

theorem mask_toNat (x : UInt32) : (x &&& 0x7F).toNat = x.toNat % 128 := by
  rw [UInt32.toNat_and]
  exact Nat.and_two_pow_sub_one_eq_mod x.toNat 7

/-! ## What is programmed -/

/-- The outcome of a call that honours its timeout. -/
def Outcome (pclk1 timeoutMs windowMs : UInt32) (st : Wwdg) (r : HalStatus × Wwdg) : Prop :=
  (r.1 = .errInvalidArg ∧ r.2 = st ∧ ¬ Expressible pclk1.toNat timeoutMs.toNat) ∨
    (r.1 = .ok ∧ r.2.wdga = true ∧ LongEnough pclk1.toNat timeoutMs.toNat r.2 ∧
      NeverEarly pclk1.toNat windowMs.toNat r.2)

/-- The window's ticks, rounded down, end before the timeout's, rounded up. -/
theorem window_ticks_lt {window timeout rate : Nat} (hpos : 0 < rate) (h : window < timeout) :
    window * rate / 1000 < (timeout * rate + 999) / 1000 := by
  have hlt : window * rate < timeout * rate := Nat.mul_lt_mul_of_pos_right h hpos
  omega

theorem wcounts_toNat {rate : UInt32} (h : windowMs.toNat * rate.toNat < 4294967296) :
    (windowMs * rate / 1000).toNat = windowMs.toNat * rate.toNat / 1000 := by
  rw [UInt32.toNat_div, UInt32.toNat_mul]
  exact congrArg (· / 1000) (Nat.mod_eq_of_lt h)

/-- What the registers and the reload hold where the timeout fits. -/
structure Programmed (tb counts wcounts : Nat) (st : Wwdg) : Prop where
  wdga : st.wdga = true
  running : st.wwdgRunning = true
  wdgtb : st.wdgtb = tb
  reload : st.wwdgReload.toUInt32.toNat % 128 = 0x3F + counts
  w : st.w.toNat = 0x3F + counts - wcounts
  window : st.wwdgWindow.toUInt32 = st.w

theorem Programmed.kick {counts wcounts : Nat} {st : Wwdg} (h : Programmed tb counts wcounts st) :
    (halWwdgKick st).2.t.toNat = 0x3F + counts := by
  have hkick : (halWwdgKick st).2.t = st.wwdgReload.toUInt32 &&& 0x7F := by
    simp [halWwdgKick, h.running]
  rw [hkick, mask_toNat, h.reload]

theorem Programmed.longEnough_iff {counts wcounts pclk1 timeoutMs : Nat} {st : Wwdg}
    (h : Programmed tb counts wcounts st) :
    LongEnough pclk1 timeoutMs st ↔ timeoutMs * pclk1 ≤ counts * 1000 * divider tb := by
  rw [LongEnough, h.kick, h.wdgtb, Nat.add_sub_cancel_left]

theorem Programmed.neverEarly_iff {counts wcounts pclk1 windowMs : Nat} {st : Wwdg}
    (h : Programmed tb counts wcounts st) (hwcounts : wcounts ≤ counts) :
    NeverEarly pclk1 windowMs st ↔ wcounts * 1000 * divider tb ≤ windowMs * pclk1 := by
  have hspan : 0x3F + counts - (0x3F + counts - wcounts) = wcounts := by omega
  rw [NeverEarly, h.kick, h.w, h.wdgtb, hspan]

/-- A count of 1 to 64 ticks with a shorter window is programmed as it is. -/
theorem program_programmed (tb : Nat) {rate counts : UInt32} (st : Wwdg) (hpos : 0 < counts.toNat)
    (hfits : counts.toNat ≤ 64) (hwindow : (windowMs * rate / 1000).toNat < counts.toNat) :
    ∃ st', program windowMs st (.fits tb rate counts) =
        ([windowMs.toNat * rate.toNat], .ok, st') ∧
      Programmed tb counts.toNat (windowMs * rate / 1000).toNat st' := by
  have hne : counts ≠ 0 := by
    rintro rfl
    exact absurd hpos (by decide)
  have hlt : ¬ counts ≤ windowMs * rate / 1000 := by
    rw [UInt32.le_iff_toNat_le]
    exact Nat.not_le.mpr hwindow
  have ht : (0x3F + counts : UInt32).toNat = 0x3F + counts.toNat := by
    rw [UInt32.toNat_add]
    exact Nat.mod_eq_of_lt (show 0x3F + counts.toNat < 4294967296 by omega)
  have hw : (0x3F + counts - windowMs * rate / 1000).toNat =
      0x3F + counts.toNat - (windowMs * rate / 1000).toNat := by
    have hle : windowMs * rate / 1000 ≤ 0x3F + counts := by
      rw [UInt32.le_iff_toNat_le, ht]
      omega
    rw [UInt32.toNat_sub_of_le _ _ hle, ht]
  refine ⟨_, by simp only [program, if_neg hne, if_neg hlt]; rfl, ?_⟩
  have hmask : ((0x3F + counts - windowMs * rate / 1000) &&& 0x7F).toNat =
      0x3F + counts.toNat - (windowMs * rate / 1000).toNat := by
    rw [mask_toNat, hw]
    omega
  refine ⟨rfl, rfl, rfl, ?_, hmask, ?_⟩
  · show (0x3F + counts).toUInt8.toUInt32.toNat % 128 = _
    rw [UInt8.toNat_toUInt32, UInt32.toNat_toUInt8, ht]
    omega
  · apply UInt32.toNat_inj.mp
    show (0x3F + counts - windowMs * rate / 1000).toUInt8.toUInt32.toNat =
      ((0x3F + counts - windowMs * rate / 1000) &&& 0x7F).toNat
    rw [hmask, UInt8.toNat_toUInt32, UInt32.toNat_toUInt8, hw]
    omega

/-- Where the timeout fits, it is honoured but for what the whole Hz lose. -/
theorem program_fits {rate counts : UInt32} (st : Wwdg)
    (hrate : rate.toNat = tickRate pclk1.toNat tb) (hpos : 0 < rate.toNat)
    (hwindow : windowMs.toNat < timeoutMs.toNat)
    (hsum : timeoutMs.toNat * rate.toNat + 999 < 4294967296)
    (hcounts : counts.toNat = (timeoutMs.toNat * rate.toNat + 999) / 1000)
    (hfits : counts.toNat ≤ 64) :
    ((∀ s ∈ (program windowMs st (.fits tb rate counts)).1, s < 4294967296) ∧
        Outcome pclk1 timeoutMs windowMs st (program windowMs st (.fits tb rate counts)).2) ↔
      timeoutMs.toNat * (pclk1.toNat % divider tb) ≤
        roundUpGain timeoutMs.toNat (tickRate pclk1.toNat tb) * divider tb := by
  have hproduct : windowMs.toNat * rate.toNat < timeoutMs.toNat * rate.toNat :=
    Nat.mul_lt_mul_of_pos_right hwindow hpos
  have hwcounts : (windowMs * rate / 1000).toNat = windowMs.toNat * rate.toNat / 1000 :=
    wcounts_toNat (by omega)
  have hlt : (windowMs * rate / 1000).toNat < counts.toNat := by
    rw [hwcounts, hcounts]
    exact window_ticks_lt hpos hwindow
  obtain ⟨st', hprogram, hst⟩ := program_programmed tb st (by omega) hfits hlt
  have hearly : NeverEarly pclk1.toNat windowMs.toNat st' := by
    rw [hst.neverEarly_iff (Nat.le_of_lt hlt), hwcounts]
    calc windowMs.toNat * rate.toNat / 1000 * 1000 * divider tb
        ≤ windowMs.toNat * rate.toNat * divider tb :=
          Nat.mul_le_mul_right _ (Nat.div_mul_le_self _ _)
      _ = windowMs.toNat * (tickRate pclk1.toNat tb * divider tb) := by rw [hrate, Nat.mul_assoc]
      _ ≤ windowMs.toNat * pclk1.toNat := Nat.mul_le_mul_left _ (rate_mul_le _ _)
  have hlong : LongEnough pclk1.toNat timeoutMs.toNat st' ↔
      timeoutMs.toNat * (pclk1.toNat % divider tb) ≤
        roundUpGain timeoutMs.toNat (tickRate pclk1.toNat tb) * divider tb := by
    rw [hst.longEnough_iff, hcounts, hrate]
    exact ticks_last_iff _ _ _
  rw [hprogram, ← hlong]
  constructor
  · rintro ⟨-, ⟨hstatus, -⟩ | ⟨-, -, h, -⟩⟩
    · cases hstatus
    · exact h
  · intro h
    refine ⟨?_, .inr ⟨rfl, hst.wdga, h, hearly⟩⟩
    intro s hs
    rw [List.mem_singleton.mp hs]
    omega

/-! ## The search -/

/-- The outcome of the search from timebase `tb` on, and of what follows it. -/
def SearchHonours (pclk1 timeoutMs windowMs : UInt32) (st : Wwdg) (tb n : Nat) : Prop :=
  let search := searchTimebase pclk1 timeoutMs tb n
  let result := program windowMs st search.2
  (∀ s ∈ search.1 ++ result.1, s < 4294967296) ∧
    Outcome pclk1 timeoutMs windowMs st result.2

/-- One timebase of the loop. -/
theorem searchTimebase_succ (pclk1 timeoutMs : UInt32) (n : Nat) (htb : tb ≤ 3) :
    ∃ rate : UInt32, rate.toNat = tickRate pclk1.toNat tb ∧
      searchTimebase pclk1 timeoutMs tb (n + 1) =
        if rate = 0 then ([], .tickTooSlow)
        else if (timeoutMs * rate + 999) / 1000 ≤ 64 then
          ([timeoutMs.toNat * rate.toNat + 999],
            .fits tb rate ((timeoutMs * rate + 999) / 1000))
        else
          ((timeoutMs.toNat * rate.toNat + 999) :: (searchTimebase pclk1 timeoutMs (tb + 1) n).1,
            (searchTimebase pclk1 timeoutMs (tb + 1) n).2) :=
  ⟨_, tickHz_toNat htb, rfl⟩

/-- A refused request is one that no timebase can express. -/
theorem refused_iff {st : Wwdg} {sums : List Nat} {search : Search}
    (hsearch : search = .tickTooSlow ∨ search = .tooLong) (hsums : sums = []) :
    ((∀ s ∈ sums ++ (program windowMs st search).1, s < 4294967296) ∧
        Outcome pclk1 timeoutMs windowMs st (program windowMs st search).2) ↔
      64 * 1000 * divider 3 < timeoutMs.toNat * pclk1.toNat := by
  have hprogram : program windowMs st search = ([], .errInvalidArg, st) := by
    rcases hsearch with rfl | rfl <;> rfl
  rw [hprogram, hsums]
  constructor
  · rintro ⟨-, ⟨-, -, h⟩ | ⟨hstatus, -⟩⟩
    · exact Nat.not_le.mp (fun hle => h (expressible_iff.mpr hle))
    · cases hstatus
  · intro h
    refine ⟨by simp, .inl ⟨rfl, rfl, ?_⟩⟩
    exact fun he => Nat.not_le.mpr h (expressible_iff.mp he)

/-- By induction on the timebases to go; those before `tb` were all too fine. -/
theorem searchHonours_iff (st : Wwdg) (hwindow : windowMs.toNat < timeoutMs.toNat) (n : Nat) :
    ∀ tb, tb + n = 4 → (n = 0 → 64 * 1000 < timeoutMs.toNat * tickRate pclk1.toNat 3) →
      (SearchHonours pclk1 timeoutMs windowMs st tb n ↔
        HonouredFrom pclk1.toNat timeoutMs.toNat tb n) := by
  induction n with
  | zero =>
    intro tb _ hlast
    have hrefused : SearchHonours pclk1 timeoutMs windowMs st tb 0 ↔
        64 * 1000 * divider 3 < timeoutMs.toNat * pclk1.toNat := refused_iff (.inr rfl) rfl
    rw [hrefused, HonouredFrom, iff_true]
    have hlong := not_expressible (hlast rfl)
    rw [expressible_iff] at hlong
    exact Nat.not_le.mp hlong
  | succ n ih =>
    intro tb hn _
    obtain ⟨rate, hrate, hstep⟩ :=
      searchTimebase_succ pclk1 timeoutMs n (show tb ≤ 3 by omega)
    rw [HonouredFrom, ← hrate, SearchHonours, hstep]
    by_cases hzero : rate = 0
    · have hnat : rate.toNat = 0 := by rw [hzero]; rfl
      rw [if_pos hzero, if_pos hnat]
      exact refused_iff (.inl rfl) rfl
    have hpos : 0 < rate.toNat :=
      Nat.pos_of_ne_zero (fun h => hzero (UInt32.toNat_inj.mp h))
    rw [if_neg hzero, if_neg (Nat.ne_of_gt hpos)]
    by_cases hsum : timeoutMs.toNat * rate.toNat + 999 < 4294967296
    case neg =>
      -- the sum that wraps stands first in the list
      have hhead : ¬ ∀ s ∈ [timeoutMs.toNat * rate.toNat + 999], s < 4294967296 :=
        fun h => hsum (h _ (List.mem_singleton.mpr rfl))
      refine iff_of_false ?_ (fun h => hsum h.1)
      split
      · exact fun h => hhead (fun s hs => h.1 s (List.mem_append_left _ hs))
      · exact fun h => hsum (h.1 _ (List.mem_cons_self ..))
    have hcounts := counts_toNat hsum
    have hfits : (timeoutMs * rate + 999) / 1000 ≤ 64 ↔
        (timeoutMs.toNat * rate.toNat + 999) / 1000 ≤ 64 := by
      rw [UInt32.le_iff_toNat_le, hcounts]
      rfl
    rw [and_iff_right hsum]
    by_cases hle : (timeoutMs.toNat * rate.toNat + 999) / 1000 ≤ 64
    · rw [if_pos (hfits.mpr hle), if_pos hle]
      have hprogram := program_fits st hrate hpos hwindow hsum hcounts
        (by omega)
      rw [hrate, ← hprogram]
      simp [hsum, ← hrate]
    · rw [if_neg (mt hfits.mp hle), if_neg hle]
      have hnext := ih (tb + 1) (by omega) (by
        rintro rfl
        have htb : tb = 3 := by omega
        rw [← htb, ← hrate]
        omega)
      rw [← hnext, SearchHonours]
      simp [hsum]

end

/-! ## The call -/

/-- `hal_wwdg_start` honours its timeout exactly while no timebase reached has a sum of 33
bits, a rate below 1 Hz for a timeout that can be expressed, or a timeout that fits
only by the whole Hz. -/
theorem wwdgHonours_iff (pclk1 timeoutMs windowMs : UInt32) (st : Wwdg) (hpclk1 : pclk1 ≠ 0)
    (hwindow : windowMs < timeoutMs) :
    WwdgHonours pclk1 timeoutMs windowMs st ↔
      HonouredFrom pclk1.toNat timeoutMs.toNat 0 4 := by
  have hlt : windowMs.toNat < timeoutMs.toNat := UInt32.lt_iff_toNat_lt.mp hwindow
  have hshared : ¬ (timeoutMs = 0 ∨ timeoutMs ≤ windowMs) := by
    rintro (rfl | hle)
    · exact absurd hlt (Nat.not_lt_zero _)
    · exact Nat.not_le.mpr hlt (UInt32.le_iff_toNat_le.mp hle)
  have hcall : halWwdgStart pclk1 timeoutMs windowMs st =
      ((searchTimebase pclk1 timeoutMs 0 4).1 ++
          (program windowMs st (searchTimebase pclk1 timeoutMs 0 4).2).1,
        (program windowMs st (searchTimebase pclk1 timeoutMs 0 4).2).2) := by
    rw [halWwdgStart, if_neg hshared, stm32WwdgStart, if_neg hpclk1]
  rw [WwdgHonours, hcall]
  exact searchHonours_iff st hlt 4 0 rfl (fun h => absurd h (by decide))

/-- 10 ms at 42 MHz are 52 ticks of the second timebase. -/
theorem wwdgHonours_ten : WwdgHonours 42000000 10 5 {} := by
  refine (wwdgHonours_iff 42000000 10 5 {} (by decide) (by decide)).mpr ?_
  simp [HonouredFrom, tickRate, divider, roundUpGain]

/-- 32 ms at 42 MHz become 41 ticks of 0.78 ms, which are 31.99 ms. -/
theorem wwdg_32ms_too_short : ¬ WwdgHonours 42000000 32 0 {} := by
  rintro ⟨-, ⟨hstatus, -⟩ | ⟨-, -, hlong, -⟩⟩
  · exact absurd hstatus (by decide)
  · unfold LongEnough at hlong
    exact absurd hlong (by decide)

/-! ## Kicks in the window -/

/-- What does not reset the part: a tick that leaves bit 6 set, and a kick once the counter
has come down to `W`. -/
inductive Survives : Wwdg → Wwdg → Prop
  | tick {st : Wwdg} (hbit : 0x40 < st.t) : Survives st { st with t := st.t - 1 }
  | kick {st : Wwdg} (hlate : st.t ≤ st.w) : Survives st (halWwdgKick st).2

/-- The static holds what the register does, and the counter is one of 7 bits. -/
structure Armed (st : Wwdg) : Prop where
  running : st.wwdgRunning = true
  window : st.wwdgWindow.toUInt32 = st.w
  small : st.t.toNat ≤ 0x7F

theorem mask_le (x : UInt32) : (x &&& 0x7F).toNat ≤ 0x7F := by
  rw [mask_toNat]
  omega

theorem Armed.survives {st st' : Wwdg} (h : Armed st) (hstep : Survives st st') : Armed st' := by
  cases hstep with
  | tick hbit =>
    have hone : (1 : UInt32) ≤ st.t := by
      rw [UInt32.lt_iff_toNat_lt] at hbit
      exact UInt32.le_iff_toNat_le.mpr (Nat.le_trans (by decide) (Nat.le_of_lt hbit))
    have hsmall : (st.t - 1).toNat ≤ 0x7F := by
      rw [UInt32.toNat_sub_of_le _ _ hone]
      exact Nat.le_trans (Nat.sub_le _ _) h.small
    exact ⟨h.running, h.window, hsmall⟩
  | kick _ =>
    have hkick : halWwdgKick st = (.ok, { st with t := st.wwdgReload.toUInt32 &&& 0x7F }) :=
      if_neg (by rw [h.running]; exact Bool.noConfusion)
    rw [hkick]
    exact ⟨h.running, h.window, mask_le _⟩

theorem searchTimebase_fits {pclk1 timeoutMs : UInt32} {n : Nat} {rate counts : UInt32} :
    ∀ {tb k : Nat}, (searchTimebase pclk1 timeoutMs tb n).2 = .fits k rate counts →
      counts ≤ 64 := by
  induction n with
  | zero => exact Search.noConfusion
  | succ n ih =>
    intro tb k h
    rw [searchTimebase] at h
    simp only [] at h
    split at h
    · cases h
    split at h
    · next hle =>
      cases h
      exact hle
    · exact ih h

theorem armed_of_program {windowMs rate counts : UInt32} {tb : Nat} {st : Wwdg}
    (hfits : counts.toNat ≤ 64) (hok : (program windowMs st (.fits tb rate counts)).2.1 = .ok) :
    Armed (program windowMs st (.fits tb rate counts)).2.2 := by
  by_cases hzero : counts = 0
  · rw [program, if_pos hzero] at hok
    cases hok
  by_cases hwide : counts ≤ windowMs * rate / 1000
  · simp only [program, if_neg hzero, if_pos hwide] at hok
    cases hok
  have hpos : 0 < counts.toNat :=
    Nat.pos_of_ne_zero fun h => hzero (UInt32.toNat_inj.mp h)
  have hwindow : (windowMs * rate / 1000).toNat < counts.toNat :=
    Nat.not_le.mp fun h => hwide (UInt32.le_iff_toNat_le.mpr h)
  obtain ⟨st', hprogram, hst'⟩ := program_programmed tb st hpos hfits hwindow
  have ht : (program windowMs st (.fits tb rate counts)).2.2.t = (0x3F + counts) &&& 0x7F := by
    simp only [program, if_neg hzero, if_neg hwide]
  rw [hprogram] at ht ⊢
  exact ⟨hst'.running, hst'.window, ht ▸ mask_le _⟩

theorem armed_of_start {pclk1 timeoutMs windowMs : UInt32} {st : Wwdg}
    (hok : (halWwdgStart pclk1 timeoutMs windowMs st).2.1 = .ok) :
    Armed (halWwdgStart pclk1 timeoutMs windowMs st).2.2 := by
  unfold halWwdgStart stm32WwdgStart at hok ⊢
  split at hok
  · cases hok
  next hargs =>
  split at hok
  · cases hok
  next hclk =>
  rw [if_neg hargs, if_neg hclk]
  simp only [] at hok ⊢
  cases hsearch : (searchTimebase pclk1 timeoutMs 0 4).2 with
  | tickTooSlow =>
    rw [hsearch] at hok
    cases hok
  | tooLong =>
    rw [hsearch] at hok
    cases hok
  | fits tb rate counts =>
    rw [hsearch] at hok
    exact armed_of_program (UInt32.le_iff_toNat_le.mp (searchTimebase_fits hsearch)) hok

/-- After any start that is accepted, and any ticks and kicks that the part survives, the window
is reported open exactly where a kick resets nothing. -/
theorem windowOpen_exact {pclk1 timeoutMs windowMs : UInt32} {st st' : Wwdg}
    (hok : (halWwdgStart pclk1 timeoutMs windowMs st).2.1 = .ok)
    (hrun : Relation.ReflTransGen Survives (halWwdgStart pclk1 timeoutMs windowMs st).2.2 st') :
    halWwdgWindowOpen st' = true ↔ st'.t ≤ st'.w := by
  have harmed : Armed st' := by
    induction hrun with
    | refl => exact armed_of_start hok
    | tail _ hstep ih => exact ih.survives hstep
  have hmask : (st'.t &&& 0x7F).toNat = st'.t.toNat := by
    rw [mask_toNat]
    exact Nat.mod_eq_of_lt (Nat.lt_succ_of_le harmed.small)
  rw [halWwdgWindowOpen, harmed.running, harmed.window, Bool.true_and, decide_eq_true_eq,
    UInt32.le_iff_toNat_le, UInt32.le_iff_toNat_le, hmask]

/-- 10 ms with a window of 5: right after the start a kick would be early. -/
theorem window_shut_at_start :
    halWwdgWindowOpen (halWwdgStart 42000000 10 5 {}).2.2 = false := by
  rw [← Bool.not_eq_true, windowOpen_exact (by decide) .refl]
  decide

end NavHAL.Watchdog
