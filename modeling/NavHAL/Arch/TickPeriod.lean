import NavHAL.Arch.Timebase

/-!
# The tick period on each port (`timebase.c`)

SysTick on the Cortex-M, Timer0 on the ATmega328P and the PIT on the PC turn a
period in microseconds into a count.  The period asked for is the one delivered,
to one count, exactly where `Representable` says so.
-/

namespace NavHAL.Arch

/-! ## The ATmega328P -/

/-- `s_ticks`, `s_tick_us`, `s_reload`, and the clock select bits of `TCCR0B`. -/
structure AvrTimebase where
  sTicks : UInt32 := 0
  sTickUs : UInt32 := 0
  sReload : UInt8 := 0
  cs : UInt8 := 0
  deriving DecidableEq, Repr

/-- `struct presc` -/
structure Presc where
  div : UInt16
  cs : UInt8
  deriving DecidableEq, Repr

def kPresc : List Presc := [⟨1, 1⟩, ⟨8, 2⟩, ⟨64, 3⟩, ⟨256, 4⟩, ⟨1024, 5⟩]

/-- The search of `avr_timebase_init`: the first prescaler whose count fits. -/
def pickPresc (total : UInt32) : List Presc → Option (Presc × UInt16)
  | [] => none
  | p :: ps =>
    let c := total / p.div.toUInt32
    if 1 ≤ c ∧ c ≤ 256 then some (p, c.toUInt16) else pickPresc total ps

def avrTimebaseInit (fCpu tickUs : UInt32) (tb : AvrTimebase) : HalStatus × AvrTimebase :=
  if tickUs = 0 then (.errInvalidArg, tb)
  else
    match pickPresc (fCpu / 1000000 * tickUs) kPresc with
    | none => (.errInvalidArg, tb)
    | some (p, count) =>
      (.ok, { sTicks := 0, sTickUs := tickUs, sReload := (count - 1).toUInt8, cs := p.cs })

/-! ## The PC -/

/-- `g_tsc0` and so on, and the two bytes that channel 0 of the PIT is loaded with. -/
structure PcTimebase where
  gTsc0 : UInt64 := 0
  gTickUs : UInt32 := 0
  gCycPerUs : UInt64 := 1
  gCycPerMs : UInt64 := 1
  gTicks : UInt32 := 0
  pitLow : UInt8 := 0
  pitHigh : UInt8 := 0
  deriving DecidableEq, Repr

/-- `PIT_INPUT_HZ` -/
def pitInputHz : UInt32 := 1193182

/-- The divider of `pit_start_periodic`. -/
def pitDivider (freqHz : UInt32) : UInt32 :=
  let div := pitInputHz / (if freqHz ≠ 0 then freqHz else 1000)
  let div := if div = 0 then 1 else div
  if 0xFFFF < div then 0xFFFF else div

def pitStartPeriodic (freqHz : UInt32) (tb : PcTimebase) : PcTimebase :=
  let div := pitDivider freqHz
  { tb with pitLow := (div &&& 0xFF).toUInt8, pitHigh := (div >>> 8).toUInt8 }

/-- `pc_timebase_init`, with the rate and the value of the time stamp counter. -/
def pcTimebaseInit (tscHz tsc : UInt64) (tickUs : UInt32) (tb : PcTimebase) :
    HalStatus × PcTimebase :=
  if tickUs = 0 then (.errInvalidArg, tb)
  else
    let perUs := tscHz / 1000000
    let perMs := tscHz / 1000
    (.ok, pitStartPeriodic (1000000 / tickUs)
      { tb with
        gCycPerUs := if perUs = 0 then 1 else perUs
        gCycPerMs := if perMs = 0 then 1 else perMs
        gTickUs := tickUs
        gTicks := 0
        gTsc0 := tsc })

/-! ## The ports together -/

/-- `F_CPU`, a whole number of megahertz. -/
abbrev WholeMhz := { fCpu : UInt32 // 1000000 ∣ fCpu.toNat }

/-- A port with its timebase: the AHB clock, `F_CPU`, or what the time stamp
counter shows. -/
inductive Port
  | armv7em (ahbclk : UInt32) (tb : Timebase)
  | avr (fCpu : WholeMhz) (tb : AvrTimebase)
  | pc (tscHz tsc : UInt64) (tb : PcTimebase)

namespace Port

/-- `hal_timebase_init` -/
def init (tickUs : UInt32) : Port → HalStatus × Port
  | armv7em ahbclk tb =>
    let result := halTimebaseInit ahbclk tickUs tb
    (result.1, armv7em ahbclk result.2)
  | avr fCpu tb =>
    if tickUs = 0 then (.errInvalidArg, avr fCpu tb)
    else
      let result := avrTimebaseInit fCpu.1 tickUs tb
      (result.1, avr fCpu result.2)
  | pc tscHz tsc tb =>
    if tickUs = 0 then (.errInvalidArg, pc tscHz tsc tb)
    else
      let result := pcTimebaseInit tscHz tsc tickUs tb
      (result.1, pc tscHz tsc result.2)

/-- `hal_timebase_get_tick_duration_us` -/
def tickDurationUs : Port → UInt32
  | armv7em _ tb => tb.tickDurationUs
  | avr _ tb => tb.sTickUs
  | pc _ _ tb => tb.gTickUs

end Port

/-- A timer that ticks once every `counts` periods of its prescaled input. -/
structure TickTimer where
  inputHz : Nat
  prescale : Nat
  counts : Nat

/-- The timer as its registers stand; SysTick does not count with a reload of 0,
and Timer0 not without a clock. -/
def Port.timer : Port → Option TickTimer
  | armv7em ahbclk tb =>
    if tb.tickReloadValue = 0 then none
    else some ⟨ahbclk.toNat, 1, tb.tickReloadValue.toNat + 1⟩
  | avr fCpu tb =>
    (kPresc.find? fun p => p.cs = tb.cs).map fun p =>
      ⟨fCpu.1.toNat, p.div.toNat, tb.sReload.toNat + 1⟩
  | pc _ _ tb => some ⟨pitInputHz.toNat, 1, tb.pitHigh.toNat * 256 + tb.pitLow.toNat⟩

/-- The interval differs from `tickUs` by less than a count. -/
def TickTimer.Within (t : TickTimer) (tickUs : UInt32) : Prop :=
  t.counts * t.prescale * 1000000 < t.inputHz * tickUs.toNat + t.prescale * 1000000 ∧
  t.inputHz * tickUs.toNat < t.counts * t.prescale * 1000000 + t.prescale * 1000000

/-- The products and differences on the way are those of the integers. -/
def Port.NoWrap (tickUs : UInt32) : Port → Prop
  | armv7em ahbclk _ =>
    (ahbclk.toUInt64 * tickUs.toUInt64).toNat = ahbclk.toNat * tickUs.toNat ∧
    (ahbclk.toUInt64 * tickUs.toUInt64 / 1000000 - 1).toNat + 1 =
      (ahbclk.toUInt64 * tickUs.toUInt64 / 1000000).toNat
  | avr fCpu _ => (fCpu.1 / 1000000 * tickUs).toNat = (fCpu.1 / 1000000).toNat * tickUs.toNat
  | pc _ _ _ => True

/-- An accepted period is the one reported and delivered; a refused one changes nothing. -/
structure PeriodKept (port : Port) (tickUs : UInt32) : Prop where
  accepted : (port.init tickUs).1 = .ok → (port.init tickUs).2.tickDurationUs = tickUs ∧
    ∃ t, (port.init tickUs).2.timer = some t ∧ t.Within tickUs
  refused : (port.init tickUs).1 ≠ .ok →
    (port.init tickUs).1 = .errInvalidArg ∧ (port.init tickUs).2 = port
  noWrap : tickUs ≠ 0 → port.NoWrap tickUs

/-- SysTick: two cycles at least, and `2^24` at most.  Timer0: the period in
cycles of `F_CPU` fits 32 bits.  PIT: the rate, cut to whole hertz, does not make
the interval a count too long; at two periods the largest divider happens to be
right. -/
def Representable (tickUs : UInt32) : Port → Prop
  | .armv7em ahbclk _ => tickUs = 0 ∨
    2 * 1000000 ≤ ahbclk.toNat * tickUs.toNat ∧ ahbclk.toNat * tickUs.toNat < 16777217 * 1000000
  | .avr fCpu _ => fCpu.1.toNat / 1000000 * tickUs.toNat < 4294967296
  | .pc _ _ _ => tickUs = 0 ∨
    (tickUs.toNat ≤ 52631 ∧
      1193182 < 1000000 / tickUs.toNat * ((1193182 * tickUs.toNat + 999999) / 1000000 + 1)) ∨
    tickUs.toNat = 54924 ∨ tickUs.toNat = 54925

/-! ## SysTick -/

section SysTick

variable {ahbclk tickUs : UInt32}

theorem toNat_ne_zero (h : tickUs ≠ 0) : 0 < tickUs.toNat :=
  Nat.pos_of_ne_zero fun hzero => h (UInt32.toNat_inj.mp hzero)

/-- The cycles of a period, in the 64 bits that they are computed in. -/
theorem cycles_toNat (ahbclk tickUs : UInt32) :
    (ahbclk.toUInt64 * tickUs.toUInt64).toNat = ahbclk.toNat * tickUs.toNat := by
  have hlt : ahbclk.toNat * tickUs.toNat < 4294967296 * 4294967296 :=
    Nat.mul_lt_mul'' ahbclk.toNat_lt tickUs.toNat_lt
  rw [UInt64.toNat_mul, UInt32.toNat_toUInt64, UInt32.toNat_toUInt64, Nat.mod_eq_of_lt (by omega)]

theorem reload_noWrap_iff :
    (ahbclk.toUInt64 * tickUs.toUInt64 / 1000000 - 1).toNat + 1 =
        (ahbclk.toUInt64 * tickUs.toUInt64 / 1000000).toNat ↔
      1000000 ≤ ahbclk.toNat * tickUs.toNat := by
  have hquot : (ahbclk.toUInt64 * tickUs.toUInt64 / 1000000).toNat =
      ahbclk.toNat * tickUs.toNat / 1000000 := by
    rw [UInt64.toNat_div, cycles_toNat]
    rfl
  generalize ahbclk.toUInt64 * tickUs.toUInt64 / 1000000 = q at hquot ⊢
  rw [UInt64.toNat_sub, hquot]
  have hlt := q.toNat_lt
  rw [hquot] at hlt
  show (18446744073709551616 - 1 + _) % 18446744073709551616 + 1 = _ ↔ _
  omega

theorem systick_kept_iff (tb : Timebase) (htick : tickUs ≠ 0) :
    PeriodKept (.armv7em ahbclk tb) tickUs ↔ Representable tickUs (.armv7em ahbclk tb) := by
  have hinit : (Port.armv7em ahbclk tb).init tickUs =
      (.ok, .armv7em ahbclk ⟨0, tickUs, reloadFor ahbclk tickUs⟩) := by
    simp only [Port.init, halTimebaseInit, armv7emTimebaseInit, if_neg htick]
  have htimer : ∀ t, (Port.armv7em ahbclk ⟨0, tickUs, reloadFor ahbclk tickUs⟩).timer = some t ↔
      (reloadFor ahbclk tickUs).toNat ≠ 0 ∧
        t = ⟨ahbclk.toNat, 1, (reloadFor ahbclk tickUs).toNat + 1⟩ := by
    intro t
    have hzero : reloadFor ahbclk tickUs = 0 ↔ (reloadFor ahbclk tickUs).toNat = 0 :=
      UInt32.toNat_inj.symm
    by_cases hreload : reloadFor ahbclk tickUs = 0
    · simp [Port.timer, hreload]
    · simp [Port.timer, hreload, ← hzero, eq_comm]
  constructor
  · intro h
    have hpos := reload_noWrap_iff.mp (h.noWrap htick).2
    have hreload := reloadFor_toNat hpos
    obtain ⟨-, t, ht, hwithin⟩ := h.accepted (by rw [hinit])
    rw [hinit, htimer] at ht
    obtain ⟨hne, rfl⟩ := ht
    obtain ⟨hlow, hhigh⟩ := hwithin
    simp only [Nat.mul_one, Nat.one_mul] at hlow hhigh
    refine .inr ?_
    omega
  · rintro (hzero | ⟨hlow, hhigh⟩)
    · exact absurd hzero htick
    have hpos : 1000000 ≤ ahbclk.toNat * tickUs.toNat := by omega
    have hreload := reloadFor_toNat hpos
    refine ⟨fun _ => ?_, fun hne => absurd (by rw [hinit]) hne,
      fun _ => ⟨cycles_toNat _ _, reload_noWrap_iff.mpr (by omega)⟩⟩
    rw [hinit]
    refine ⟨rfl, _, (htimer _).mpr ⟨by omega, rfl⟩, ?_⟩
    simp only [TickTimer.Within, Nat.mul_one, Nat.one_mul]
    omega

end SysTick

/-! ## Timer0 -/

/-- The search finds the first prescaler whose count fits. -/
theorem pickPresc_some {total : UInt32} {ps : List Presc} {p : Presc} {count : UInt16}
    (h : pickPresc total ps = some (p, count)) :
    p ∈ ps ∧ count = (total / p.div.toUInt32).toUInt16 ∧
      1 ≤ total / p.div.toUInt32 ∧ total / p.div.toUInt32 ≤ 256 := by
  induction ps with
  | nil => cases h
  | cons q ps ih =>
    rw [pickPresc] at h
    split at h
    · rename_i hfits
      cases h
      exact ⟨List.mem_cons_self, rfl, hfits⟩
    · obtain ⟨hmem, hcount⟩ := ih h
      exact ⟨List.mem_cons_of_mem _ hmem, hcount⟩

/-- The clock select bits tell the prescaler. -/
theorem find_presc {p : Presc} (h : p ∈ kPresc) :
    kPresc.find? (fun q => q.cs = p.cs) = some p ∧ 0 < p.div.toNat := by
  revert p
  decide

section Timer0

variable {fCpu : WholeMhz} {tickUs : UInt32}

theorem fCpu_div (fCpu : WholeMhz) : (fCpu.1 / 1000000).toNat = fCpu.1.toNat / 1000000 := by
  rw [UInt32.toNat_div]
  rfl

theorem timer0_noWrap_iff :
    (fCpu.1 / 1000000 * tickUs).toNat = (fCpu.1 / 1000000).toNat * tickUs.toNat ↔
      fCpu.1.toNat / 1000000 * tickUs.toNat < 4294967296 := by
  rw [UInt32.toNat_mul, fCpu_div]
  constructor
  · intro h
    rw [← h]
    exact Nat.mod_lt _ (by decide)
  · exact Nat.mod_eq_of_lt

/-- The count that is loaded is the period in prescaled counts, cut to whole ones. -/
theorem count_within {total : UInt32} {p : Presc} (hlow : 1 ≤ total / p.div.toUInt32)
    (hhigh : total / p.div.toUInt32 ≤ 256) :
    ((total / p.div.toUInt32).toUInt16 - 1).toUInt8.toNat + 1 = total.toNat / p.div.toNat := by
  have hquot : (total / p.div.toUInt32).toNat = total.toNat / p.div.toNat := by
    rw [UInt32.toNat_div, UInt16.toNat_toUInt32]
  rw [← hquot]
  generalize total / p.div.toUInt32 = c at hlow hhigh ⊢
  have hlow' : 1 ≤ c.toNat := hlow
  have hhigh' : c.toNat ≤ 256 := hhigh
  rw [UInt16.toNat_toUInt8, UInt16.toNat_sub, UInt32.toNat_toUInt16]
  show (65536 - 1 + c.toNat % 65536) % 65536 % 256 + 1 = c.toNat
  omega

/-- A count of whole prescaled periods is at most one count short. -/
theorem within_of_whole {f div : Nat} (hdiv : 0 < div) (hwhole : 1000000 ∣ f) :
    TickTimer.Within ⟨f, div, f / 1000000 * tickUs.toNat / div⟩ tickUs := by
  obtain ⟨mhz, rfl⟩ := hwhole
  rw [Nat.mul_div_cancel_left _ (by decide : 0 < 1000000)]
  have hcycles : 1000000 * mhz * tickUs.toNat = mhz * tickUs.toNat * 1000000 := by
    rw [Nat.mul_assoc, Nat.mul_comm]
  have hsplit := Nat.div_add_mod (mhz * tickUs.toNat) div
  have hrest := Nat.mod_lt (mhz * tickUs.toNat) hdiv
  rw [Nat.mul_comm] at hsplit
  simp only [TickTimer.Within, hcycles]
  omega

theorem timer0_kept_iff (tb : AvrTimebase) (htick : tickUs ≠ 0) :
    PeriodKept (.avr fCpu tb) tickUs ↔ Representable tickUs (.avr fCpu tb) := by
  refine ⟨fun h => timer0_noWrap_iff.mp (h.noWrap htick), fun h => ?_⟩
  have htotal := timer0_noWrap_iff.mpr h
  have hinit : (Port.avr fCpu tb).init tickUs =
      ((avrTimebaseInit fCpu.1 tickUs tb).1, .avr fCpu (avrTimebaseInit fCpu.1 tickUs tb).2) := by
    rw [Port.init, if_neg htick]
  rw [fCpu_div] at htotal
  cases hpick : pickPresc (fCpu.1 / 1000000 * tickUs) kPresc with
  | none =>
    have hrefused : avrTimebaseInit fCpu.1 tickUs tb = (.errInvalidArg, tb) := by
      rw [avrTimebaseInit, if_neg htick, hpick]
    rw [hrefused] at hinit
    refine ⟨fun hok => ?_, fun _ => ?_, fun _ => timer0_noWrap_iff.mpr h⟩
    · rw [hinit] at hok
      cases hok
    · rw [hinit]
      exact ⟨rfl, rfl⟩
  | some found =>
    obtain ⟨p, count⟩ := found
    obtain ⟨hmem, rfl, hlow, hhigh⟩ := pickPresc_some hpick
    have haccepted : avrTimebaseInit fCpu.1 tickUs tb = (.ok, ⟨0, tickUs,
        ((fCpu.1 / 1000000 * tickUs / p.div.toUInt32).toUInt16 - 1).toUInt8, p.cs⟩) := by
      rw [avrTimebaseInit, if_neg htick, hpick]
    rw [haccepted] at hinit
    obtain ⟨hfind, hdiv⟩ := find_presc hmem
    have hcount := count_within hlow hhigh
    rw [htotal] at hcount
    refine ⟨fun _ => ?_, fun hne => absurd (by rw [hinit]) hne, fun _ => timer0_noWrap_iff.mpr h⟩
    rw [hinit]
    refine ⟨rfl, ⟨fCpu.1.toNat, p.div.toNat, _⟩, ?_, within_of_whole hdiv fCpu.2⟩
    simp only [Port.timer, hfind, Option.map_some, hcount]

end Timer0

/-! ## The PIT -/

section Pit

variable {tickUs : UInt32}

theorem pitDivider_toNat {freqHz : UInt32} (h : freqHz.toNat ≤ 1000000) :
    (pitDivider freqHz).toNat =
      min (1193182 / if freqHz.toNat = 0 then 1000 else freqHz.toNat) 65535 := by
  have hzero : freqHz = 0 ↔ freqHz.toNat = 0 := UInt32.toNat_inj.symm
  have hfreq : (pitInputHz / if freqHz ≠ 0 then freqHz else 1000).toNat =
      1193182 / if freqHz.toNat = 0 then 1000 else freqHz.toNat := by
    rw [UInt32.toNat_div]
    by_cases hf : freqHz = 0
    · simp [hf, pitInputHz]
    · have hne : freqHz.toNat ≠ 0 := fun h => hf (hzero.mpr h)
      simp [hf, hne, pitInputHz]
  have hpos : 1 ≤ 1193182 / if freqHz.toNat = 0 then 1000 else freqHz.toNat := by
    split
    · decide
    · rename_i hf
      exact (Nat.le_div_iff_mul_le (Nat.pos_of_ne_zero hf)).mpr (by omega)
  rw [pitDivider]
  generalize (pitInputHz / if freqHz ≠ 0 then freqHz else 1000) = div at hfreq ⊢
  rw [← hfreq] at hpos ⊢
  have hdiv : div ≠ 0 := by
    rintro rfl
    cases hpos
  simp only [if_neg hdiv]
  split
  · rename_i hlarge
    have hlarge' : 65535 < div.toNat := hlarge
    rw [Nat.min_eq_right (Nat.le_of_lt hlarge')]
    rfl
  · rename_i hsmall
    rw [Nat.min_eq_left]
    exact Nat.le_of_not_lt fun hlt => hsmall hlt

/-- The two bytes make up the divider. -/
theorem pitBytes (div : UInt32) (h : div.toNat ≤ 65535) :
    ((div >>> 8).toUInt8).toNat * 256 + ((div &&& 0xFF).toUInt8).toNat = div.toNat := by
  have hlow : (div &&& 0xFF).toNat = div.toNat % 256 := Nat.and_two_pow_sub_one_eq_mod _ 8
  have hhigh : (div >>> 8).toNat = div.toNat / 256 := by
    rw [UInt32.toNat_shiftRight, Nat.shiftRight_eq_div_pow]
    rfl
  rw [UInt32.toNat_toUInt8, UInt32.toNat_toUInt8, hlow, hhigh]
  omega

/-- The divider of the PIT for a period. -/
def pitCount (t : Nat) : Nat :=
  min (1193182 / if 1000000 / t = 0 then 1000 else 1000000 / t) 65535

theorem pit_within_iff {t : Nat} (ht : 0 < t) :
    pitCount t * 1000000 < 1193182 * t + 1000000 ∧ 1193182 * t < pitCount t * 1000000 + 1000000 ↔
      t ≤ 52631 ∧ 1193182 < 1000000 / t * ((1193182 * t + 999999) / 1000000 + 1) ∨
        t = 54924 ∨ t = 54925 := by
  by_cases hsmall : t ≤ 52631
  · have hfreq : 19 ≤ 1000000 / t := (Nat.le_div_iff_mul_le ht).mpr (by omega)
    have hcount : pitCount t = 1193182 / (1000000 / t) := by
      rw [pitCount, if_neg (by omega), Nat.min_eq_left]
      exact Nat.le_trans (Nat.div_le_div_left hfreq (by decide)) (by decide)
    -- the truncated rate never makes the interval too short
    have hlong : 1193182 * t < pitCount t * 1000000 + 1000000 := by
      rw [hcount]
      calc 1193182 * t
          < 1000000 / t * (1193182 / (1000000 / t) + 1) * t :=
            Nat.mul_lt_mul_of_pos_right (Nat.lt_mul_div_succ _ (by omega)) ht
        _ = (1193182 / (1000000 / t) + 1) * (1000000 / t * t) := by
            rw [Nat.mul_comm (1000000 / t), Nat.mul_assoc]
        _ ≤ (1193182 / (1000000 / t) + 1) * 1000000 :=
            Nat.mul_le_mul_left _ (Nat.div_mul_le_self _ _)
        _ = 1193182 / (1000000 / t) * 1000000 + 1000000 := by
            rw [Nat.add_mul, Nat.one_mul]
    have hshort : pitCount t * 1000000 < 1193182 * t + 1000000 ↔
        1193182 < 1000000 / t * ((1193182 * t + 999999) / 1000000 + 1) := by
      rw [Nat.mul_comm (1000000 / t), ← Nat.div_lt_iff_lt_mul (by omega : 0 < 1000000 / t),
        ← hcount]
      omega
    rw [hshort]
    constructor
    · exact fun h => .inl ⟨hsmall, h.1⟩
    · rintro (h | h | h)
      · exact ⟨h.2, hlong⟩
      · omega
      · omega
  · have hfreq : 1000000 / t ≤ 18 := by
      have hlt : 1000000 / t < 19 := (Nat.div_lt_iff_lt_mul ht).mpr (by omega)
      omega
    by_cases hzero : 1000000 / t = 0
    · have hlarge : 1000000 < t := by
        rcases Nat.div_eq_zero_iff.mp hzero with h | h
        · omega
        · exact h
      have hcount : pitCount t = 1193 := by
        rw [pitCount, if_pos hzero]
        rfl
      rw [hcount]
      omega
    · have hcount : pitCount t = 65535 := by
        rw [pitCount, if_neg hzero, Nat.min_eq_right]
        exact Nat.le_trans (by decide)
          (Nat.div_le_div_left hfreq (Nat.pos_of_ne_zero hzero))
      rw [hcount]
      omega

theorem pit_kept_iff (tscHz tsc : UInt64) (tb : PcTimebase) (htick : tickUs ≠ 0) :
    PeriodKept (.pc tscHz tsc tb) tickUs ↔ Representable tickUs (.pc tscHz tsc tb) := by
  have hpos := toNat_ne_zero htick
  have hfreq : (1000000 / tickUs).toNat = 1000000 / tickUs.toNat := by
    rw [UInt32.toNat_div]
    rfl
  have hdivider : (pitDivider (1000000 / tickUs)).toNat = pitCount tickUs.toNat := by
    rw [pitDivider_toNat (hfreq ▸ Nat.div_le_self _ _), hfreq]
    rfl
  have hbytes := pitBytes (pitDivider (1000000 / tickUs))
    (hdivider ▸ Nat.min_le_right _ _)
  have hinit : ∃ tb', (Port.pc tscHz tsc tb).init tickUs = (.ok, .pc tscHz tsc tb') ∧
      tb'.gTickUs = tickUs ∧
      tb'.pitHigh.toNat * 256 + tb'.pitLow.toNat = pitCount tickUs.toNat := by
    rw [Port.init, if_neg htick, pcTimebaseInit, if_neg htick]
    exact ⟨_, rfl, rfl, hbytes.trans hdivider⟩
  obtain ⟨tb', hinit, htick', hcount⟩ := hinit
  have htimer : (Port.pc tscHz tsc tb').timer = some ⟨1193182, 1, pitCount tickUs.toNat⟩ := by
    rw [← hcount]
    rfl
  have hwithin : TickTimer.Within ⟨1193182, 1, pitCount tickUs.toNat⟩ tickUs ↔
      Representable tickUs (.pc tscHz tsc tb) := by
    simp only [TickTimer.Within, Nat.mul_one, Nat.one_mul, pit_within_iff hpos, Representable,
      htick, false_or]
  rw [← hwithin]
  constructor
  · intro h
    obtain ⟨-, t, ht, hw⟩ := h.accepted (by rw [hinit])
    rw [hinit, htimer] at ht
    cases ht
    exact hw
  · intro hw
    refine ⟨fun _ => ?_, fun hne => absurd (by rw [hinit]) hne, fun _ => trivial⟩
    rw [hinit]
    exact ⟨htick', _, htimer, hw⟩

end Pit

/-! ## Every port -/

theorem zero_kept (port : Port) : PeriodKept port 0 := by
  have hinit : port.init 0 = (.errInvalidArg, port) := by cases port <;> rfl
  refine ⟨fun hok => ?_, fun _ => ?_, fun h => absurd rfl h⟩
  · rw [hinit] at hok
    cases hok
  · rw [hinit]
    exact ⟨rfl, rfl⟩

/-- **An accepted period is the period delivered exactly where the timer of the
port can represent it and nothing on the way wraps or is cut short.** -/
theorem tick_period_kept_iff (port : Port) (tickUs : UInt32) :
    PeriodKept port tickUs ↔ Representable tickUs port := by
  by_cases htick : tickUs = 0
  · subst htick
    refine iff_of_true (zero_kept port) ?_
    cases port with
    | armv7em ahbclk tb => exact .inl rfl
    | avr fCpu tb =>
      show _ * 0 < 4294967296
      omega
    | pc tscHz tsc tb => exact .inl rfl
  · cases port with
    | armv7em ahbclk tb => exact systick_kept_iff tb htick
    | avr fCpu tb => exact timer0_kept_iff tb htick
    | pc tscHz tsc tb => exact pit_kept_iff tscHz tsc tb htick

/-- At 84 MHz a period of 250 ms is accepted, and SysTick ticks every 50 ms; at
16 MHz Timer0 accepts 268.435460 s and ticks every 4 us; the PIT accepts two
seconds and ticks every millisecond. -/
theorem long_ticks_delivered_short :
    ((Port.armv7em 84000000 {}).init 250000).1 = .ok ∧
    ((Port.armv7em 84000000 {}).init 250000).2.timer = some ⟨84000000, 1, 4222784⟩ ∧
    ((Port.avr ⟨16000000, by decide⟩ {}).init 268435460).1 = .ok ∧
    ((Port.avr ⟨16000000, by decide⟩ {}).init 268435460).2.timer = some ⟨16000000, 1, 64⟩ ∧
    ((Port.pc 3000000000 0 {}).init 2000000).1 = .ok ∧
    ((Port.pc 3000000000 0 {}).init 2000000).2.timer = some ⟨1193182, 1, 1193⟩ ∧
    ¬ PeriodKept (.armv7em 84000000 {}) 250000 := by
  refine ⟨by decide, rfl, by decide, rfl, by decide, rfl, fun h => ?_⟩
  obtain ⟨-, t, ht, hw⟩ := h.accepted (by decide)
  cases ht
  exact absurd hw.2 (by decide)

end NavHAL.Arch
