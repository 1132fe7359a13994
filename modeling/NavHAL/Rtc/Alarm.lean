import NavHAL.Arch.Interrupt

/-!
# The alarms of the calendar (`rtc.c`)

The two alarms share one EXTI line and one interrupt.  `hal_rtc_cancel_alarm`
masks the line once neither alarm has a callback; `hal_rtc_set_alarm` without a
callback masks it at once (`alarms_served_iff`).
-/

namespace NavHAL.Rtc

open Arch (Board Part)
open Steps (Always Each)

/-! ## Registers and statics -/

structure RtcState where
  /-- `rtc_ready` -/
  ready : Bool
  /-- The keys have been written to `RTC_WPR`. -/
  unlocked : Bool
  cr : BitVec 32
  isr : BitVec 32
  /-- `RTC_ALRMAR` and `RTC_ALRMBR` -/
  alrmr : Nat → BitVec 32
  imr : BitVec 32
  rtsr : BitVec 32
  pr : BitVec 32
  /-- `alarm_cb`; 0 is NULL. -/
  alarmCb : Nat → BitVec 32
  board : Board
  deriving Inhabited

def halRtcAlarmA : Nat := 0
def halRtcAlarmB : Nat := 1

/-- `RTC_CR_ALRAE`, `RTC_CR_ALRBE` -/
def enable (alarm : Nat) : BitVec 32 := if alarm = halRtcAlarmA then 1#32 <<< 8 else 1#32 <<< 9

/-- `RTC_CR_ALRAIE`, `RTC_CR_ALRBIE` -/
def irqEn (alarm : Nat) : BitVec 32 := if alarm = halRtcAlarmA then 1#32 <<< 12 else 1#32 <<< 13

/-- `RTC_ISR_ALRAF`, `RTC_ISR_ALRBF` -/
def fired (alarm : Nat) : BitVec 32 := if alarm = halRtcAlarmA then 1#32 <<< 8 else 1#32 <<< 9

def extiLineRtcAlarm : BitVec 32 := 1#32 <<< 17

/-- `RTC_Alarm_IRQn` -/
def rtcAlarmIrqn : Int := 41

def writeUnlock (st : RtcState) : RtcState := { st with unlocked := true }

def writeLock (st : RtcState) : RtcState := { st with unlocked := false }

/-- The protected registers ignore writes unless unlocked. -/
def writeCr (v : BitVec 32) (st : RtcState) : RtcState :=
  if st.unlocked then { st with cr := v } else st

def writeAlrmr (alarm : Nat) (v : BitVec 32) (st : RtcState) : RtcState :=
  if st.unlocked then { st with alrmr := fun k => if k = alarm then v else st.alrmr k } else st

/-- `clear_flag`: the flag, and INIT. -/
def clearFlag (flag : BitVec 32) (st : RtcState) : RtcState :=
  { st with isr := st.isr &&& ~~~(flag ||| 1#32 <<< 7) }

def extiLineEnable (line : BitVec 32) (on : Bool) (st : RtcState) : RtcState :=
  let st :=
    if on then { st with rtsr := st.rtsr ||| line, imr := st.imr ||| line }
    else { st with imr := st.imr &&& ~~~line }
  { st with pr := st.pr &&& ~~~line }

/-! ## The driver -/

/-- `hal_rtc_alarm_config_t` -/
structure HalRtcAlarmConfig where
  day : BitVec 8
  hour : BitVec 8
  minute : BitVec 8
  second : BitVec 8
  matchFields : BitVec 8
  dayIsWeekday : Bool

def halRtcMatchSecond : BitVec 8 := 1#8 <<< 0
def halRtcMatchMinute : BitVec 8 := 1#8 <<< 1
def halRtcMatchHour : BitVec 8 := 1#8 <<< 2
def halRtcMatchDay : BitVec 8 := 1#8 <<< 3

def HalRtcAlarmConfig.compares (cfg : HalRtcAlarmConfig) (fields : BitVec 8) : Bool :=
  cfg.matchFields &&& fields ≠ 0

def toBcd (v : BitVec 8) : BitVec 8 := (v / 10) <<< 4 ||| v % 10

/-- The checks of `hal_rtc_set_alarm`. -/
def HalRtcAlarmConfig.valid (cfg : HalRtcAlarmConfig) : Bool :=
  !(decide (cfg.second > 59) || decide (cfg.minute > 59) || decide (cfg.hour > 23)) &&
    !(cfg.compares halRtcMatchDay &&
      (decide (cfg.day < 1) || decide (cfg.day > if cfg.dayIsWeekday then 7 else 31)))

/-- The value of the alarm register. -/
def HalRtcAlarmConfig.reg (cfg : HalRtcAlarmConfig) : BitVec 32 :=
  let reg := (toBcd cfg.second).setWidth 32 <<< 0 ||| (toBcd cfg.minute).setWidth 32 <<< 8 |||
    (toBcd cfg.hour).setWidth 32 <<< 16 ||| (toBcd cfg.day).setWidth 32 <<< 24
  let reg := if cfg.compares halRtcMatchSecond then reg else reg ||| 1#32 <<< 7
  let reg := if cfg.compares halRtcMatchMinute then reg else reg ||| 1#32 <<< 15
  let reg := if cfg.compares halRtcMatchHour then reg else reg ||| 1#32 <<< 23
  let reg := if cfg.compares halRtcMatchDay then reg else reg ||| 1#32 <<< 31
  if cfg.dayIsWeekday then reg ||| 1#32 <<< 30 else reg

section Driver

variable (part : Part) (isr : BitVec 32)

/-- `hal_rtc_set_alarm`; `granted` is whether the wait for ALRxWF ends in time,
`isr` the address of `rtc_alarm_isr`. -/
def halRtcSetAlarm (granted : Bool) (alarm : Nat) (cfg : Option HalRtcAlarmConfig)
    (cb : BitVec 32) (st : RtcState) : HalStatus × RtcState :=
  if st.ready = false then (.errNotInitialized, st)
  else match cfg with
    | none => (.errInvalidArg, st)
    | some cfg =>
      if alarm ≠ halRtcAlarmA ∧ alarm ≠ halRtcAlarmB then (.errInvalidArg, st)
      else if cfg.valid = false then (.errInvalidArg, st)
      else
        let st := { st with alarmCb := fun k => if k = alarm then cb else st.alarmCb k }
        let st := writeUnlock st
        let st := writeCr (st.cr &&& ~~~(enable alarm ||| irqEn alarm)) st
        if granted = false then (.errTimeout, writeLock st)
        else
          let st := writeAlrmr alarm cfg.reg st
          let st := clearFlag (fired alarm) st
          let st := writeCr (st.cr ||| (enable alarm ||| if cb ≠ 0 then irqEn alarm else 0)) st
          let st := writeLock st
          let st := extiLineEnable extiLineRtcAlarm (cb ≠ 0) st
          if cb ≠ 0 then
            let board := (Arch.halInterruptAttachCallback part rtcAlarmIrqn isr st.board).2
            (.ok, { st with board := (Arch.halInterruptEnable part rtcAlarmIrqn board).2 })
          else (.ok, st)

def halRtcCancelAlarm (alarm : Nat) (st : RtcState) : HalStatus × RtcState :=
  if st.ready = false then (.errNotInitialized, st)
  else if alarm ≠ halRtcAlarmA ∧ alarm ≠ halRtcAlarmB then (.errInvalidArg, st)
  else
    let st := writeUnlock st
    let st := writeCr (st.cr &&& ~~~(enable alarm ||| irqEn alarm)) st
    let st := clearFlag (fired alarm) st
    let st := writeLock st
    let st := { st with alarmCb := fun k => if k = alarm then 0 else st.alarmCb k }
    if st.alarmCb halRtcAlarmA = 0 ∧ st.alarmCb halRtcAlarmB = 0 then
      (.ok, extiLineEnable extiLineRtcAlarm false st)
    else (.ok, st)

/-! ## Runs -/

inductive AlarmCall
  | setAlarm (alarm : Nat) (cfg : Option HalRtcAlarmConfig) (cb : BitVec 32)
  | cancelAlarm (alarm : Nat)

def AlarmCall.alarm : AlarmCall → Nat
  | .setAlarm alarm _ _ => alarm
  | .cancelAlarm alarm => alarm

/-- The call, with ALRxWF granted. -/
def AlarmCall.perform (st : RtcState) : AlarmCall → HalStatus × RtcState
  | .setAlarm alarm cfg cb => halRtcSetAlarm part isr true alarm cfg cb st
  | .cancelAlarm alarm => halRtcCancelAlarm alarm st

/-- `RTC_CR` has the interrupt of the alarm enabled. -/
def RtcState.ie (st : RtcState) (alarm : Nat) : Bool := st.cr &&& irqEn alarm ≠ 0

def RtcState.unmasked (st : RtcState) : Bool := st.imr &&& extiLineRtcAlarm ≠ 0

/-- A match of the alarm reaches the core. -/
def RtcState.interrupts (st : RtcState) (alarm : Nat) : Bool :=
  st.ie alarm && st.unmasked && BitBank.bit st.board.nvic.enabled rtcAlarmIrqn.toNat

/-- The other alarm. -/
def other (alarm : Nat) : Nat := if alarm = halRtcAlarmA then halRtcAlarmB else halRtcAlarmA

structure AlarmRun where
  rtc : RtcState
  /-- A call on one alarm has changed whether the other one interrupts. -/
  disturbed : Bool

def alarmStep (run : AlarmRun) (call : AlarmCall) : AlarmRun where
  rtc := (call.perform part isr run.rtc).2
  disturbed := run.disturbed ||
    ((call.alarm = halRtcAlarmA ∨ call.alarm = halRtcAlarmB) &&
      (call.perform part isr run.rtc).2.interrupts (other call.alarm) !=
        run.rtc.interrupts (other call.alarm))

end Driver

/-- The line is open for the alarms that have a callback, and for them only. -/
structure AlarmsServed (run : AlarmRun) : Prop where
  line : run.rtc.unmasked = true ↔
    run.rtc.alarmCb halRtcAlarmA ≠ 0 ∨ run.rtc.alarmCb halRtcAlarmB ≠ 0
  ieA : run.rtc.ie halRtcAlarmA = true ↔ run.rtc.alarmCb halRtcAlarmA ≠ 0
  ieB : run.rtc.ie halRtcAlarmB = true ↔ run.rtc.alarmCb halRtcAlarmB ≠ 0
  undisturbed : run.disturbed = false

/-- A call that programs its alarm. -/
def AlarmCall.accepted : AlarmCall → Prop
  | .setAlarm alarm cfg _ =>
    (alarm = halRtcAlarmA ∨ alarm = halRtcAlarmB) ∧ ∃ c, cfg = some c ∧ c.valid = true
  | .cancelAlarm alarm => alarm = halRtcAlarmA ∨ alarm = halRtcAlarmB

/-- An alarm is set without a callback only while the other one has none. -/
def SilentAlone (run : AlarmRun) : AlarmCall → Prop
  | .setAlarm alarm cfg cb =>
    (AlarmCall.setAlarm alarm cfg cb).accepted → cb = 0 → run.rtc.alarmCb (other alarm) = 0
  | .cancelAlarm _ => True

/-- After `hal_rtc_init`: no callback, the line masked.  The control register is
in the backup domain and may come from an earlier boot. -/
def AlarmRun.afterInit (st : RtcState) : AlarmRun where
  rtc :=
    { st with
      ready := true
      alarmCb := fun _ => 0
      imr := st.imr &&& ~~~extiLineRtcAlarm }
  disturbed := false

/-- After every call of a run. -/
def ServedAfter (part : Part) (isr : BitVec 32) (run : AlarmRun) : List AlarmCall → Prop
  | [] => True
  | call :: calls => Always (alarmStep part isr) AlarmsServed (alarmStep part isr run call) calls

def IsAlarm (alarm : Nat) : Prop := alarm = halRtcAlarmA ∨ alarm = halRtcAlarmB

/-- No interrupt enable is left over, but for an alarm that the first call programs. -/
def NoneLeftOver (run : AlarmRun) : List AlarmCall → Prop
  | [] => True
  | call :: _ => ∀ alarm, IsAlarm alarm → (call.accepted → alarm ≠ call.alarm) →
      run.rtc.ie alarm = false

/-! ## What a call does -/

section Calls

variable {part : Part} {isr cb : BitVec 32} {alarm : Nat} {cfg : HalRtcAlarmConfig}
  {st st' : RtcState}

theorem IsAlarm.known (h : IsAlarm alarm) :
    ¬ (alarm ≠ halRtcAlarmA ∧ alarm ≠ halRtcAlarmB) := by
  rintro ⟨hA, hB⟩
  exact h.elim hA hB

/-- The registers after an alarm without a callback is set. -/
theorem setAlarm_silent (hready : st.ready = true) (halarm : IsAlarm alarm)
    (hvalid : cfg.valid = true) :
    (halRtcSetAlarm part isr true alarm (some cfg) 0 st).2 =
      { st with
        unlocked := false
        cr := (st.cr &&& ~~~(enable alarm ||| irqEn alarm)) ||| (enable alarm ||| 0)
        isr := st.isr &&& ~~~(fired alarm ||| 1#32 <<< 7)
        alrmr := fun k => if k = alarm then cfg.reg else st.alrmr k
        imr := st.imr &&& ~~~extiLineRtcAlarm
        pr := st.pr &&& ~~~extiLineRtcAlarm
        alarmCb := fun k => if k = alarm then 0 else st.alarmCb k } := by
  rw [halRtcSetAlarm, if_neg (by simp [hready])]
  simp only []
  rw [if_neg halarm.known, if_neg (by simp [hvalid])]
  rfl

theorem setAlarm_callback (hready : st.ready = true) (halarm : IsAlarm alarm)
    (hvalid : cfg.valid = true) (hcb : cb ≠ 0) :
    (halRtcSetAlarm part isr true alarm (some cfg) cb st).2 =
      { st with
        unlocked := false
        cr := (st.cr &&& ~~~(enable alarm ||| irqEn alarm)) ||| (enable alarm ||| irqEn alarm)
        isr := st.isr &&& ~~~(fired alarm ||| 1#32 <<< 7)
        alrmr := fun k => if k = alarm then cfg.reg else st.alrmr k
        rtsr := st.rtsr ||| extiLineRtcAlarm
        imr := st.imr ||| extiLineRtcAlarm
        pr := st.pr &&& ~~~extiLineRtcAlarm
        alarmCb := fun k => if k = alarm then cb else st.alarmCb k
        board := (Arch.halInterruptEnable part rtcAlarmIrqn
          (Arch.halInterruptAttachCallback part rtcAlarmIrqn isr st.board).2).2 } := by
  rw [halRtcSetAlarm, if_neg (by simp [hready])]
  simp only []
  rw [if_neg halarm.known, if_neg (by simp [hvalid])]
  simp only [writeUnlock, writeCr, writeAlrmr, clearFlag, writeLock, extiLineEnable, if_true,
    if_pos hcb, decide_eq_true hcb]
  rfl

theorem cancelAlarm_eq (hready : st.ready = true) (halarm : IsAlarm alarm) :
    (halRtcCancelAlarm alarm st).2 =
      let st' :=
        { st with
          unlocked := false
          cr := st.cr &&& ~~~(enable alarm ||| irqEn alarm)
          isr := st.isr &&& ~~~(fired alarm ||| 1#32 <<< 7)
          alarmCb := fun k => if k = alarm then 0 else st.alarmCb k }
      if st.alarmCb (other alarm) = 0 then extiLineEnable extiLineRtcAlarm false st' else st' := by
  rw [halRtcCancelAlarm, if_neg (by simp [hready]), if_neg halarm.known]
  simp only [writeUnlock, writeCr, clearFlag, writeLock, if_true]
  rw [apply_ite Prod.snd]
  rcases halarm with rfl | rfl <;> simp [other, halRtcAlarmA, halRtcAlarmB]

theorem refused_eq (call : AlarmCall) (h : ¬ call.accepted) :
    (call.perform part isr st).2 = st := by
  cases call with
  | setAlarm alarm cfg cb =>
    simp only [AlarmCall.perform, halRtcSetAlarm]
    split
    · rfl
    · cases cfg with
      | none => rfl
      | some cfg =>
        simp only []
        split
        · rfl
        next halarm =>
        split
        · rfl
        next hvalid =>
        refine absurd ⟨?_, cfg, rfl, by simpa using hvalid⟩ h
        exact Classical.byContradiction fun hn => halarm (not_or.mp hn)
  | cancelAlarm alarm =>
    simp only [AlarmCall.perform, halRtcCancelAlarm]
    split
    · rfl
    · rw [if_pos (not_or.mp h)]

/-! ## The interrupt enable bits and the line -/

theorem and_mask (v m w c : BitVec 32) :
    (v &&& ~~~m ||| w) &&& c = (v &&& (~~~m &&& c)) ||| (w &&& c) := by
  rw [BitVec.and_or_distrib_right, BitVec.and_assoc]

/-- The alarm has been given `cb`; the other one's bit and callback are as before. -/
structure Reprogrammed (alarm : Nat) (cb : BitVec 32) (st st' : RtcState) : Prop where
  callback : st'.alarmCb alarm = cb
  callbackOther : st'.alarmCb (other alarm) = st.alarmCb (other alarm)
  ie : st'.ie alarm = decide (cb ≠ 0)
  ieOther : st'.ie (other alarm) = st.ie (other alarm)
  ready : st'.ready = st.ready

theorem Reprogrammed.of_cr (halarm : IsAlarm alarm) {w : BitVec 32}
    (hcb : st'.alarmCb = fun k => if k = alarm then cb else st.alarmCb k)
    (hcr : st'.cr = (st.cr &&& ~~~(enable alarm ||| irqEn alarm)) ||| w)
    (hw : w = enable alarm ||| irqEn alarm ∧ cb ≠ 0 ∨ (w = enable alarm ||| 0 ∨ w = 0) ∧ cb = 0)
    (hready : st'.ready = st.ready) : Reprogrammed alarm cb st st' := by
  have hother : other alarm ≠ alarm := by rcases halarm with rfl | rfl <;> decide
  refine ⟨by rw [hcb]; exact if_pos rfl, by rw [hcb]; exact if_neg hother, ?_, ?_, hready⟩
  · rw [RtcState.ie, hcr, and_mask]
    rcases halarm with rfl | rfl <;> rcases hw with ⟨rfl, hne⟩ | ⟨rfl | rfl, rfl⟩ <;>
      simp_all [enable, irqEn, halRtcAlarmA, halRtcAlarmB]
  · rw [RtcState.ie, RtcState.ie, hcr, and_mask]
    rcases halarm with rfl | rfl <;> rcases hw with ⟨rfl, -⟩ | ⟨rfl | rfl, -⟩ <;>
      simp [enable, irqEn, other, halRtcAlarmA, halRtcAlarmB]

theorem setAlarm_reprograms (hready : st.ready = true) (halarm : IsAlarm alarm)
    (hvalid : cfg.valid = true) :
    Reprogrammed alarm cb st (halRtcSetAlarm part isr true alarm (some cfg) cb st).2 := by
  by_cases hcb : cb = 0
  · subst hcb
    rw [setAlarm_silent hready halarm hvalid]
    exact .of_cr halarm rfl rfl (.inr ⟨.inl rfl, rfl⟩) rfl
  · rw [setAlarm_callback hready halarm hvalid hcb]
    exact .of_cr halarm rfl rfl (.inl ⟨rfl, hcb⟩) rfl

theorem cancelAlarm_reprograms (hready : st.ready = true) (halarm : IsAlarm alarm) :
    Reprogrammed alarm 0 st (halRtcCancelAlarm alarm st).2 := by
  rw [cancelAlarm_eq hready halarm]
  simp only []
  split
  · exact .of_cr halarm rfl (BitVec.or_zero).symm (.inr ⟨.inr rfl, rfl⟩) rfl
  · exact .of_cr halarm rfl (BitVec.or_zero).symm (.inr ⟨.inr rfl, rfl⟩) rfl

theorem or_line (v : BitVec 32) : (v ||| extiLineRtcAlarm) &&& extiLineRtcAlarm ≠ 0 := by
  intro h
  have hbit := congrArg (BitVec.getLsbD · 17) h
  simp [extiLineRtcAlarm] at hbit

theorem clear_line (v : BitVec 32) : (v &&& ~~~extiLineRtcAlarm) &&& extiLineRtcAlarm = 0 := by
  simp [BitVec.and_assoc]

theorem setAlarm_line (hready : st.ready = true) (halarm : IsAlarm alarm)
    (hvalid : cfg.valid = true) :
    let st' := (halRtcSetAlarm part isr true alarm (some cfg) cb st).2
    st'.unmasked = decide (cb ≠ 0) ∧
      (cb ≠ 0 → BitBank.bit st'.board.nvic.enabled rtcAlarmIrqn.toNat = true) := by
  by_cases hcb : cb = 0
  · subst hcb
    simp only [setAlarm_silent hready halarm hvalid]
    simp [RtcState.unmasked, clear_line]
  · simp only [setAlarm_callback hready halarm hvalid hcb]
    refine ⟨?_, fun _ => ?_⟩
    · exact (decide_eq_true (or_line _)).trans (decide_eq_true hcb).symm
    · exact (Arch.enable_bit rtcAlarmIrqn _ (by decide) _).trans (if_pos rfl)

theorem cancelAlarm_line (hready : st.ready = true) (halarm : IsAlarm alarm) :
    let st' := (halRtcCancelAlarm alarm st).2
    st'.unmasked = (st.unmasked && decide (st.alarmCb (other alarm) ≠ 0)) ∧
      st'.board = st.board := by
  simp only [cancelAlarm_eq hready halarm]
  by_cases hnone : st.alarmCb (other alarm) = 0
  · rw [if_pos hnone, decide_eq_false (not_not_intro hnone), Bool.and_false]
    exact ⟨decide_eq_false (not_not_intro (clear_line _)), rfl⟩
  · rw [if_neg hnone, decide_eq_true hnone, Bool.and_true]
    exact ⟨rfl, rfl⟩

/-! ## Steps -/

/-- What a call on `alarm` finds of the other one. -/
structure OtherServed (alarm : Nat) (run : AlarmRun) : Prop where
  ready : run.rtc.ready = true
  undisturbed : run.disturbed = false
  ie : run.rtc.ie (other alarm) = true ↔ run.rtc.alarmCb (other alarm) ≠ 0
  wired : run.rtc.alarmCb (other alarm) ≠ 0 → run.rtc.unmasked = true ∧
    BitBank.bit run.rtc.board.nvic.enabled rtcAlarmIrqn.toNat = true

/-- What a run keeps. -/
structure AlarmInvariant (run : AlarmRun) : Prop where
  served : AlarmsServed run
  ready : run.rtc.ready = true
  wired : run.rtc.unmasked = true →
    BitBank.bit run.rtc.board.nvic.enabled rtcAlarmIrqn.toNat = true

variable {run : AlarmRun}

theorem AlarmInvariant.otherServed (h : AlarmInvariant run) (halarm : IsAlarm alarm) :
    OtherServed alarm run := by
  refine ⟨h.ready, h.served.undisturbed, ?_, fun hcb => ?_⟩
  · rcases halarm with rfl | rfl
    · exact h.served.ieB
    · exact h.served.ieA
  · have hline : run.rtc.unmasked = true := by
      rw [h.served.line]
      rcases halarm with rfl | rfl
      · exact .inr hcb
      · exact .inl hcb
    exact ⟨hline, h.wired hline⟩

/-- The other alarm interrupts as before if the line is open where it is needed. -/
theorem OtherServed.interrupts_eq (h : OtherServed alarm run)
    (hprog : Reprogrammed alarm cb run.rtc st')
    (hopen : run.rtc.alarmCb (other alarm) ≠ 0 → st'.unmasked = true ∧
      BitBank.bit st'.board.nvic.enabled rtcAlarmIrqn.toNat = true) :
    st'.interrupts (other alarm) = run.rtc.interrupts (other alarm) := by
  rw [RtcState.interrupts, RtcState.interrupts, hprog.ieOther]
  by_cases hcb : run.rtc.alarmCb (other alarm) = 0
  · have hie : run.rtc.ie (other alarm) = false := by
      rw [← Bool.not_eq_true, h.ie]
      exact not_not_intro hcb
    rw [hie, Bool.false_and, Bool.false_and, Bool.false_and, Bool.false_and]
  · rw [(hopen hcb).1, (hopen hcb).2, (h.wired hcb).1, (h.wired hcb).2]

/-- A call that reprograms its alarm and leaves the line open for those that need it. -/
theorem OtherServed.invariant (h : OtherServed alarm run) (halarm : IsAlarm alarm)
    (hprog : Reprogrammed alarm cb run.rtc st')
    (hline : st'.unmasked = true ↔ cb ≠ 0 ∨ run.rtc.alarmCb (other alarm) ≠ 0)
    (hwired : st'.unmasked = true →
      BitBank.bit st'.board.nvic.enabled rtcAlarmIrqn.toNat = true) {disturbed : Bool}
    (hdisturbed : disturbed = true →
      st'.interrupts (other alarm) ≠ run.rtc.interrupts (other alarm)) :
    AlarmInvariant ⟨st', disturbed⟩ := by
  have hie : st'.ie alarm = true ↔ st'.alarmCb alarm ≠ 0 := by
    rw [hprog.ie, hprog.callback, decide_eq_true_iff]
  have hieOther : st'.ie (other alarm) = true ↔ st'.alarmCb (other alarm) ≠ 0 := by
    rw [hprog.ieOther, hprog.callbackOther, h.ie]
  rw [← hprog.callback, ← hprog.callbackOther] at hline
  have hsame : disturbed = false := by
    rw [← Bool.not_eq_true]
    refine fun hd => hdisturbed hd (h.interrupts_eq hprog fun hcb => ?_)
    have hopen := hline.mpr (.inr (by rwa [hprog.callbackOther]))
    exact ⟨hopen, hwired hopen⟩
  refine ⟨?_, hprog.ready.trans h.ready, hwired⟩
  rcases halarm with rfl | rfl
  · exact ⟨hline, hie, hieOther, hsame⟩
  · exact ⟨hline.trans or_comm, hieOther, hie, hsame⟩

theorem disturbed_alarmStep (h : run.disturbed = false) (call : AlarmCall) :
    (alarmStep part isr run call).disturbed = true →
      (call.perform part isr run.rtc).2.interrupts (other call.alarm) ≠
        run.rtc.interrupts (other call.alarm) := by
  simp [alarmStep, h]

theorem accepted_step (call : AlarmCall) (haccepted : call.accepted)
    (h : OtherServed call.alarm run) (halone : SilentAlone run call) :
    AlarmInvariant (alarmStep part isr run call) := by
  have hdisturbed := @disturbed_alarmStep part isr run h.undisturbed call
  cases call with
  | setAlarm alarm cfg cb =>
    obtain ⟨halarm, cfg, rfl, hvalid⟩ := id haccepted
    replace h : OtherServed alarm run := h
    obtain ⟨hline, hwired⟩ :=
      @setAlarm_line part isr cb alarm cfg run.rtc h.ready halarm hvalid
    refine h.invariant halarm (setAlarm_reprograms h.ready halarm hvalid) ?_ ?_ hdisturbed
    · rw [hline, decide_eq_true_iff]
      exact ⟨.inl, fun hcb => hcb.elim id fun hother hcb => hother (halone haccepted hcb)⟩
    · rw [hline, decide_eq_true_iff]
      exact hwired
  | cancelAlarm alarm =>
    replace h : OtherServed alarm run := h
    obtain ⟨hline, hboard⟩ := cancelAlarm_line h.ready haccepted
    refine h.invariant haccepted (cancelAlarm_reprograms h.ready haccepted) ?_ ?_ hdisturbed
    · rw [hline, Bool.and_eq_true, decide_eq_true_iff]
      exact ⟨fun hcb => .inr hcb.2, fun hcb => hcb.elim (absurd rfl) fun hother =>
        ⟨(h.wired hother).1, hother⟩⟩
    · rw [hline, Bool.and_eq_true, decide_eq_true_iff, hboard]
      exact fun hcb => (h.wired hcb.2).2

theorem refused_step (call : AlarmCall) (hrefused : ¬ call.accepted) :
    alarmStep part isr run call = run := by
  have hsame := @refused_eq part isr run.rtc call hrefused
  simp [alarmStep, hsame]

/-- Without a callback for it, the alarm that is set closes the line. -/
theorem silentAlone_of_served (call : AlarmCall) (h : OtherServed call.alarm run)
    (hserved : AlarmsServed (alarmStep part isr run call)) : SilentAlone run call := by
  cases call with
  | cancelAlarm alarm => trivial
  | setAlarm alarm cfg cb =>
    rintro ⟨halarm, cfg, rfl, hvalid⟩ rfl
    replace h : OtherServed alarm run := h
    obtain ⟨hclosed, -⟩ :=
      @setAlarm_line part isr 0 alarm cfg run.rtc h.ready halarm hvalid
    have hprog := @setAlarm_reprograms part isr 0 alarm cfg run.rtc h.ready halarm hvalid
    have hline := (not_congr hserved.line).mp (by
      show ¬ (halRtcSetAlarm part isr true alarm (some cfg) 0 run.rtc).2.unmasked = true
      rw [hclosed]
      decide)
    rw [← hprog.callbackOther]
    rw [not_or] at hline
    rcases halarm with rfl | rfl
    · exact Classical.not_not.mp hline.2
    · exact Classical.not_not.mp hline.1

/-! ## Runs -/

theorem AlarmCall.accepted.isAlarm {call : AlarmCall} (h : call.accepted) :
    IsAlarm call.alarm := by
  cases call with
  | setAlarm alarm cfg cb => exact h.1
  | cancelAlarm alarm => exact h

theorem AlarmCall.accepted.reprograms {call : AlarmCall} (h : call.accepted)
    (hready : st.ready = true) :
    ∃ cb, Reprogrammed call.alarm cb st (call.perform part isr st).2 := by
  cases call with
  | setAlarm alarm cfg cb =>
    obtain ⟨halarm, cfg, rfl, hvalid⟩ := h
    exact ⟨cb, setAlarm_reprograms hready halarm hvalid⟩
  | cancelAlarm alarm => exact ⟨0, cancelAlarm_reprograms hready h⟩

theorem AlarmInvariant.step (h : AlarmInvariant run) (call : AlarmCall)
    (halone : SilentAlone run call) : AlarmInvariant (alarmStep part isr run call) := by
  by_cases haccepted : call.accepted
  · exact accepted_step call haccepted (h.otherServed haccepted.isAlarm) halone
  · rw [refused_step call haccepted]
    exact h

theorem AlarmInvariant.silentAlone (h : AlarmInvariant run) (call : AlarmCall)
    (hserved : AlarmsServed (alarmStep part isr run call)) : SilentAlone run call := by
  by_cases haccepted : call.accepted
  · exact silentAlone_of_served call (h.otherServed haccepted.isAlarm) hserved
  · cases call with
    | setAlarm alarm cfg cb => exact fun ha => absurd ha haccepted
    | cancelAlarm alarm => trivial

theorem AlarmsServed.ie (h : AlarmsServed run) (halarm : IsAlarm alarm) :
    run.rtc.ie alarm = true ↔ run.rtc.alarmCb alarm ≠ 0 := by
  rcases halarm with rfl | rfl
  · exact h.ieA
  · exact h.ieB

theorem other_isAlarm (alarm : Nat) : IsAlarm (other alarm) := by
  unfold other
  split
  · exact .inr rfl
  · exact .inl rfl

end Calls

section Init

variable {part : Part} {isr : BitVec 32} {st : RtcState} {call : AlarmCall}

theorem silentAlone_afterInit (st : RtcState) (call : AlarmCall) :
    SilentAlone (.afterInit st) call := by
  cases call with
  | setAlarm alarm cfg cb => exact fun _ _ => rfl
  | cancelAlarm alarm => trivial

/-- The first call finds the bits as the last boot has left them. -/
theorem noneLeftOver_of_served (calls : List AlarmCall)
    (h : AlarmsServed (alarmStep part isr (.afterInit st) call)) :
    NoneLeftOver (.afterInit st) (call :: calls) := by
  intro alarm halarm hcall
  rw [← Bool.not_eq_true]
  by_cases haccepted : call.accepted
  · have hother : alarm = other call.alarm := by
      have hne := hcall haccepted
      rcases halarm with rfl | rfl <;> rcases haccepted.isAlarm with hc | hc <;>
        rw [hc] at hne ⊢ <;> first | rfl | exact absurd rfl hne
    obtain ⟨cb, hprog⟩ := @AlarmCall.accepted.reprograms part isr
      (AlarmRun.afterInit st).rtc call haccepted rfl
    have hie := h.ie (other_isAlarm call.alarm)
    rw [hother, ← hprog.ieOther]
    exact fun htrue => hie.mp htrue hprog.callbackOther
  · rw [refused_step call haccepted] at h
    exact fun htrue => (h.ie halarm).mp htrue rfl

theorem first_step (calls : List AlarmCall)
    (h : NoneLeftOver (.afterInit st) (call :: calls)) :
    AlarmInvariant (alarmStep part isr (.afterInit st) call) := by
  have hmasked : (AlarmRun.afterInit st).rtc.unmasked = false :=
    decide_eq_false (not_not_intro (clear_line _))
  by_cases haccepted : call.accepted
  · refine accepted_step call haccepted ⟨rfl, rfl, ?_, fun hcb => absurd rfl hcb⟩
      (silentAlone_afterInit st call)
    have hne : other call.alarm ≠ call.alarm := by
      rcases haccepted.isAlarm with hc | hc <;> rw [hc] <;> decide
    rw [h _ (other_isAlarm call.alarm) fun _ => hne]
    exact ⟨Bool.noConfusion, fun hcb => absurd rfl hcb⟩
  · rw [refused_step call haccepted]
    refine ⟨⟨?_, ?_, ?_, rfl⟩, rfl, ?_⟩
    · rw [hmasked]
      exact ⟨Bool.noConfusion, fun hcb => hcb.elim (absurd rfl) (absurd rfl)⟩
    · rw [h _ (.inl rfl) fun ha => absurd ha haccepted]
      exact ⟨Bool.noConfusion, fun hcb => absurd rfl hcb⟩
    · rw [h _ (.inr rfl) fun ha => absurd ha haccepted]
      exact ⟨Bool.noConfusion, fun hcb => absurd rfl hcb⟩
    · rw [hmasked]
      exact Bool.noConfusion

end Init

/-- **The line and the enable bits are those of the alarms with a callback after
every call, exactly when no alarm is set without one while the other has one, and
no enable bit is left over from an earlier boot.** -/
theorem alarms_served_iff (part : Part) (isr : BitVec 32) (st : RtcState)
    (calls : List AlarmCall) :
    ServedAfter part isr (.afterInit st) calls ↔
      NoneLeftOver (.afterInit st) calls ∧
        Each (alarmStep part isr) SilentAlone (.afterInit st) calls := by
  cases calls with
  | nil => exact ⟨fun _ => ⟨trivial, trivial⟩, fun _ => trivial⟩
  | cons call calls =>
    have hrest : AlarmInvariant (alarmStep part isr (.afterInit st) call) →
        (Always (alarmStep part isr) AlarmsServed (alarmStep part isr (.afterInit st) call) calls ↔
          Each (alarmStep part isr) SilentAlone (alarmStep part isr (.afterInit st) call) calls) :=
      Steps.always_iff_each_of (fun _ h => h.served) (fun _ call h => h.silentAlone call)
        (fun _ call h => h.step call) calls
    constructor
    · intro h
      have hnone := @noneLeftOver_of_served part isr st call calls h.head
      exact ⟨hnone, silentAlone_afterInit st call, (hrest (first_step calls hnone)).mp h⟩
    · rintro ⟨hnone, -, heach⟩
      exact (hrest (first_step calls hnone)).mpr heach

/-! ## A polled alarm next to one with a callback -/

/-- Second 30 of every minute. -/
def everyMinute : HalRtcAlarmConfig := ⟨0, 0, 0, 30, halRtcMatchSecond, false⟩

def polledAlarm : List AlarmCall :=
  [.setAlarm halRtcAlarmB (some everyMinute) 0x08001000,
    .setAlarm halRtcAlarmA (some everyMinute) 0]

theorem polled_alarm_masks_other :
    let run := Steps.run (alarmStep Arch.stm32f4 0x08000800) (.afterInit default) polledAlarm
    run.rtc.alarmCb halRtcAlarmB = 0x08001000 ∧ run.rtc.unmasked = false ∧
      run.disturbed = true ∧ ¬ AlarmsServed run := by
  intro run
  have hrun : run.rtc.alarmCb halRtcAlarmB = 0x08001000 ∧ run.rtc.unmasked = false ∧
      run.disturbed = true := by decide
  refine ⟨hrun.1, hrun.2.1, hrun.2.2, fun h => ?_⟩
  exact absurd (h.undisturbed.symm.trans hrun.2.2) (by decide)

end NavHAL.Rtc
