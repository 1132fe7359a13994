import NavHAL.Usb.Device

/-!
# Line coding

SET_LINE_CODING is a SETUP packet and then one packet of seven bytes.  The
reference `lineStep` follows the control endpoint and changes its coding only
when that packet came next after the SETUP packet; the driver instead keeps
`ctrl_out_request` until endpoint 0 completes an OUT transfer, whichever
transfer that belongs to.
-/

namespace NavHAL.Usb

open Steps (run Always Each)

/-! ## The reference -/

/-- How far a SET_LINE_CODING has come. -/
inductive LineStage
  | idle
  | awaiting
  | arrived (data : List UInt8)
  deriving DecidableEq

def SetupPacket.setsLine (pkt : SetupPacket) : Prop :=
  pkt.type = 0x01 ∧ pkt.bRequest = cdcSetLineCoding

instance (pkt : SetupPacket) : Decidable pkt.setsLine :=
  inferInstanceAs (Decidable (_ ∧ _))

def LineStage.receive (data : List UInt8) : LineStage → LineStage
  | .awaiting => if data.length = 7 then .arrived data else .idle
  | _ => .idle

def LineStage.hasArrived : LineStage → Bool
  | .arrived _ => true
  | _ => false

/-- The device with the reference next to it. -/
structure LineState where
  usb : UsbState
  stage : LineStage
  coding : List UInt8
  /-- A SET_LINE_CODING came, and since then no OUT transfer of endpoint 0 has
  completed and the bus was not reset. -/
  outstanding : Bool
  /-- An OUT completion has queued a status packet that no data stage asked for. -/
  strayStatus : Bool

def LineState.powerOn : LineState where
  usb := Usb.powerOn
  stage := .idle
  coding := Usb.powerOn.control.lineCoding
  outstanding := false
  strayStatus := false

/-- The steps from `st` to `st'` queue an empty IN packet on endpoint 0. -/
def queuesStatus (st st' : UsbState) : Bool :=
  (st'.control.ops.drop st.control.ops.length).contains (.send [] 1)

def lineStep (ls : LineState) (ev : UsbEvent) : LineState :=
  let ls' := { ls with usb := usbStep ls.usb ev }
  match ev with
  | .busReset => { ls' with stage := .idle, outstanding := false }
  | .setup pkt =>
    { ls' with
      stage := if pkt.setsLine then .awaiting else .idle
      outstanding := ls.outstanding || pkt.setsLine }
  | .controlData data => { ls' with stage := ls.stage.receive data }
  | .controlOutDone =>
    { ls' with
      stage := .idle
      coding := match ls.stage with
        | .arrived data => data
        | _ => ls.coding
      outstanding := false
      strayStatus := ls.strayStatus || (queuesStatus ls.usb ls'.usb && !ls.stage.hasArrived) }
  | _ => ls'

/-- The driver has the reference's coding, and queued no stray status packet. -/
structure LineFaithful (ls : LineState) : Prop where
  coding : ls.usb.control.lineCoding = ls.coding
  status : ls.strayStatus = false

/-- No OUT transfer completes while a SET_LINE_CODING is outstanding, but that of
its own data. -/
def CompletesOwn (ls : LineState) : UsbEvent → Prop
  | .controlOutDone => ls.outstanding = true → ls.stage.hasArrived = true
  | _ => True

/-! ## What the driver does to its statics -/

section Requests

variable {pkt : SetupPacket} {st st' : UsbState}

/-- The pending request and the line coding stay. -/
structure KeepsLine (st st' : UsbState) : Prop where
  request : st'.control.ctrlOutRequest = st.control.ctrlOutRequest
  coding : st'.control.lineCoding = st.control.lineCoding

theorem handleGetDescriptor_keepsLine (wValue wLength : UInt16) (st : UsbState) :
    KeepsLine st (handleGetDescriptor wValue wLength st) := by
  unfold handleGetDescriptor
  simp only []
  repeat' split
  all_goals exact ⟨rfl, rfl⟩

theorem handleStandardRequest_keepsLine (h : handleStandardRequest pkt st = some st') :
    KeepsLine st st' := by
  have hof : ∀ {st'' : UsbState}, st''.control = st.control →
      KeepsLine st (ep0Send [] 0 st'') := by
    intro st'' hc
    constructor
    · show st''.control.ctrlOutRequest = _
      rw [hc]
    · show st''.control.lineCoding = _
      rw [hc]
  cases handleStandardRequest_cases h with
  | descriptor => exact handleGetDescriptor_keepsLine ..
  | read => exact ⟨rfl, rfl⟩
  | feature =>
    apply hof
    split
    · exact epSetHalt_control ..
    · rfl
  | _ => exact hof rfl

theorem handleClassRequest_line (htype : pkt.type = 0x01)
    (h : handleClassRequest pkt st = some st') :
    st'.control.lineCoding = st.control.lineCoding ∧
    st'.control.ctrlOutRequest =
      if pkt.setsLine then cdcSetLineCoding else st.control.ctrlOutRequest := by
  unfold handleClassRequest at h
  split at h
  · next hreq =>
    rw [if_pos ⟨htype, hreq⟩]
    cases h
    exact ⟨rfl, hreq⟩
  · next hreq =>
    rw [if_neg fun hset : pkt.setsLine => hreq hset.2]
    repeat' split at h
    all_goals cases h
    all_goals exact ⟨rfl, rfl⟩

theorem handleSetup_line (pkt : SetupPacket) (st : UsbState) :
    (handleSetup pkt st).control.lineCoding = st.control.lineCoding ∧
    (handleSetup pkt st).control.ctrlOutRequest =
      if pkt.setsLine then cdcSetLineCoding else st.control.ctrlOutRequest := by
  unfold handleSetup
  by_cases hclass : pkt.type = 0x01
  · simp only [if_pos hclass]
    split
    · next st' h =>
      have hline := handleClassRequest_line hclass h
      exact hline
    · next h =>
      rw [if_neg]
      · exact ⟨rfl, rfl⟩
      · intro hset
        rw [handleClassRequest, if_pos hset.2] at h
        cases h
  · rw [if_neg fun hset : pkt.setsLine => hclass hset.1]
    simp only [if_neg hclass]
    split
    · next st' h =>
      split at h
      · have hkeep := handleStandardRequest_keepsLine h
        exact ⟨hkeep.coding, hkeep.request⟩
      · cases h
    · exact ⟨rfl, rfl⟩

end Requests

/-! ## Runs -/

/-- What a run keeps. -/
structure LineInvariant (ls : LineState) : Prop where
  faithful : LineFaithful ls
  outstanding : ls.outstanding = true ↔ ls.usb.control.ctrlOutRequest = cdcSetLineCoding
  /-- Where a data stage is awaited or in, the request is outstanding. -/
  stage : ls.stage ≠ .idle → ls.outstanding = true
  arrived : ∀ data, ls.stage = .arrived data → (List.range 7).map ls.usb.control.buf = data

theorem lineInvariant_powerOn : LineInvariant .powerOn where
  faithful := ⟨rfl, rfl⟩
  outstanding := by decide
  stage := fun h => absurd rfl h
  arrived := fun _ h => LineStage.noConfusion h

section Steps

variable {ls : LineState}

/-- An event that is none of endpoint 0's. -/
theorem LineInvariant.of_control_eq (h : LineInvariant ls) {st : UsbState}
    (hc : st.control = ls.usb.control) : LineInvariant { ls with usb := st } where
  faithful := ⟨by rw [hc]; exact h.faithful.coding, h.faithful.status⟩
  outstanding := by rw [hc]; exact h.outstanding
  stage := h.stage
  arrived := by rw [hc]; exact h.arrived

theorem LineInvariant.busReset (h : LineInvariant ls) :
    LineInvariant (lineStep ls .busReset) where
  faithful := ⟨h.faithful.coding, h.faithful.status⟩
  outstanding := ⟨Bool.noConfusion, fun h : (0 : UInt8) = 0x20 => absurd h (by decide)⟩
  stage := fun h => absurd rfl h
  arrived := fun _ h => LineStage.noConfusion h

theorem LineInvariant.setup (h : LineInvariant ls) (pkt : SetupPacket) :
    LineInvariant (lineStep ls (.setup pkt)) := by
  obtain ⟨hcoding, hrequest⟩ := handleSetup_line pkt ls.usb
  refine ⟨⟨hcoding.trans h.faithful.coding, h.faithful.status⟩, ?_, ?_, ?_⟩
  · simp only [lineStep, usbStep, hrequest]
    by_cases hset : pkt.setsLine
    · simp [hset]
    · simpa [hset] using h.outstanding
  · intro hstage
    by_cases hset : pkt.setsLine
    · simp [lineStep, hset]
    · simp [lineStep, hset] at hstage
  · intro data hdata
    by_cases hset : pkt.setsLine <;> simp [lineStep, hset] at hdata

theorem LineInvariant.controlData (h : LineInvariant ls) (data : List UInt8) :
    LineInvariant (lineStep ls (.controlData data)) := by
  refine ⟨⟨h.faithful.coding, h.faithful.status⟩, h.outstanding, ?_, ?_⟩
  · intro hstage
    apply h.stage
    rintro hidle
    simp [lineStep, hidle, LineStage.receive] at hstage
  · intro bytes hbytes
    simp only [lineStep, LineStage.receive] at hbytes
    split at hbytes
    · split at hbytes
      · next hlen =>
        cases hbytes
        -- the seven bytes are the first ones of the buffer
        apply List.ext_getElem
        · rw [List.length_map, List.length_range, hlen]
        · intro i _ hi
          have htake : (data.take ep0MaxPacket)[i]? = some data[i] := by
            rw [List.getElem?_take_of_lt (by rw [ep0MaxPacket]; omega), List.getElem?_eq_getElem hi]
          simp [lineStep, usbStep, onControlData, ControlState.fill, htake]
      · cases hbytes
    · cases hbytes

/-- An OUT completion that finds a request. -/
theorem onControlOutDone_request {st : UsbState}
    (h : st.control.ctrlOutRequest = cdcSetLineCoding) :
    (onControlOutDone st).control.lineCoding = (List.range 7).map st.control.buf ∧
    (onControlOutDone st).control.ctrlOutRequest = 0 ∧
    queuesStatus st (onControlOutDone st) = true := by
  rw [onControlOutDone, if_pos h]
  refine ⟨rfl, rfl, ?_⟩
  simp [queuesStatus, ep0Arm, ep0Send, ControlState.emit]

theorem onControlOutDone_idle {st : UsbState}
    (h : st.control.ctrlOutRequest ≠ cdcSetLineCoding) :
    (onControlOutDone st).control.lineCoding = st.control.lineCoding ∧
    (onControlOutDone st).control.ctrlOutRequest = st.control.ctrlOutRequest ∧
    queuesStatus st (onControlOutDone st) = false := by
  rw [onControlOutDone, if_neg h]
  refine ⟨rfl, rfl, ?_⟩
  simp [queuesStatus, ep0Arm, ControlState.emit]

theorem LineInvariant.controlOutDone (h : LineInvariant ls)
    (hown : CompletesOwn ls .controlOutDone) : LineInvariant (lineStep ls .controlOutDone) := by
  by_cases hout : ls.outstanding = true
  · obtain ⟨hcoding, hrequest, -⟩ := onControlOutDone_request (h.outstanding.mp hout)
    have harrived := hown hout
    cases hstage : ls.stage with
    | idle => simp [hstage, LineStage.hasArrived] at harrived
    | awaiting => simp [hstage, LineStage.hasArrived] at harrived
    | arrived data =>
      refine ⟨⟨?_, ?_⟩, ?_, fun h => absurd rfl h, fun _ h => LineStage.noConfusion h⟩
      · simp only [lineStep, usbStep, hstage, hcoding]
        exact h.arrived data hstage
      · simp [lineStep, hstage, LineStage.hasArrived, h.faithful.status]
      · simp only [lineStep, usbStep, hrequest]
        decide
  · obtain ⟨hcoding, hrequest, hquiet⟩ :=
      onControlOutDone_idle fun hr => hout (h.outstanding.mpr hr)
    have hidle : ls.stage = .idle := Classical.byContradiction fun hs => hout (h.stage hs)
    refine ⟨⟨?_, ?_⟩, ?_, fun h => absurd rfl h, fun _ h => LineStage.noConfusion h⟩
    · simp only [lineStep, usbStep, hidle, hcoding]
      exact h.faithful.coding
    · simp [lineStep, usbStep, hquiet, h.faithful.status]
    · simp only [lineStep, usbStep, hrequest, ← h.outstanding]
      simp [hout]

theorem LineInvariant.step (h : LineInvariant ls) (ev : UsbEvent) (hev : CompletesOwn ls ev) :
    LineInvariant (lineStep ls ev) := by
  cases ev with
  | busReset => exact h.busReset
  | setup pkt => exact h.setup pkt
  | controlData data => exact h.controlData data
  | controlOutDone => exact h.controlOutDone hev
  | bulkData pkt =>
    refine h.of_control_eq ?_
    simp only [usbStep, onBulkData]
    split <;> rfl
  | bulkOutDone =>
    refine h.of_control_eq ?_
    simp only [usbStep, onBulkOutDone]
    repeat' split
    all_goals rfl
  | inDone ep =>
    refine h.of_control_eq ?_
    simp only [usbStep, onInDone]
    repeat' split
    all_goals rfl
  | read maxlen =>
    refine h.of_control_eq ?_
    simp only [usbStep, halUsbCdcRead]
    split <;> rfl
  | suspend => exact h.of_control_eq rfl
  | resume => exact h.of_control_eq rfl

end Steps

/-- The line coding is the last one completed, and no status packet is stray,
exactly when no other OUT transfer completes while a request is outstanding. -/
theorem line_coding_iff (events : List UsbEvent) :
    Always lineStep LineFaithful .powerOn events ↔ Each lineStep CompletesOwn .powerOn events := by
  refine Steps.always_iff_each_of (fun _ => LineInvariant.faithful) ?need
    (fun ls ev h => h.step ev) events lineInvariant_powerOn
  case need =>
    intro ls ev h hnext
    cases ev with
    | controlOutDone =>
      intro hout
      obtain ⟨-, -, hqueues⟩ := onControlOutDone_request (h.outstanding.mp hout)
      have hstatus := hnext.status
      simp only [lineStep, usbStep, hqueues, h.faithful.status, Bool.false_or, Bool.true_and,
        Bool.not_eq_false'] at hstatus
      exact hstatus
    | _ => trivial

/-! ## An abandoned SET_LINE_CODING -/

/-- No data follow the request; GET_DESCRIPTOR does, and the host acknowledges
the descriptor. -/
def abandoned : List UsbEvent :=
  [.setup { bmRequestType := 0x21, bRequest := cdcSetLineCoding, wLength := 7 },
    .setup
      { bmRequestType := 0x80, bRequest := reqGetDescriptor, wValue := 0x0100, wLength := 18 },
    .controlOutDone]

theorem acknowledge_sets_line_coding :
    let ls := run lineStep .powerOn abandoned
    ls.usb.control.lineCoding = [0, 0, 0, 0, 0, 0, 0] ∧
    ls.coding = [0x00, 0xC2, 0x01, 0x00, 0x00, 0x00, 0x08] ∧ ls.strayStatus = true ∧
    ¬ LineFaithful ls := by
  have hrun : (run lineStep .powerOn abandoned).usb.control.lineCoding = [0, 0, 0, 0, 0, 0, 0] ∧
    (run lineStep .powerOn abandoned).coding = [0x00, 0xC2, 0x01, 0x00, 0x00, 0x00, 0x08] ∧
    (run lineStep .powerOn abandoned).strayStatus = true := by decide
  refine ⟨hrun.1, hrun.2.1, hrun.2.2, fun h => ?_⟩
  exact absurd (h.status.symm.trans hrun.2.2) (by decide)

end NavHAL.Usb
