import NavHAL.Usb.Device

/-!
# Flow control of the bulk OUT endpoint

Between two bus resets, every byte of an accepted packet has been read or is in
the ring, as long as the endpoint is enabled only while the ring has room for a
packet.  `onBulkOutDone` and `halUsbCdcRead` look at the room first; the
requests of `armsOut` do not, and `no_byte_lost_iff` says when this matters.
-/

namespace NavHAL.Usb

open Boot (halUsbCdcPacketSize OutPacket)
open Steps (run Always Each)

/-! ## Runs -/

/-- The device, and what went in and out since the last bus reset. -/
structure FlowState where
  usb : UsbState
  accepted : List UInt8
  delivered : List UInt8

def FlowState.afterReset (st : UsbState) : FlowState := ⟨onReset st, [], []⟩

def flowStep (fs : FlowState) : UsbEvent → FlowState
  | .busReset => .afterReset fs.usb
  | .bulkData pkt =>
    { fs with
      usb := onBulkData pkt fs.usb
      accepted := if fs.usb.takes then fs.accepted ++ pkt.bytes else fs.accepted }
  | .read maxlen =>
    { fs with
      usb := (halUsbCdcRead maxlen fs.usb).2
      delivered := fs.delivered ++ (halUsbCdcRead maxlen fs.usb).1 }
  | ev => { fs with usb := usbStep fs.usb ev }

/-- An enabled endpoint has room for a packet. -/
def UsbState.ArmedWithRoom (st : UsbState) : Prop :=
  st.bulk.enabled = true → halUsbCdcPacketSize ≤ st.bulk.ringFree

structure NoByteLost (fs : FlowState) : Prop where
  armed : fs.usb.ArmedWithRoom
  read : fs.delivered <+: fs.accepted

/-- The requests that enable the bulk OUT endpoint. -/
def SetupPacket.armsOut (pkt : SetupPacket) : Prop :=
  let addr := pkt.wIndex.toUInt8
  let num := addr &&& 0x0F
  pkt.type = 0x00 ∧
    (pkt.bRequest = reqSetConfiguration ∧ pkt.wValue ≠ 0 ∨
      pkt.bRequest = reqClearFeature ∧ (pkt.recipient = 0x02 ∧ pkt.wValue = 0x00) ∧
        (num ≠ 0 ∧ num ≤ epNotif) ∧ addr &&& 0x80 = 0 ∨
      pkt.bRequest = reqSetInterface)

/-- Such a request comes while the ring has room for a packet. -/
def ArmsWithRoom (fs : FlowState) : UsbEvent → Prop
  | .setup pkt => pkt.armsOut → halUsbCdcPacketSize ≤ fs.usb.bulk.ringFree
  | _ => True

/-! ## The ring -/

section Contents

variable {r : Ring UInt8 rxRingSize} {xs : List UInt8}

theorem ringPush_holds (data : List UInt8) (h : r.Holds xs)
    (hroom : xs.length + data.length < rxRingSize) :
    (ringPush r data).Holds (xs ++ data) := by
  induction data generalizing r xs with
  | nil => rwa [List.append_nil]
  | cons b data ih =>
    rw [List.length_cons] at hroom
    obtain ⟨r', hpush, h'⟩ := h.push b (by omega)
    have hrest := ih h' (by rw [List.length_append, List.length_singleton]; omega)
    simpa [ringPush, hpush] using hrest

theorem ringPop_holds (n : Nat) (h : r.Holds xs) :
    (ringPop r n).1 = xs.take n ∧ (ringPop r n).2.Holds (xs.drop n) := by
  induction n generalizing r xs with
  | zero => exact ⟨rfl, h⟩
  | succ n ih =>
    cases xs with
    | nil => simpa [ringPop, h.pop_nil] using h
    | cons b xs =>
      obtain ⟨r', hpop, h'⟩ := h.pop_cons
      obtain ⟨htake, hdrop⟩ := ih h'
      simp only [ringPop, hpop, List.take_succ_cons, List.drop_succ_cons]
      exact ⟨congrArg _ htake, hdrop⟩

end Contents

/-! ## What the requests do -/

section Requests

variable {arms : Prop} {pkt : SetupPacket} {st st' : UsbState}

/-- The ring stays, and the endpoint is enabled where `arms` says so only. -/
structure Rearms (arms : Prop) (st st' : UsbState) : Prop where
  ring : st'.bulk.ring = st.bulk.ring
  armed : arms → st'.bulk.enabled = true
  kept : ¬ arms → st'.bulk.enabled = true → st.bulk.enabled = true

theorem Rearms.of_bulk_eq (harms : ¬ arms) (h : st'.bulk = st.bulk) : Rearms arms st st' where
  ring := by rw [h]
  armed := fun ha => absurd ha harms
  kept := fun _ he => by rwa [h] at he

theorem Rearms.of_outArm (harms : arms)
    (h : st'.bulk = { st.bulk with outEpArmed := true, enabled := true }) :
    Rearms arms st st' where
  ring := by rw [h]
  armed := fun _ => by rw [h]
  kept := fun hn => absurd harms hn

theorem epSetHalt_rearms (addr : UInt8) (halt : Bool) (st : UsbState) :
    Rearms (halt = false ∧ (addr &&& 0x0F ≠ 0 ∧ addr &&& 0x0F ≤ epNotif) ∧ addr &&& 0x80 = 0)
      st (epSetHalt addr halt st) := by
  unfold epSetHalt
  simp only []
  split
  · next hnum =>
    refine .of_bulk_eq ?_ rfl
    rintro ⟨-, ⟨hzero, hle⟩, -⟩
    rcases hnum with hnum | hnum
    · exact hzero hnum
    · exact absurd hle (UInt8.not_le.mpr hnum)
  · next hnum =>
    split
    · next hin =>
      refine .of_bulk_eq (fun h => hin h.2.2) ?_
      split <;> rfl
    · next hout =>
      cases halt with
      | true =>
        exact
          { ring := rfl
            armed := fun h => absurd h.1 Bool.noConfusion
            kept := fun _ he => he }
      | false =>
        rw [not_or, UInt8.not_lt] at hnum
        exact .of_outArm ⟨rfl, hnum, Classical.not_not.mp hout⟩ rfl

theorem handleGetDescriptor_bulk (wValue wLength : UInt16) (st : UsbState) :
    (handleGetDescriptor wValue wLength st).bulk = st.bulk := by
  unfold handleGetDescriptor
  simp only []
  repeat' split
  all_goals rfl

theorem handleClassRequest_bulk (h : handleClassRequest pkt st = some st') :
    st'.bulk = st.bulk := by
  unfold handleClassRequest at h
  repeat' split at h
  all_goals cases h
  all_goals rfl

/-- The requests that leave the endpoint alone. -/
theorem not_armsOut {req : UInt8} (hreq : pkt.bRequest = req) (hconf : req ≠ reqSetConfiguration)
    (hclear : req ≠ reqClearFeature) (hiface : req ≠ reqSetInterface) : ¬ pkt.armsOut := by
  subst hreq
  rintro ⟨-, h | h | h⟩
  · exact hconf h.1
  · exact hclear h.1
  · exact hiface h

theorem feature_rearms (htype : pkt.type = 0x00)
    (hreq : pkt.bRequest = reqClearFeature ∨ pkt.bRequest = reqSetFeature) :
    Rearms pkt.armsOut st
      (if pkt.recipient = 0x02 ∧ pkt.wValue = 0x00 then
        epSetHalt pkt.wIndex.toUInt8 (pkt.bRequest = reqSetFeature) st
      else st) := by
  have hiff : pkt.armsOut ↔ (pkt.recipient = 0x02 ∧ pkt.wValue = 0x00) ∧
      decide (pkt.bRequest = reqSetFeature) = false ∧
      (pkt.wIndex.toUInt8 &&& 0x0F ≠ 0 ∧ pkt.wIndex.toUInt8 &&& 0x0F ≤ epNotif) ∧
      pkt.wIndex.toUInt8 &&& 0x80 = 0 := by
    rcases hreq with hreq | hreq
    all_goals
      simp [SetupPacket.armsOut, htype, hreq, reqClearFeature, reqSetFeature,
        reqSetConfiguration, reqSetInterface]
  split
  · next hep =>
    have hhalt := epSetHalt_rearms pkt.wIndex.toUInt8 (pkt.bRequest = reqSetFeature) st
    exact ⟨hhalt.ring, fun h => hhalt.armed (hiff.mp h).2,
      fun h => hhalt.kept fun hset => h (hiff.mpr ⟨hep, hset⟩)⟩
  · next hep => exact .of_bulk_eq (fun h => hep (hiff.mp h).1) rfl

theorem handleStandardRequest_rearms (htype : pkt.type = 0x00)
    (h : handleStandardRequest pkt st = some st') : Rearms pkt.armsOut st st' := by
  cases handleStandardRequest_cases h with
  | descriptor hreq =>
    exact .of_bulk_eq (not_armsOut hreq (by decide) (by decide) (by decide))
      (handleGetDescriptor_bulk ..)
  | address hreq =>
    exact .of_bulk_eq (not_armsOut hreq (by decide) (by decide) (by decide)) rfl
  | configured hreq hvalue => exact .of_outArm ⟨htype, .inl ⟨hreq, hvalue⟩⟩ rfl
  | deconfigured hreq hvalue =>
    refine { ring := rfl, armed := ?_, kept := fun _ he => Bool.noConfusion he }
    rintro ⟨-, harms | harms | harms⟩
    · exact absurd harms.2 hvalue
    · exact absurd (hreq.symm.trans harms.1) (by decide)
    · exact absurd (hreq.symm.trans harms) (by decide)
  | read hreq hread =>
    rcases hread with rfl | rfl | rfl
    · exact .of_bulk_eq (not_armsOut hreq (by decide) (by decide) (by decide)) rfl
    · exact .of_bulk_eq (not_armsOut hreq (by decide) (by decide) (by decide)) rfl
    · exact .of_bulk_eq (not_armsOut hreq (by decide) (by decide) (by decide)) rfl
  | feature hreq =>
    have hset := @feature_rearms pkt st htype hreq
    exact ⟨hset.ring, hset.armed, hset.kept⟩
  | interface hreq => exact .of_outArm ⟨htype, .inr (.inr hreq)⟩ rfl

theorem handleStandardRequest_none (h : handleStandardRequest pkt st = none) :
    ¬ pkt.armsOut := by
  unfold handleStandardRequest at h
  rintro ⟨-, ⟨hreq, -⟩ | ⟨hreq, -⟩ | hreq⟩
  all_goals
    rw [hreq] at h
    revert h
    simp [reqGetDescriptor, reqSetAddress, reqSetConfiguration, reqGetConfiguration,
      reqGetStatus, reqGetInterface, reqClearFeature, reqSetFeature, reqSetInterface]
  split <;> simp

theorem handleSetup_rearms (pkt : SetupPacket) (st : UsbState) :
    Rearms pkt.armsOut st (handleSetup pkt st) := by
  unfold handleSetup
  simp only []
  split
  · next st' h =>
    suffices hans : Rearms pkt.armsOut st st' from ⟨hans.ring, hans.armed, hans.kept⟩
    split at h
    · next hclass =>
      exact .of_bulk_eq (fun harms => absurd (hclass.symm.trans harms.1) (by decide))
        (handleClassRequest_bulk h)
    · split at h
      · next htype => exact handleStandardRequest_rearms htype h
      · cases h
  · next h =>
    refine .of_bulk_eq (fun harms => ?_) rfl
    rw [if_neg (by rw [harms.1]; decide), if_pos harms.1] at h
    exact handleStandardRequest_none h harms

end Requests

/-! ## Runs -/

/-- What a run keeps. -/
structure FlowInvariant (fs : FlowState) : Prop where
  armed : fs.usb.ArmedWithRoom
  queued : fs.accepted = fs.delivered ++ fs.usb.bulk.ring.contents

theorem FlowInvariant.noByteLost {fs : FlowState} (h : FlowInvariant fs) : NoByteLost fs where
  armed := h.armed
  read := ⟨_, h.queued.symm⟩

theorem flowInvariant_afterReset (st : UsbState) : FlowInvariant (.afterReset st) where
  armed := fun he => Bool.noConfusion he
  queued := by
    have hempty : (onReset st).bulk.ring.contents = [] := (Ring.holds_empty rfl).contents_eq
    rw [FlowState.afterReset, hempty, List.append_nil]

theorem ringFree_eq (bulk : BulkState) :
    bulk.ringFree = rxRingSize - 1 - bulk.ring.contents.length := by
  rw [BulkState.ringFree, BulkState.ringUsed, Ring.length_contents]

section Steps

variable {fs : FlowState}

/-- An event other than a packet and a read, that leaves the ring. -/
theorem FlowInvariant.of_ring_eq (h : FlowInvariant fs) {st : UsbState}
    (hring : st.bulk.ring = fs.usb.bulk.ring)
    (harmed : st.bulk.enabled = true → fs.usb.bulk.enabled = true ∨
      halUsbCdcPacketSize ≤ fs.usb.bulk.ringFree) :
    FlowInvariant { fs with usb := st } where
  armed := by
    intro he
    have hfree : st.bulk.ringFree = fs.usb.bulk.ringFree := by rw [ringFree_eq, ringFree_eq, hring]
    rw [hfree]
    exact (harmed he).elim h.armed id
  queued := by rw [hring]; exact h.queued

/-- A packet finds room. -/
theorem FlowInvariant.bulkData (h : FlowInvariant fs) (pkt : OutPacket) :
    FlowInvariant (flowStep fs (.bulkData pkt)) := by
  simp only [flowStep, onBulkData]
  split
  · next htakes =>
    have hroom := h.armed (Bool.and_eq_true_iff.mp htakes).1
    rw [ringFree_eq] at hroom
    have hpush := ringPush_holds pkt.bytes fs.usb.bulk.ring.holds_contents (by
      have := pkt.size_le
      have := pkt.size_pos
      simp only [halUsbCdcPacketSize, rxRingSize] at *
      omega)
    refine ⟨fun he => Bool.noConfusion he, ?_⟩
    simp only [hpush.contents_eq, h.queued, List.append_assoc]
  · exact h

theorem FlowInvariant.read (h : FlowInvariant fs) (maxlen : UInt16) :
    FlowInvariant (flowStep fs (.read maxlen)) := by
  obtain ⟨htaken, hleft⟩ := ringPop_holds maxlen.toNat fs.usb.bulk.ring.holds_contents
  have hqueued : fs.accepted = fs.delivered ++ (ringPop fs.usb.bulk.ring maxlen.toNat).1 ++
      (ringPop fs.usb.bulk.ring maxlen.toNat).2.contents := by
    rw [htaken, hleft.contents_eq, List.append_assoc, List.take_append_drop, h.queued]
  simp only [flowStep, halUsbCdcRead]
  split
  · next hfree => exact ⟨fun _ => hfree.2.2, hqueued⟩
  · refine ⟨fun he => ?_, hqueued⟩
    -- the endpoint stays as it was, and the ring has only got emptier
    have hroom := h.armed he
    rw [ringFree_eq] at hroom ⊢
    simp only [hleft.contents_eq, List.length_drop]
    omega

theorem FlowInvariant.bulkOutDone (h : FlowInvariant fs) :
    FlowInvariant (flowStep fs .bulkOutDone) := by
  refine h.of_ring_eq ?_ ?_
  · simp only [usbStep, onBulkOutDone]
    repeat' split
    all_goals rfl
  · simp only [usbStep, onBulkOutDone]
    intro he
    split at he
    · split at he
      · next hfree => exact .inr hfree
      · exact .inl he
    · exact .inl he

theorem FlowInvariant.step (h : FlowInvariant fs) (ev : UsbEvent) (hev : ArmsWithRoom fs ev) :
    FlowInvariant (flowStep fs ev) := by
  cases ev with
  | busReset => exact flowInvariant_afterReset fs.usb
  | bulkData pkt => exact h.bulkData pkt
  | bulkOutDone => exact h.bulkOutDone
  | read maxlen => exact h.read maxlen
  | setup pkt =>
    have hset := handleSetup_rearms pkt fs.usb
    refine h.of_ring_eq hset.ring fun he => ?_
    by_cases harms : pkt.armsOut
    · exact .inr (hev harms)
    · exact .inl (hset.kept harms he)
  | controlOutDone =>
    have hbulk : (onControlOutDone fs.usb).bulk = fs.usb.bulk := by
      unfold onControlOutDone
      split <;> rfl
    exact h.of_ring_eq (congrArg _ hbulk) fun he => .inl (by rwa [usbStep, hbulk] at he)
  | inDone ep =>
    have hbulk : (onInDone ep fs.usb).bulk = fs.usb.bulk := by
      unfold onInDone
      repeat' split
      all_goals rfl
    exact h.of_ring_eq (congrArg _ hbulk) fun he => .inl (by rwa [usbStep, hbulk] at he)
  | controlData data => exact h.of_ring_eq rfl .inl
  | suspend => exact h.of_ring_eq rfl .inl
  | resume => exact h.of_ring_eq rfl .inl

end Steps

/-- The driver keeps every byte exactly when no request enables the endpoint
while the ring is short of a packet. -/
theorem no_byte_lost_iff (st : UsbState) (events : List UsbEvent) :
    Always flowStep NoByteLost (.afterReset st) events ↔
      Each flowStep ArmsWithRoom (.afterReset st) events := by
  refine Steps.always_iff_each_of (fun _ => FlowInvariant.noByteLost) ?need
    (fun fs ev h => h.step ev) events (flowInvariant_afterReset st)
  case need =>
    intro fs ev h hnext
    cases ev with
    | setup pkt =>
      intro harms
      have hset := handleSetup_rearms pkt fs.usb
      have hroom := hnext.armed (hset.armed harms)
      rw [ringFree_eq] at hroom ⊢
      rwa [show (flowStep fs (.setup pkt)).usb.bulk.ring = fs.usb.bulk.ring from hset.ring]
        at hroom
    | _ => trivial

/-! ## A full ring and SET_INTERFACE -/

/-- A packet that repeats one byte, and its completion. -/
def repeated (n : Nat) (b : UInt8) (hpos : 0 < n) (hle : n ≤ halUsbCdcPacketSize) :
    List UsbEvent :=
  [.bulkData ⟨List.replicate n b, by rwa [List.length_replicate], by rwa [List.length_replicate]⟩,
    .bulkOutDone]

/-- Seven packets disarm the endpoint; SET_INTERFACE lets an eighth in. -/
def reselected : List UsbEvent :=
  [.setup { bmRequestType := 0x00, bRequest := reqSetConfiguration, wValue := 1 }] ++
    (List.replicate 7 (repeated 64 0 (by decide) (by decide))).flatten ++
    [.setup { bmRequestType := 0x01, bRequest := reqSetInterface }] ++
    repeated 64 1 (by decide) (by decide) ++ [.read 512] ++
    repeated 1 2 (by decide) (by decide) ++ [.read 1]

/-- The 512th byte read is the 513th accepted. -/
theorem set_interface_drops_byte :
    let fs := run flowStep (.afterReset powerOn) reselected
    (fs.delivered[511]? = some 2 ∧ fs.accepted[511]? = some 1) ∧ ¬ NoByteLost fs := by
  intro fs
  have hbytes : fs.delivered[511]? = some 2 ∧ fs.accepted[511]? = some 1 := by decide +kernel
  refine ⟨hbytes, fun h => ?_⟩
  obtain ⟨hlen, hread⟩ := List.getElem?_eq_some_iff.mp hbytes.1
  have heq := h.read.getElem hlen
  rw [hread] at heq
  have hacc := hbytes.2
  rw [List.getElem?_eq_getElem (Nat.lt_of_lt_of_le hlen h.read.length_le), ← heq] at hacc
  cases hacc

end NavHAL.Usb
