import NavHAL.Status
import NavHAL.Usb.Device

/-!
# The IN endpoints of the CDC device

`hal_usb_cdc_write` and `hal_usb_cdc_notify_serial_state` wait for the busy flag of
their endpoint, arm a transfer and set the flag again.  Any number of tasks may be
inside such a call while the interrupt handlers of `Device` run between its steps,
and the driver may be taken down and brought up again.
-/

namespace NavHAL.Usb

open Steps
open Boot (halUsbCdcPacketSize)

inductive InEp
  | data
  | notif
  deriving DecidableEq, Repr

def InEp.num : InEp → UInt8
  | data => epData
  | notif => epNotif

namespace UsbState

/-- `ep_in_busy` and `ep_notif_busy` -/
def busy (st : UsbState) : InEp → Bool
  | .data => st.epInBusy
  | .notif => st.epNotifBusy

def setBusy (ep : InEp) (st : UsbState) : UsbState :=
  match ep with
  | .data => { st with epInBusy := true }
  | .notif => { st with epNotifBusy := true }

end UsbState

/-! ## Calls that send -/

def txChunk : Nat := 256
def txTimeoutSpins : Nat := 2000000

/-- Between two accesses of a call to what the handlers share with it; `lens` are the
transfers it has still to arm. -/
inductive SendCall
  | returned (status : HalStatus)
  /-- about to read the busy flag -/
  | waiting (ep : InEp) (spins : Nat) (lens : List Nat)
  /-- found it set, about to read `usb_configured` -/
  | checking (ep : InEp) (spins : Nat) (lens : List Nat)
  /-- found it clear, about to arm the endpoint with interrupts off -/
  | arming (ep : InEp) (lens : List Nat)
  deriving DecidableEq, Repr

def SendCall.next (ep : InEp) : List Nat → SendCall
  | [] => .returned .ok
  | lens => .waiting ep txTimeoutSpins lens

def chunk (left : Nat) : Nat := if left > txChunk then txChunk else left

theorem chunk_pos {left : Nat} (h : left ≠ 0) : 0 < chunk left := by
  unfold chunk txChunk
  split <;> omega

def chunks (left : Nat) : List Nat :=
  if left = 0 then [] else chunk left :: chunks (left - chunk left)
termination_by left
decreasing_by exact Nat.sub_lt (Nat.pos_of_ne_zero ‹_›) (chunk_pos ‹_›)

/-- The transfers of a write; the last packet is a short one. -/
def writeTransfers (length : UInt16) : List Nat :=
  chunks length.toNat ++
    (if length ≠ 0 ∧ length.toNat % halUsbCdcPacketSize = 0 then [0] else [])

/-- The length of the SERIAL_STATE notification. -/
def notifyTransfers : List Nat := [10]

structure CdcState where
  usb : UsbState
  /-- `RCC_AHB2ENR_OTGFSEN` -/
  otgfsen : Bool
  /-- `USB_GAHBCFG_GINT`, with the handler attached -/
  gint : Bool
  /-- A transfer was armed since the endpoint was last opened, closed, halted or
  reset, and is not done. -/
  live : InEp → Bool
  /-- The calls of the tasks. -/
  calls : Nat → SendCall

namespace CdcState

def setCall (st : CdcState) (task : Nat) (call : SendCall) : CdcState :=
  { st with calls := fun t => if t = task then call else st.calls t }

/-- Arm and fill, in one piece. -/
def arm (st : CdcState) (ep : InEp) : CdcState :=
  { st with
    usb := st.usb.setBusy ep
    live := fun e => if e = ep then true else st.live e }

end CdcState

/-- Both calls begin with `if (!usb_configured) return HAL_ERR_NOT_INITIALIZED;`. -/
def beginSend (task : Nat) (ep : InEp) (lens : List Nat) (st : CdcState) : CdcState :=
  match st.calls task with
  | .returned _ =>
    if st.usb.usbConfigured = 0 then st.setCall task (.returned .errNotInitialized)
    else st.setCall task (.next ep lens)
  | _ => st

/-- `hal_usb_cdc_write`, from data that is there. -/
def halUsbCdcWrite (task : Nat) (length : UInt16) (st : CdcState) : CdcState :=
  beginSend task .data (writeTransfers length) st

/-- `hal_usb_cdc_notify_serial_state` -/
def halUsbCdcNotifySerialState (task : Nat) (st : CdcState) : CdcState :=
  beginSend task .notif notifyTransfers st

/-- One step of a call: `while (busy) { if (!usb_configured) ..; if (--spins == 0) .. }`,
then the endpoint is armed. -/
def sendStep (task : Nat) (st : CdcState) : CdcState :=
  match st.calls task with
  | .returned _ => st
  | .waiting ep spins lens =>
    if st.usb.busy ep then st.setCall task (.checking ep spins lens)
    else st.setCall task (.arming ep lens)
  | .checking ep spins lens =>
    if st.usb.usbConfigured = 0 then st.setCall task (.returned .errNotInitialized)
    else if spins - 1 = 0 then st.setCall task (.returned .errTimeout)
    else st.setCall task (.waiting ep (spins - 1) lens)
  | .arming ep lens =>
    -- with the clock gate shut the access faults, and the call does not go on
    if st.otgfsen then (st.arm ep).setCall task (.next ep lens.tail) else st

/-! ## Bring-up and shut-down -/

/-- How far `hal_usb_cdc_init` gets. -/
inductive InitRun
  | noClock
  | busNotIdle
  | resetStuck
  | flushStuck
  | complete
  deriving DecidableEq, Repr

def InitRun.status : InitRun → HalStatus
  | noClock => .errNotInitialized
  | busNotIdle => .errTimeout
  | resetStuck => .errTimeout
  | flushStuck => .errTimeout
  | complete => .ok

/-- The core reset is requested. -/
def InitRun.resets : InitRun → Bool
  | noClock => false
  | busNotIdle => false
  | resetStuck => true
  | flushStuck => true
  | complete => true

/-- What a reset of the core does to its registers; no static of the driver changes. -/
def UsbState.resetCore (st : UsbState) : UsbState :=
  { st with
    bulk := { st.bulk with enabled := false, xfrc := false }
    deviceAddress := 0
    inHalted := fun _ => false
    outHalted := fun _ => false }

def coreReset (st : CdcState) : CdcState :=
  { st with usb := st.usb.resetCore, live := fun _ => false }

def halUsbCdcInit (run : InitRun) (st : CdcState) : HalStatus × CdcState :=
  if run = .noClock then (run.status, st)
  else
    let st := { st with otgfsen := true, gint := false }
    let st := if run.resets then coreReset st else st
    (run.status, { st with gint := run = .complete })

def halUsbCdcDeinit (st : CdcState) : HalStatus × CdcState :=
  if st.otgfsen then
    (.ok,
      { st with
        usb := { st.usb with usbConfigured := 0, usbLineState := 0 }
        otgfsen := false
        gint := false })
  else (.ok, st)

/-! ## Events -/

/-- SET_CONFIGURATION opens the endpoints, or closes them. -/
def SetupPacket.SetsConfiguration (pkt : SetupPacket) : Prop :=
  pkt.type = 0x00 ∧ pkt.bRequest = reqSetConfiguration

/-- ENDPOINT_HALT is set on an IN endpoint. -/
def SetupPacket.Halts (pkt : SetupPacket) (ep : InEp) : Prop :=
  pkt.type = 0x00 ∧ pkt.bRequest = reqSetFeature ∧ (pkt.recipient = 0x02 ∧ pkt.wValue = 0x00) ∧
    pkt.wIndex.toUInt8 &&& 0x80 ≠ 0 ∧ pkt.wIndex.toUInt8 &&& 0x0F = ep.num

instance (pkt : SetupPacket) : Decidable pkt.SetsConfiguration :=
  inferInstanceAs (Decidable (_ ∧ _))

instance (pkt : SetupPacket) (ep : InEp) : Decidable (pkt.Halts ep) :=
  inferInstanceAs (Decidable (_ ∧ _))

/-- The event is the end of what is armed on the endpoint. -/
def UsbEvent.EndsTransfer (ep : InEp) : UsbEvent → Prop
  | .busReset => True
  | .setup pkt => pkt.SetsConfiguration ∨ pkt.Halts ep
  | .inDone num => num = ep.num
  | _ => False

instance (ep : InEp) : (event : UsbEvent) → Decidable (event.EndsTransfer ep)
  | .busReset => inferInstanceAs (Decidable True)
  | .setup _ => inferInstanceAs (Decidable (_ ∨ _))
  | .inDone _ => inferInstanceAs (Decidable (_ = _))
  | .controlData _ | .controlOutDone | .bulkData _ | .bulkOutDone | .suspend | .resume
  | .read _ => inferInstanceAs (Decidable False)

inductive CdcEvent
  | bus (event : UsbEvent)
  | read (maxlen : UInt16)
  | write (task : Nat) (length : UInt16)
  | notify (task : Nat)
  | send (task : Nat)
  | deinit
  | init (run : InitRun)

/-- The interrupt handler. -/
def CdcState.serve (event : UsbEvent) (st : CdcState) : CdcState :=
  { st with
    usb := usbStep st.usb event
    live := fun ep => if event.EndsTransfer ep then false else st.live ep }

def cdcStep (st : CdcState) : CdcEvent → CdcState
  | .bus event => if st.gint then st.serve event else st
  | .read maxlen => { st with usb := (halUsbCdcRead maxlen st.usb).2 }
  | .write task length => halUsbCdcWrite task length st
  | .notify task => halUsbCdcNotifySerialState task st
  | .send task => sendStep task st
  | .deinit => (halUsbCdcDeinit st).2
  | .init run => (halUsbCdcInit run st).2

def cdcPowerOn : CdcState where
  usb := powerOn
  otgfsen := false
  gint := false
  live := fun _ => false
  calls := fun _ => .returned .ok

/-! ## The flags through a control request -/

/-- The device stays configured or not, and no flag is set. -/
structure FlagsKept (st st' : UsbState) : Prop where
  configured : st'.usbConfigured = st.usbConfigured
  busy : ∀ ep, st'.busy ep = true → st.busy ep = true

theorem FlagsKept.of_eq {st st' : UsbState} (hconf : st'.usbConfigured = st.usbConfigured)
    (hin : st'.epInBusy = st.epInBusy) (hnotif : st'.epNotifBusy = st.epNotifBusy) :
    FlagsKept st st' where
  configured := hconf
  busy := by
    intro ep hb
    cases ep with
    | data => exact hin.symm.trans hb
    | notif => exact hnotif.symm.trans hb

section

variable (pkt : SetupPacket) (st : UsbState)

theorem handleGetDescriptor_flags (wValue wLength : UInt16) :
    FlagsKept st (handleGetDescriptor wValue wLength st) := by
  unfold handleGetDescriptor
  dsimp only
  repeat' split
  all_goals exact .of_eq rfl rfl rfl

theorem handleClassRequest_flags {st' : UsbState} (h : handleClassRequest pkt st = some st') :
    FlagsKept st st' := by
  unfold handleClassRequest at h
  repeat' split at h
  all_goals cases h
  all_goals exact .of_eq rfl rfl rfl

/-- Setting or clearing the halt of an IN endpoint clears its flag. -/
theorem epSetHalt_flags (addr : UInt8) (halt : Bool) :
    FlagsKept st (epSetHalt addr halt st) ∧
      ∀ ep, addr &&& 0x80 ≠ 0 → addr &&& 0x0F = ep.num →
        (epSetHalt addr halt st).busy ep = false := by
  unfold epSetHalt
  dsimp only
  by_cases hnum : addr &&& 0x0F = 0 ∨ addr &&& 0x0F > epNotif
  · rw [if_pos hnum]
    refine ⟨.of_eq rfl rfl rfl, ?_⟩
    intro ep _ hep
    rw [hep] at hnum
    cases ep <;> exact absurd hnum (by decide)
  rw [if_neg hnum]
  by_cases hin : addr &&& 0x80 ≠ 0
  · rw [if_pos hin]
    by_cases hdata : addr &&& 0x0F = epData
    · rw [if_pos hdata]
      refine ⟨⟨rfl, ?_⟩, ?_⟩
      · intro ep hb
        cases ep with
        | data => cases hb
        | notif => exact hb
      · intro ep _ hep
        cases ep with
        | data => rfl
        | notif => exact absurd (hdata.symm.trans hep) (by decide)
    · rw [if_neg hdata]
      refine ⟨⟨rfl, ?_⟩, ?_⟩
      · intro ep hb
        cases ep with
        | data => exact hb
        | notif => cases hb
      · intro ep _ hep
        cases ep with
        | data => exact absurd hep hdata
        | notif => rfl
  · rw [if_neg hin]
    refine ⟨?_, fun ep hset => absurd hset hin⟩
    split <;> exact .of_eq rfl rfl rfl

theorem handleSetup_standard (hstd : pkt.type = 0x00) :
    handleSetup pkt st =
      match handleStandardRequest pkt st with
      | some st => ep0Arm st
      | none => ep0Stall st := by
  have hclass : ¬ pkt.type = 0x01 := by
    rw [hstd]
    decide
  cases hanswer : handleStandardRequest pkt st with
  | none => simp only [handleSetup, if_neg hclass, if_pos hstd, hanswer]
  | some st' => simp only [handleSetup, if_neg hclass, if_pos hstd, hanswer]

theorem handleStandardRequest_configuration (hreq : pkt.bRequest = reqSetConfiguration) :
    handleStandardRequest pkt st =
      if pkt.wValue ≠ 0 then some (ep0Send [] 0 { epOpen st with usbConfigured := 1 })
      else some (ep0Send [] 0 { epClose st with usbConfigured := 0 }) := by
  unfold handleStandardRequest
  rw [hreq, if_neg (by decide), if_neg (by decide), if_pos rfl]

/-- A halt is never stalled. -/
theorem handleStandardRequest_feature (hreq : pkt.bRequest = reqSetFeature) :
    handleStandardRequest pkt st ≠ none := by
  unfold handleStandardRequest
  rw [hreq, if_neg (by decide), if_neg (by decide), if_neg (by decide), if_neg (by decide),
    if_neg (by decide), if_neg (by decide), if_pos (.inr rfl)]
  nofun

/-- A request that is not SET_CONFIGURATION sets no flag, and clears that of a halted
endpoint. -/
structure SetupFlags (st st' : UsbState) : Prop where
  kept : FlagsKept st st'
  halted : ∀ ep, pkt.Halts ep → st'.busy ep = false

theorem handleStandardRequest_flags {st' : UsbState} (hconf : ¬ pkt.bRequest = reqSetConfiguration)
    (h : handleStandardRequest pkt st = some st') : SetupFlags pkt st st' := by
  have hother : ∀ {req : UInt8}, pkt.bRequest = req → req ≠ reqSetFeature → ∀ ep, ¬ pkt.Halts ep :=
    fun hreq hne ep hhalt => hne (hreq.symm.trans hhalt.2.1)
  cases handleStandardRequest_cases h with
  | descriptor hreq =>
    exact ⟨handleGetDescriptor_flags st _ _, fun ep hhalt => absurd hhalt (hother hreq (by decide) ep)⟩
  | address hreq addr =>
    exact ⟨.of_eq rfl rfl rfl, fun ep hhalt => absurd hhalt (hother hreq (by decide) ep)⟩
  | configured hreq hvalue => exact absurd hreq hconf
  | deconfigured hreq hvalue => exact absurd hreq hconf
  | read hreq hread data =>
    refine ⟨.of_eq rfl rfl rfl, fun ep hhalt => absurd hhalt (hother hreq ?_ ep)⟩
    rcases hread with rfl | rfl | rfl <;> decide
  | feature hreq =>
    by_cases hep : pkt.recipient = 0x02 ∧ pkt.wValue = 0x00
    · rw [if_pos hep]
      obtain ⟨hkept, hclear⟩ := epSetHalt_flags st pkt.wIndex.toUInt8
        (decide (pkt.bRequest = reqSetFeature))
      exact ⟨⟨hkept.configured, hkept.busy⟩, fun ep hhalt => hclear ep hhalt.2.2.2.1 hhalt.2.2.2.2⟩
    · rw [if_neg hep]
      exact ⟨.of_eq rfl rfl rfl, fun ep hhalt => absurd hhalt.2.2.1 hep⟩
  | interface hreq =>
    have hclear : ∀ ep, (ep0Send [] 0 (epResetToggles st)).busy ep = false := by
      intro ep
      cases ep <;> rfl
    exact ⟨⟨rfl, fun ep hb => Bool.noConfusion ((hclear ep).symm.trans hb)⟩, fun ep _ => hclear ep⟩

theorem handleSetup_flags (hconf : ¬ pkt.SetsConfiguration) :
    SetupFlags pkt st (handleSetup pkt st) := by
  by_cases hstd : pkt.type = 0x00
  · rw [handleSetup_standard pkt st hstd]
    cases hanswer : handleStandardRequest pkt st with
    | none =>
      refine ⟨.of_eq rfl rfl rfl, fun ep hhalt => ?_⟩
      exact absurd hanswer (handleStandardRequest_feature pkt st hhalt.2.1)
    | some st' =>
      have hflags := handleStandardRequest_flags pkt st (fun hreq => hconf ⟨hstd, hreq⟩) hanswer
      exact ⟨⟨hflags.kept.configured, hflags.kept.busy⟩, hflags.halted⟩
  · refine ⟨?_, fun ep hhalt => absurd hhalt.1 hstd⟩
    unfold handleSetup
    by_cases hclass : pkt.type = 0x01
    · rw [if_pos hclass]
      cases hanswer : handleClassRequest pkt st with
      | none => exact .of_eq rfl rfl rfl
      | some st' =>
        obtain ⟨hkept, hbusy⟩ := handleClassRequest_flags pkt st hanswer
        exact ⟨hkept, hbusy⟩
    · rw [if_neg hclass, if_neg hstd]
      exact .of_eq rfl rfl rfl

/-- SET_CONFIGURATION opens both IN endpoints and clears the flag of one. -/
theorem handleSetup_configured (hconf : pkt.SetsConfiguration) (hvalue : pkt.wValue ≠ 0) :
    (handleSetup pkt st).usbConfigured = 1 ∧ (handleSetup pkt st).epInBusy = false ∧
      (handleSetup pkt st).epNotifBusy = st.epNotifBusy := by
  rw [handleSetup_standard pkt st hconf.1, handleStandardRequest_configuration pkt st hconf.2,
    if_pos hvalue]
  exact ⟨rfl, rfl, rfl⟩

theorem handleSetup_deconfigured (hconf : pkt.SetsConfiguration) (hvalue : ¬ pkt.wValue ≠ 0) :
    (handleSetup pkt st).usbConfigured = 0 := by
  rw [handleSetup_standard pkt st hconf.1, handleStandardRequest_configuration pkt st hconf.2,
    if_neg hvalue]
  rfl

end

/-! ## The invariant -/

/-- On a configured device a set flag stands for a transfer. -/
def BusyIsLive (st : CdcState) : Prop :=
  st.usb.usbConfigured ≠ 0 → ∀ ep, st.usb.busy ep = true → st.live ep = true

/-- A call that gives up has not waited for what can no longer be done. -/
def TimesOutOnLive (st : CdcState) : Prop :=
  ∀ task ep spins lens, st.calls task = .checking ep spins lens →
    (sendStep task st).calls task = .returned .errTimeout →
    st.usb.busy ep = true → st.live ep = true

structure BusyHasTransfer (st : CdcState) : Prop where
  busy : BusyIsLive st
  timeouts : TimesOutOnLive st

/-- SET_CONFIGURATION does not meet a notification in flight, and the driver is not
brought up again over a transfer of a configured device. -/
def ClearsFlags (st : CdcState) : CdcEvent → Prop
  | .bus (.setup pkt) =>
    st.gint = true → pkt.SetsConfiguration → pkt.wValue ≠ 0 → st.usb.epNotifBusy = false
  | .init run =>
    run.resets = true → st.usb.usbConfigured ≠ 0 →
      st.usb.epInBusy = false ∧ st.usb.epNotifBusy = false
  | _ => True

theorem BusyIsLive.timesOut {st : CdcState} (h : BusyIsLive st) : TimesOutOnLive st := by
  intro task ep spins lens hcall hret
  have hconf : st.usb.usbConfigured ≠ 0 := by
    intro hzero
    unfold sendStep at hret
    rw [hcall] at hret
    simp [hzero, CdcState.setCall] at hret
  exact h hconf ep

theorem BusyIsLive.of_kept {st st' : CdcState} (h : BusyIsLive st)
    (hflags : FlagsKept st.usb st'.usb) (hlive : ∀ ep, st'.usb.busy ep = true → st.live ep = true →
      st'.live ep = true) : BusyIsLive st' := by
  intro hconf ep hb
  rw [hflags.configured] at hconf
  exact hlive ep hb (h hconf ep (hflags.busy ep hb))

/-! ## One step -/

theorem halUsbCdcRead_flags (maxlen : UInt16) (st : UsbState) :
    FlagsKept st (halUsbCdcRead maxlen st).2 := by
  unfold halUsbCdcRead
  dsimp only
  split <;> exact .of_eq rfl rfl rfl

section

variable {st : CdcState}

theorem serve_live_of_ends {event : UsbEvent} {ep : InEp} (hends : event.EndsTransfer ep) :
    (st.serve event).live ep = false :=
  if_pos hends

theorem serve_live {event : UsbEvent} {ep : InEp} (hends : ¬ event.EndsTransfer ep) :
    (st.serve event).live ep = st.live ep :=
  if_neg hends

/-- An event that clears the flag of what it ends, and sets none. -/
theorem BusyIsLive.serve (h : BusyIsLive st) (event : UsbEvent)
    (hflags : FlagsKept st.usb (usbStep st.usb event))
    (hends : ∀ ep, event.EndsTransfer ep → (usbStep st.usb event).busy ep = false) :
    BusyIsLive (st.serve event) := by
  refine h.of_kept hflags fun ep hb hlive => ?_
  have hgoes : ¬ event.EndsTransfer ep := by
    intro hends'
    exact Bool.noConfusion ((hends ep hends').symm.trans hb)
  rw [serve_live hgoes]
  exact hlive

theorem onInDone_busy (num : UInt8) (usb : UsbState) :
    FlagsKept usb (onInDone num usb) ∧ ∀ ep, num = InEp.num ep → (onInDone num usb).busy ep = false := by
  unfold onInDone
  by_cases hdata : num = epData
  · rw [if_pos hdata]
    refine ⟨⟨rfl, fun ep hb => ?_⟩, fun ep hep => ?_⟩
    · cases ep with
      | data => cases hb
      | notif => exact hb
    · cases ep with
      | data => rfl
      | notif => exact absurd (hdata.symm.trans hep) (by decide)
  · rw [if_neg hdata]
    by_cases hnotif : num = epNotif
    · rw [if_pos hnotif]
      refine ⟨⟨rfl, fun ep hb => ?_⟩, fun ep hep => ?_⟩
      · cases ep with
        | data => exact hb
        | notif => cases hb
      · cases ep with
        | data => exact absurd (hnotif.symm.trans hep) (by decide)
        | notif => rfl
    · rw [if_neg hnotif]
      refine ⟨.of_eq rfl rfl rfl, fun ep hep => ?_⟩
      cases ep with
      | data => exact absurd hep hdata
      | notif => exact absurd hep hnotif

/-- A request keeps the flags true unless it opens the endpoints over a notification. -/
theorem busyIsLive_setup_iff (h : BusyIsLive st) (pkt : SetupPacket) :
    BusyIsLive (st.serve (.setup pkt)) ↔
      (pkt.SetsConfiguration → pkt.wValue ≠ 0 → st.usb.epNotifBusy = false) := by
  by_cases hconf : pkt.SetsConfiguration
  · by_cases hvalue : pkt.wValue ≠ 0
    · obtain ⟨hon, hin, hnotif⟩ := handleSetup_configured pkt st.usb hconf hvalue
      constructor
      · intro hlive _ _
        refine Bool.eq_false_iff.mpr fun hbusy => ?_
        have hset : (handleSetup pkt st.usb).busy .notif = true := hnotif.trans hbusy
        have hones : (handleSetup pkt st.usb).usbConfigured ≠ 0 := by
          rw [hon]
          decide
        have hends : (UsbEvent.setup pkt).EndsTransfer .notif := Or.inl hconf
        exact Bool.noConfusion ((serve_live_of_ends hends).symm.trans (hlive hones .notif hset))
      · intro hclear _ ep hb
        cases ep with
        | data => exact Bool.noConfusion (hin.symm.trans hb)
        | notif => exact Bool.noConfusion ((hnotif.trans (hclear hconf hvalue)).symm.trans hb)
    · refine iff_of_true (fun hon => ?_) fun _ hne => absurd hne hvalue
      exact absurd (handleSetup_deconfigured pkt st.usb hconf hvalue) hon
  · refine iff_of_true ?_ fun hc => absurd hc hconf
    have hflags := handleSetup_flags pkt st.usb hconf
    refine h.serve (.setup pkt) hflags.kept fun ep hends => ?_
    exact hflags.halted ep (hends.resolve_left hconf)

/-- The events that concern neither flag. -/
theorem busyIsLive_other (h : BusyIsLive st) (event : UsbEvent)
    (hflags : FlagsKept st.usb (usbStep st.usb event)) (hends : ∀ ep, ¬ event.EndsTransfer ep) :
    BusyIsLive (st.serve event) :=
  h.serve event hflags fun ep hends' => absurd hends' (hends ep)

theorem busyIsLive_serve_iff (h : BusyIsLive st) (hgint : st.gint = true) (event : UsbEvent) :
    BusyIsLive (st.serve event) ↔ ClearsFlags st (.bus event) := by
  cases event with
  | busReset => exact iff_of_true (fun hon => absurd rfl hon) trivial
  | setup pkt =>
    refine (busyIsLive_setup_iff h pkt).trans ?_
    exact ⟨fun hclear _ => hclear, fun hclear => hclear hgint⟩
  | inDone num =>
    obtain ⟨hkept, hdone⟩ := onInDone_busy num st.usb
    exact iff_of_true (h.serve (.inDone num) hkept hdone) trivial
  | controlOutDone =>
    refine iff_of_true (busyIsLive_other h _ ?_ fun _ => id) trivial
    show FlagsKept st.usb (onControlOutDone st.usb)
    unfold onControlOutDone
    split <;> exact .of_eq rfl rfl rfl
  | bulkData pkt =>
    refine iff_of_true (busyIsLive_other h _ ?_ fun _ => id) trivial
    show FlagsKept st.usb (onBulkData pkt st.usb)
    unfold onBulkData
    split <;> exact .of_eq rfl rfl rfl
  | bulkOutDone =>
    refine iff_of_true (busyIsLive_other h _ ?_ fun _ => id) trivial
    show FlagsKept st.usb (onBulkOutDone st.usb)
    unfold onBulkOutDone
    dsimp only
    repeat' split
    all_goals exact .of_eq rfl rfl rfl
  | read maxlen =>
    exact iff_of_true (busyIsLive_other h _ (halUsbCdcRead_flags maxlen st.usb) fun _ => id) trivial
  | controlData data =>
    exact iff_of_true (busyIsLive_other h _ (.of_eq rfl rfl rfl) fun _ => id) trivial
  | suspend => exact iff_of_true (busyIsLive_other h _ (.of_eq rfl rfl rfl) fun _ => id) trivial
  | resume => exact iff_of_true (busyIsLive_other h _ (.of_eq rfl rfl rfl) fun _ => id) trivial

theorem BusyIsLive.setCall (h : BusyIsLive st) (task : Nat) (call : SendCall) :
    BusyIsLive (st.setCall task call) :=
  h

theorem BusyIsLive.beginSend (h : BusyIsLive st) (task : Nat) (ep : InEp) (lens : List Nat) :
    BusyIsLive (beginSend task ep lens st) := by
  unfold NavHAL.Usb.beginSend
  split
  · split
    · exact h.setCall _ _
    · exact h.setCall _ _
  · exact h

theorem BusyIsLive.arm (h : BusyIsLive st) (ep : InEp) : BusyIsLive (st.arm ep) := by
  intro hconf e hb
  have hlive : (st.arm ep).live e = if e = ep then true else st.live e := rfl
  rw [hlive]
  by_cases he : e = ep
  · rw [if_pos he]
  · rw [if_neg he]
    cases ep with
    | data =>
      cases e with
      | data => exact absurd rfl he
      | notif => exact h hconf .notif hb
    | notif =>
      cases e with
      | data => exact h hconf .data hb
      | notif => exact absurd rfl he

theorem BusyIsLive.sendStep (h : BusyIsLive st) (task : Nat) : BusyIsLive (sendStep task st) := by
  unfold NavHAL.Usb.sendStep
  split
  · exact h
  · split
    · exact h.setCall _ _
    · exact h.setCall _ _
  · split
    · exact h.setCall _ _
    · split
      · exact h.setCall _ _
      · exact h.setCall _ _
  · split
    · exact (h.arm _).setCall _ _
    · exact h

theorem BusyIsLive.deinit (h : BusyIsLive st) : BusyIsLive (halUsbCdcDeinit st).2 := by
  unfold halUsbCdcDeinit
  split
  · exact fun hconf => absurd rfl hconf
  · exact h

/-- A reset of the core ends both transfers and clears no flag. -/
theorem busyIsLive_coreReset_iff :
    BusyIsLive (coreReset st) ↔
      (st.usb.usbConfigured ≠ 0 → st.usb.epInBusy = false ∧ st.usb.epNotifBusy = false) := by
  constructor
  · intro hlive hconf
    have hclear : ∀ ep, st.usb.busy ep = false :=
      fun ep => Bool.eq_false_iff.mpr fun hb => Bool.noConfusion (hlive hconf ep hb)
    exact ⟨hclear .data, hclear .notif⟩
  · intro hclear hconf ep hb
    obtain ⟨hin, hnotif⟩ := hclear hconf
    cases ep with
    | data => exact Bool.noConfusion (hin.symm.trans hb)
    | notif => exact Bool.noConfusion (hnotif.symm.trans hb)

theorem busyIsLive_init_iff (h : BusyIsLive st) (run : InitRun) :
    BusyIsLive (halUsbCdcInit run st).2 ↔ ClearsFlags st (.init run) := by
  have hasked : ∀ {run : InitRun}, run.resets = true → (ClearsFlags st (.init run) ↔
      (st.usb.usbConfigured ≠ 0 → st.usb.epInBusy = false ∧ st.usb.epNotifBusy = false)) :=
    fun hreset => ⟨fun hc => hc hreset, fun hc _ => hc⟩
  cases run with
  | noClock => exact iff_of_true h fun hreset => Bool.noConfusion hreset
  | busNotIdle => exact iff_of_true h fun hreset => Bool.noConfusion hreset
  | resetStuck => exact busyIsLive_coreReset_iff.trans (hasked rfl).symm
  | flushStuck => exact busyIsLive_coreReset_iff.trans (hasked rfl).symm
  | complete => exact busyIsLive_coreReset_iff.trans (hasked rfl).symm

theorem busyIsLive_step_iff (h : BusyIsLive st) (event : CdcEvent) :
    BusyIsLive (cdcStep st event) ↔ ClearsFlags st event := by
  cases event with
  | bus event =>
    unfold cdcStep
    dsimp only
    by_cases hgint : st.gint = true
    · rw [if_pos hgint]
      exact busyIsLive_serve_iff h hgint event
    · rw [if_neg hgint]
      refine iff_of_true h ?_
      cases event with
      | setup pkt => exact fun hon => absurd hon hgint
      | _ => trivial
  | read maxlen =>
    exact iff_of_true (h.of_kept (halUsbCdcRead_flags maxlen st.usb) fun _ _ hlive => hlive) trivial
  | write task length => exact iff_of_true (h.beginSend task .data _) trivial
  | notify task => exact iff_of_true (h.beginSend task .notif _) trivial
  | send task => exact iff_of_true (h.sendStep task) trivial
  | deinit => exact iff_of_true h.deinit trivial
  | init run => exact busyIsLive_init_iff h run

end

/-! ## Runs from power-on -/

/-- Every set flag stands for a transfer exactly if no event of the run leaves one
behind: SET_CONFIGURATION while a notification is in flight, or a second bring-up
while anything is. -/
theorem busy_has_transfer_iff (events : List CdcEvent) :
    Always cdcStep BusyHasTransfer cdcPowerOn events ↔ Each cdcStep ClearsFlags cdcPowerOn events := by
  have hstart : BusyIsLive cdcPowerOn := fun hconf => absurd rfl hconf
  refine always_iff_each_of (fun st hlive => ⟨hlive, hlive.timesOut⟩) ?_ ?_ events hstart
  · intro st event hlive hnext
    exact (busyIsLive_step_iff hlive event).mp hnext.busy
  · intro st event hlive hclear
    exact (busyIsLive_step_iff hlive event).mpr hclear

/-- A host that sets the configuration again before it has polled a notification. -/
def reconfigured : List CdcEvent :=
  let setConfiguration : SetupPacket :=
    { bmRequestType := 0x00, bRequest := reqSetConfiguration, wValue := 1 }
  [.init .complete, .bus .busReset, .bus (.setup setConfiguration), .notify 0, .send 0, .send 0,
    .bus (.setup setConfiguration)]

theorem notification_left_busy : ¬ Always cdcStep BusyHasTransfer cdcPowerOn reconfigured := by
  intro h
  have hlast := h.run.busy
  have hconf : (run cdcStep cdcPowerOn reconfigured).usb.usbConfigured ≠ 0 := by decide
  have hbusy : (run cdcStep cdcPowerOn reconfigured).usb.busy .notif = true := by decide
  have hlive : (run cdcStep cdcPowerOn reconfigured).live .notif = false := by decide
  exact Bool.noConfusion (hlive.symm.trans (hlast hconf .notif hbusy))

end NavHAL.Usb
