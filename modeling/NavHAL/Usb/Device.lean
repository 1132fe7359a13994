import NavHAL.Boot.Cdc
import NavHAL.Lib.Steps

/-!
# The CDC-ACM device (`usb_cdc.c`)

The driver as its interrupt handlers leave it, one event of the bus or one call
of `hal_usb_cdc_read` after the other, with no receive callback attached.
Kept of the endpoint registers: the halt bits, the address, and whether
the bulk OUT endpoint is enabled; what is queued on endpoint 0 is kept in
`ops`.  The transfers of the IN endpoints are in `InTransfers` and `BulkIn`.
-/

namespace NavHAL.Usb

open Boot (halUsbCdcPacketSize OutPacket)

/-! ## Requests -/

/-- The eight bytes of a SETUP packet, its words put together. -/
structure SetupPacket where
  bmRequestType : UInt8
  bRequest : UInt8
  wValue : UInt16 := 0
  wIndex : UInt16 := 0
  wLength : UInt16 := 0
  deriving DecidableEq, Repr

/-- 0 for a standard request, 1 for a class request. -/
def SetupPacket.type (pkt : SetupPacket) : UInt8 := (pkt.bmRequestType >>> 5) &&& 0x03

/-- 2 for a request to an endpoint. -/
def SetupPacket.recipient (pkt : SetupPacket) : UInt8 := pkt.bmRequestType &&& 0x1F

def reqGetStatus : UInt8 := 0x00
def reqClearFeature : UInt8 := 0x01
def reqSetFeature : UInt8 := 0x03
def reqSetAddress : UInt8 := 0x05
def reqGetDescriptor : UInt8 := 0x06
def reqGetConfiguration : UInt8 := 0x08
def reqSetConfiguration : UInt8 := 0x09
def reqGetInterface : UInt8 := 0x0A
def reqSetInterface : UInt8 := 0x0B

def cdcSetLineCoding : UInt8 := 0x20
def cdcGetLineCoding : UInt8 := 0x21
def cdcSetControlLineState : UInt8 := 0x22
def cdcSendBreak : UInt8 := 0x23

def epCtrl : UInt8 := 0
def epData : UInt8 := 1
def epNotif : UInt8 := 2

def ep0MaxPacket : Nat := 64
def notifMaxPacket : UInt8 := 16

/-! ## Descriptors -/

def deviceDesc : List UInt8 :=
  [18, 0x01, 0x00, 0x02, 0x02, 0x00, 0x00, 64, 0x83, 0x04, 0x40, 0x57, 0x00, 0x02,
   0x01, 0x02, 0x03, 0x01]

def configDesc : List UInt8 :=
  [9, 0x02, 67, 0x00, 0x02, 0x01, 0x00, 0x80, 50,
   9, 0x04, 0x00, 0x00, 0x01, 0x02, 0x02, 0x01, 0x00,
   5, 0x24, 0x00, 0x10, 0x01,
   5, 0x24, 0x01, 0x00, 0x01,
   4, 0x24, 0x02, 0x06,
   5, 0x24, 0x06, 0x00, 0x01,
   7, 0x05, 0x82, 0x03, notifMaxPacket, 0x00, 0x10,
   9, 0x04, 0x01, 0x00, 0x02, 0x0A, 0x00, 0x00, 0x00,
   7, 0x05, 0x01, 0x02, 64, 0x00, 0x00,
   7, 0x05, 0x81, 0x02, 64, 0x00, 0x00]

def stringLangid : List UInt8 := [4, 0x03, 0x09, 0x04]

def stringTable : List String := ["NAVRobotec", "NavHAL USB CDC", "NAVHAL-0001"]

/-! ## State -/

/-- What the driver does with endpoint 0. -/
inductive Ep0Op
  | send (data : List UInt8) (packets : Nat)
  | stall
  | arm
  deriving DecidableEq, Repr

/-- The statics behind the control transfers. -/
structure ControlState where
  /-- `ep0_buf` -/
  buf : Nat → UInt8 := fun _ => 0
  ctrlOutRequest : UInt8 := 0
  lineCoding : List UInt8 := [0x00, 0xC2, 0x01, 0x00, 0x00, 0x00, 0x08]
  ops : List Ep0Op := []

/-- `RX_RING_SIZE` -/
def rxRingSize : Nat := 512

/-- The bulk OUT endpoint and its ring. -/
structure BulkState where
  ring : Ring UInt8 rxRingSize
  outEpArmed : Bool
  /-- The core takes one packet while the endpoint is enabled. -/
  enabled : Bool
  /-- A packet is in, and its transfer complete interrupt still pending. -/
  xfrc : Bool

structure UsbState where
  control : ControlState
  bulk : BulkState
  usbConfigured : UInt8 := 0
  usbLineState : UInt8 := 0
  usbSuspended : Bool := false
  usbBreakMs : UInt16 := 0
  epInBusy : Bool := false
  epNotifBusy : Bool := false
  deviceAddress : UInt8 := 0
  inHalted : UInt8 → Bool := fun _ => false
  outHalted : UInt8 → Bool := fun _ => false

def powerOn : UsbState where
  control := {}
  bulk :=
    { ring :=
        { buf := fun _ => 0, head := 0, tail := 0, head_lt := by decide, tail_lt := by decide }
      outEpArmed := false, enabled := false, xfrc := false }

/-! ## The ring -/

/-- `ring_used` -/
def BulkState.ringUsed (bulk : BulkState) : Nat := bulk.ring.used

/-- `ring_free` -/
def BulkState.ringFree (bulk : BulkState) : Nat := rxRingSize - 1 - bulk.ringUsed

def ringPush (r : Ring UInt8 rxRingSize) : List UInt8 → Ring UInt8 rxRingSize
  | [] => r
  | b :: data =>
    match r.push b with
    | none => r
    | some r => ringPush r data

/-- The read loop: at most `n` bytes. -/
def ringPop (r : Ring UInt8 rxRingSize) : Nat → List UInt8 × Ring UInt8 rxRingSize
  | 0 => ([], r)
  | n + 1 =>
    match r.pop with
    | none => ([], r)
    | some (b, r) =>
      let rest := ringPop r n
      (b :: rest.1, rest.2)

/-! ## Endpoint helpers -/

def ControlState.emit (c : ControlState) (op : Ep0Op) : ControlState := { c with ops := c.ops ++ [op] }

/-- Write the first bytes of `ep0_buf`. -/
def ControlState.fill (c : ControlState) (data : List UInt8) : ControlState :=
  { c with buf := fun i => data[i]?.getD (c.buf i) }

def ep0Arm (st : UsbState) : UsbState := { st with control := st.control.emit .arm }

def ep0Send (data : List UInt8) (requested : UInt16) (st : UsbState) : UsbState :=
  let sent := data.take requested.toNat
  let len := sent.length
  let packets := if len ≠ 0 then (len + ep0MaxPacket - 1) / ep0MaxPacket else 1
  let packets :=
    if len ≠ 0 ∧ len < requested.toNat ∧ len % ep0MaxPacket = 0 then packets + 1 else packets
  { st with control := st.control.emit (.send sent packets) }

def ep0Stall (st : UsbState) : UsbState := ep0Arm { st with control := st.control.emit .stall }

def outArm (st : UsbState) : UsbState :=
  { st with bulk := { st.bulk with outEpArmed := true, enabled := true } }

/-- `ep_open` rewrites the control registers of the CDC endpoints, halts included. -/
def epOpen (st : UsbState) : UsbState :=
  outArm
    { st with
      epInBusy := false
      inHalted := fun num => if num = epData ∨ num = epNotif then false else st.inHalted num
      outHalted := fun num => if num = epData then false else st.outHalted num }

def epClose (st : UsbState) : UsbState :=
  { st with
    bulk := { st.bulk with outEpArmed := false, enabled := false }
    inHalted := fun num => if num = epData ∨ num = epNotif then false else st.inHalted num
    outHalted := fun num => if num = epData then false else st.outHalted num }

/-- `ep_set_halt`; the halt leaves the endpoint enabled. -/
def epSetHalt (addr : UInt8) (halt : Bool) (st : UsbState) : UsbState :=
  let num := addr &&& 0x0F
  if num = 0 ∨ num > epNotif then st
  else if addr &&& 0x80 ≠ 0 then
    let st := { st with inHalted := fun k => if k = num then halt else st.inHalted k }
    if num = epData then { st with epInBusy := false } else { st with epNotifBusy := false }
  else
    let st := { st with outHalted := fun k => if k = num then halt else st.outHalted k }
    if halt then { st with bulk := { st.bulk with outEpArmed := false } } else outArm st

def epIsHalted (addr : UInt8) (st : UsbState) : UInt8 :=
  let num := addr &&& 0x0F
  if num = 0 ∨ num > epNotif then 0
  else if (if addr &&& 0x80 ≠ 0 then st.inHalted num else st.outHalted num) then 1 else 0

def epResetToggles (st : UsbState) : UsbState :=
  outArm { st with epInBusy := false, epNotifBusy := false }

section Frame

variable (data : List UInt8) (n : UInt16) (addr : UInt8) (halt : Bool) (st : UsbState)

@[simp] theorem epSetHalt_control : (epSetHalt addr halt st).control = st.control := by
  unfold epSetHalt
  simp only []
  repeat' split
  all_goals rfl

end Frame

/-! ## Control transfers -/

/-- `make_string_desc`: at most thirty characters. -/
def makeStringDesc (s : String) : List UInt8 :=
  let chars := (s.toList.map fun c => UInt8.ofNat c.toNat).take 30
  UInt8.ofNat (2 + 2 * chars.length) :: 0x03 :: chars.flatMap fun c => [c, 0]

def handleGetDescriptor (wValue wLength : UInt16) (st : UsbState) : UsbState :=
  let type := (wValue >>> 8).toUInt8
  let index := (wValue &&& 0xFF).toNat
  if type = 0x01 then ep0Send deviceDesc wLength st
  else if type = 0x02 then ep0Send configDesc wLength st
  else if type = 0x03 then
    if index = 0 then ep0Send stringLangid wLength st
    else match stringTable[index - 1]? with
      | some s =>
        ep0Send (makeStringDesc s) wLength { st with control := st.control.fill (makeStringDesc s) }
      | none => ep0Stall st
  else ep0Stall st

/-- An answer built in `ep0_buf`. -/
def ep0Answer (data : List UInt8) (requested : UInt16) (st : UsbState) : UsbState :=
  ep0Send data requested { st with control := st.control.fill data }

/-- The class requests; `none` where the request is stalled. -/
def handleClassRequest (pkt : SetupPacket) (st : UsbState) : Option UsbState :=
  if pkt.bRequest = cdcSetLineCoding then
    some { st with control := { st.control with ctrlOutRequest := pkt.bRequest } }
  else if pkt.bRequest = cdcGetLineCoding then
    some (ep0Send st.control.lineCoding pkt.wLength st)
  else if pkt.bRequest = cdcSetControlLineState then
    some (ep0Send [] 0 { st with usbLineState := (pkt.wValue &&& 0x03).toUInt8 })
  else if pkt.bRequest = cdcSendBreak then
    some (ep0Send [] 0 { st with usbBreakMs := pkt.wValue })
  else none

/-- The standard requests; `none` where the request is stalled. -/
def handleStandardRequest (pkt : SetupPacket) (st : UsbState) : Option UsbState :=
  if pkt.bRequest = reqGetDescriptor then some (handleGetDescriptor pkt.wValue pkt.wLength st)
  else if pkt.bRequest = reqSetAddress then
    some (ep0Send [] 0 { st with deviceAddress := (pkt.wValue &&& 0x7F).toUInt8 })
  else if pkt.bRequest = reqSetConfiguration then
    if pkt.wValue ≠ 0 then some (ep0Send [] 0 { epOpen st with usbConfigured := 1 })
    else some (ep0Send [] 0 { epClose st with usbConfigured := 0 })
  else if pkt.bRequest = reqGetConfiguration then
    some (ep0Answer [st.usbConfigured] pkt.wLength st)
  else if pkt.bRequest = reqGetStatus then
    let halted := if pkt.recipient = 0x02 then epIsHalted pkt.wIndex.toUInt8 st else 0
    some (ep0Answer [halted, 0] pkt.wLength st)
  else if pkt.bRequest = reqGetInterface then some (ep0Answer [0] pkt.wLength st)
  else if pkt.bRequest = reqClearFeature ∨ pkt.bRequest = reqSetFeature then
    let st :=
      if pkt.recipient = 0x02 ∧ pkt.wValue = 0x00 then
        epSetHalt pkt.wIndex.toUInt8 (pkt.bRequest = reqSetFeature) st
      else st
    some (ep0Send [] 0 st)
  else if pkt.bRequest = reqSetInterface then some (ep0Send [] 0 (epResetToggles st))
  else none

/-- What an answered request leaves, from the request that it was. -/
inductive StandardAnswer (pkt : SetupPacket) (st : UsbState) : UsbState → Prop
  | descriptor (hreq : pkt.bRequest = reqGetDescriptor) :
    StandardAnswer pkt st (handleGetDescriptor pkt.wValue pkt.wLength st)
  | address (hreq : pkt.bRequest = reqSetAddress) (addr : UInt8) :
    StandardAnswer pkt st (ep0Send [] 0 { st with deviceAddress := addr })
  | configured (hreq : pkt.bRequest = reqSetConfiguration) (hvalue : pkt.wValue ≠ 0) :
    StandardAnswer pkt st (ep0Send [] 0 { epOpen st with usbConfigured := 1 })
  | deconfigured (hreq : pkt.bRequest = reqSetConfiguration) (hvalue : ¬ pkt.wValue ≠ 0) :
    StandardAnswer pkt st (ep0Send [] 0 { epClose st with usbConfigured := 0 })
  | read {req : UInt8} (hreq : pkt.bRequest = req)
      (hread : req = reqGetConfiguration ∨ req = reqGetStatus ∨ req = reqGetInterface)
      (data : List UInt8) :
    StandardAnswer pkt st (ep0Answer data pkt.wLength st)
  | feature (hreq : pkt.bRequest = reqClearFeature ∨ pkt.bRequest = reqSetFeature) :
    StandardAnswer pkt st (ep0Send [] 0
      (if pkt.recipient = 0x02 ∧ pkt.wValue = 0x00 then
        epSetHalt pkt.wIndex.toUInt8 (pkt.bRequest = reqSetFeature) st
      else st))
  | interface (hreq : pkt.bRequest = reqSetInterface) :
    StandardAnswer pkt st (ep0Send [] 0 (epResetToggles st))

theorem handleStandardRequest_cases {pkt : SetupPacket} {st st' : UsbState}
    (h : handleStandardRequest pkt st = some st') : StandardAnswer pkt st st' := by
  unfold handleStandardRequest at h
  by_cases hdescriptor : pkt.bRequest = reqGetDescriptor
  · rw [if_pos hdescriptor] at h
    cases h
    exact .descriptor hdescriptor
  rw [if_neg hdescriptor] at h
  by_cases haddress : pkt.bRequest = reqSetAddress
  · rw [if_pos haddress] at h
    cases h
    exact .address haddress _
  rw [if_neg haddress] at h
  by_cases hconf : pkt.bRequest = reqSetConfiguration
  · rw [if_pos hconf] at h
    by_cases hvalue : pkt.wValue ≠ 0
    · rw [if_pos hvalue] at h
      cases h
      exact .configured hconf hvalue
    · rw [if_neg hvalue] at h
      cases h
      exact .deconfigured hconf hvalue
  rw [if_neg hconf] at h
  by_cases hgetconf : pkt.bRequest = reqGetConfiguration
  · rw [if_pos hgetconf] at h
    cases h
    exact .read hgetconf (.inl rfl) _
  rw [if_neg hgetconf] at h
  by_cases hstatus : pkt.bRequest = reqGetStatus
  · rw [if_pos hstatus] at h
    cases h
    exact .read hstatus (.inr (.inl rfl)) _
  rw [if_neg hstatus] at h
  by_cases hgetiface : pkt.bRequest = reqGetInterface
  · rw [if_pos hgetiface] at h
    cases h
    exact .read hgetiface (.inr (.inr rfl)) _
  rw [if_neg hgetiface] at h
  by_cases hfeature : pkt.bRequest = reqClearFeature ∨ pkt.bRequest = reqSetFeature
  · rw [if_pos hfeature] at h
    cases h
    exact .feature hfeature
  rw [if_neg hfeature] at h
  by_cases hiface : pkt.bRequest = reqSetInterface
  · rw [if_pos hiface] at h
    cases h
    exact .interface hiface
  rw [if_neg hiface] at h
  cases h

def handleSetup (pkt : SetupPacket) (st : UsbState) : UsbState :=
  let answered :=
    if pkt.type = 0x01 then handleClassRequest pkt st
    else if pkt.type = 0x00 then handleStandardRequest pkt st
    else none
  match answered with
  | some st => ep0Arm st
  | none => ep0Stall st

/-! ## Interrupts and calls -/

def onReset (st : UsbState) : UsbState :=
  { st with
    control := ({ st.control with ctrlOutRequest := 0 } : ControlState).emit .arm
    bulk :=
      { ring := { st.bulk.ring with head := 0, tail := 0, head_lt := by decide, tail_lt := by decide }
        outEpArmed := false, enabled := false, xfrc := false }
    usbConfigured := 0
    usbLineState := 0
    usbSuspended := false
    usbBreakMs := 0
    epInBusy := false
    epNotifBusy := false
    deviceAddress := 0
    inHalted := fun _ => false
    outHalted := fun _ => false }

/-- Data for endpoint 0 in `on_rxflvl`. -/
def onControlData (data : List UInt8) (st : UsbState) : UsbState :=
  { st with control := st.control.fill (data.take ep0MaxPacket) }

/-- The bulk OUT endpoint accepts a packet: it is enabled, and not halted. -/
def UsbState.takes (st : UsbState) : Bool := st.bulk.enabled && !st.outHalted epData

/-- Data for the bulk endpoint in `on_rxflvl`: the packet disables the endpoint. -/
def onBulkData (pkt : OutPacket) (st : UsbState) : UsbState :=
  if st.takes then
    { st with bulk :=
      { st.bulk with ring := ringPush st.bulk.ring pkt.bytes, enabled := false, xfrc := true } }
  else st

/-- The transfer complete interrupt of endpoint 0 in `on_out_ep_int`. -/
def onControlOutDone (st : UsbState) : UsbState :=
  if st.control.ctrlOutRequest = cdcSetLineCoding then
    ep0Arm (ep0Send [] 0
      { st with control :=
        { st.control with
          lineCoding := (List.range 7).map st.control.buf
          ctrlOutRequest := 0 } })
  else ep0Arm st

/-- The transfer complete interrupt of the bulk endpoint in `on_out_ep_int`. -/
def onBulkOutDone (st : UsbState) : UsbState :=
  if st.bulk.xfrc then
    let st := { st with bulk := { st.bulk with xfrc := false } }
    if halUsbCdcPacketSize ≤ st.bulk.ringFree then outArm st
    else { st with bulk := { st.bulk with outEpArmed := false } }
  else st

/-- `on_in_ep_int` for one endpoint. -/
def onInDone (ep : UInt8) (st : UsbState) : UsbState :=
  if ep = epData then { st with epInBusy := false }
  else if ep = epNotif then { st with epNotifBusy := false }
  else st

/-- `hal_usb_cdc_read` into a buffer that is there. -/
def halUsbCdcRead (maxlen : UInt16) (st : UsbState) : List UInt8 × UsbState :=
  let popped := ringPop st.bulk.ring maxlen.toNat
  let st := { st with bulk := { st.bulk with ring := popped.2 } }
  if st.bulk.outEpArmed = false ∧ st.usbConfigured ≠ 0 ∧ halUsbCdcPacketSize ≤ st.bulk.ringFree then
    (popped.1, outArm st)
  else (popped.1, st)

inductive UsbEvent
  | busReset
  | setup (pkt : SetupPacket)
  | controlData (data : List UInt8)
  | controlOutDone
  | bulkData (pkt : OutPacket)
  | bulkOutDone
  | inDone (ep : UInt8)
  | suspend
  | resume
  | read (maxlen : UInt16)

def usbStep (st : UsbState) : UsbEvent → UsbState
  | .busReset => onReset st
  | .setup pkt => handleSetup pkt st
  | .controlData data => onControlData data st
  | .controlOutDone => onControlOutDone st
  | .bulkData pkt => onBulkData pkt st
  | .bulkOutDone => onBulkOutDone st
  | .inDone ep => onInDone ep st
  | .suspend => { st with usbSuspended := true }
  | .resume => { st with usbSuspended := false }
  | .read maxlen => (halUsbCdcRead maxlen st).2

end NavHAL.Usb
