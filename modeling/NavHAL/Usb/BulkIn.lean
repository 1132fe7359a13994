import Mathlib.Algebra.GroupWithZero.Nat
import Mathlib.Logic.Relation
import NavHAL.Lib.Access
import NavHAL.Lib.Bytes
import NavHAL.Usb.InTransfers

/-!
# The bulk IN endpoint, and the driver that fills it

`hal_usb_cdc_write` down to its accesses.  Between any two of them the host may collect a
packet, and an interrupt be served unless the driver has masked them.  A bus reset or a
control request that opens, closes or halts the endpoint leaves its FIFO as it is: only
`hal_usb_cdc_init` flushes it.
-/

namespace NavHAL.Usb.BulkIn

open Access (Program perform)
open Boot (halUsbCdcPacketSize)
open Bytes (unpack)

/-! ## The endpoint -/

/-- The share of the bulk endpoint in the FIFO memory, in words. -/
def fifoTx1Words : Nat := 96

def words (n : Nat) : Nat := (n + 3) / 4

/-- `USB_EPTSIZ_XFRSIZ` and `USB_EPTSIZ_PKTCNT` -/
def usbEptsizXfrsiz (x : UInt32) : UInt32 := x &&& 0x7FFFF

def usbEptsizPktcnt (x : UInt32) : UInt32 := (x &&& 0x3FF) <<< 19

/-- The fields, as the core reads them. -/
def xfrsiz (tsiz : UInt32) : Nat := (tsiz &&& 0x7FFFF).toNat

def pktcnt (tsiz : UInt32) : Nat := (tsiz >>> 19 &&& 0x3FF).toNat

structure Endpoint where
  /-- `DIEPTSIZ1` as it was written -/
  tsiz : UInt32
  /-- Of the armed transfer, the bytes and the packets still to go. -/
  size : Nat
  count : Nat
  /-- `USB_EPCTL_EPENA` -/
  enabled : Bool
  /-- `USB_EPINT_XFRC` -/
  xfrc : Bool
  fifo : List UInt32
  /-- What the host has collected. -/
  packets : List (List UInt8)
  /-- The sizes of the transfers armed so far, how many of them while one was not complete,
  and how many words were written to a full FIFO. -/
  transfers : List Nat
  overlaps : Nat
  lost : Nat

namespace Endpoint

/-- As `hal_usb_cdc_init` leaves it, after a flush. -/
def flushed (ep : Endpoint) : Endpoint :=
  { ep with tsiz := 0, size := 0, count := 0, enabled := false, xfrc := false, fifo := [] }

/-- The control register was written over.  The core may drop the enable bit with it; a
completion that is pending is cleared or served before a task goes on, if the driver no
longer waits for it. -/
def rewritten (kept busy : Bool) (ep : Endpoint) : Endpoint :=
  { ep with enabled := ep.enabled && kept, xfrc := ep.xfrc && busy }

/-- The size of the packet that is next. -/
def next (ep : Endpoint) : Nat := min halUsbCdcPacketSize ep.size

/-- An IN token is answered with data if the whole packet is in the FIFO. -/
def Sendable (ep : Endpoint) : Prop := ep.enabled = true ∧ words ep.next ≤ ep.fifo.length

/-- The host collects a packet; the last one completes the transfer. -/
def collect (ep : Endpoint) : Endpoint :=
  { ep with
    packets := ep.packets ++ [(unpack (ep.fifo.take (words ep.next))).take ep.next]
    fifo := ep.fifo.drop (words ep.next)
    size := ep.size - ep.next
    count := ep.count - 1
    enabled := decide (1 < ep.count)
    xfrc := ep.xfrc || decide (ep.count ≤ 1) }

/-- `CTL |= USB_EPCTL_EPENA | USB_EPCTL_CNAK`: a transfer is armed. -/
def enable (ep : Endpoint) : Endpoint :=
  { ep with
    size := xfrsiz ep.tsiz
    count := pktcnt ep.tsiz
    enabled := true
    transfers := ep.transfers ++ [xfrsiz ep.tsiz]
    overlaps := if ep.enabled then ep.overlaps + 1 else ep.overlaps }

/-- A word written to the FIFO. -/
def push (word : UInt32) (ep : Endpoint) : Endpoint :=
  if ep.fifo.length < fifoTx1Words then { ep with fifo := ep.fifo ++ [word] }
  else { ep with lost := ep.lost + 1 }

end Endpoint

/-- `count` packets of `bytes`. -/
def burst : Nat → List UInt8 → List (List UInt8)
  | 0, _ => []
  | count + 1, bytes =>
    bytes.take halUsbCdcPacketSize :: burst count (bytes.drop halUsbCdcPacketSize)

/-- The packets of the armed transfer that are still to go. -/
def Endpoint.pending (ep : Endpoint) : List (List UInt8) :=
  if ep.enabled then burst ep.count ((unpack ep.fifo).take ep.size) else []

/-! ## What happens on its own -/

structure BusState where
  usb : UsbState
  ep : Endpoint
  /-- Interrupts are masked. -/
  masked : Bool

/-- An event that is no control request, nor the end of a transfer of this endpoint. -/
def Unrelated : UsbEvent → Prop
  | .bulkData _ | .bulkOutDone | .suspend | .resume | .read _ => True
  | .inDone ep => ep ≠ epData
  | .busReset | .setup _ | .controlData _ | .controlOutDone => False

def IsControl : UsbEvent → Prop
  | .busReset | .setup _ | .controlData _ | .controlOutDone => True
  | .bulkData _ | .bulkOutDone | .suspend | .resume | .read _ | .inDone _ => False

/-- SET_INTERFACE, or a halt of the bulk IN endpoint set or cleared. -/
def SetupPacket.ClearsBusy (pkt : SetupPacket) : Prop :=
  pkt.type = 0x00 ∧ (pkt.bRequest = reqSetInterface ∨
    (pkt.bRequest = reqClearFeature ∨ pkt.bRequest = reqSetFeature) ∧
      (pkt.recipient = 0x02 ∧ pkt.wValue = 0x00) ∧
      pkt.wIndex.toUInt8 &&& 0x80 ≠ 0 ∧ pkt.wIndex.toUInt8 &&& 0x0F = epData)

instance (pkt : SetupPacket) : Decidable (SetupPacket.ClearsBusy pkt) :=
  inferInstanceAs (Decidable (_ ∧ _))

/-- The control register of the endpoint is written over, or `ep_in_busy` cleared. -/
def Disturbs : UsbEvent → Prop
  | .busReset => True
  | .setup pkt => pkt.SetsConfiguration ∨ SetupPacket.ClearsBusy pkt
  | _ => False

instance : (event : UsbEvent) → Decidable (Disturbs event)
  | .busReset => inferInstanceAs (Decidable True)
  | .setup _ => inferInstanceAs (Decidable (_ ∨ _))
  | .controlData _ | .controlOutDone | .bulkData _ | .bulkOutDone | .inDone _ | .suspend
  | .resume | .read _ => inferInstanceAs (Decidable False)

inductive Host
  /-- Collects every packet within the budget, and sends no control request. -/
  | prompt
  /-- Disturbs the endpoint only while no transfer is armed. -/
  | orderly
  | any
  deriving DecidableEq

def Host.MaySend (s : BusState) (event : UsbEvent) : Host → Prop
  | prompt => False
  | orderly => Disturbs event → s.ep.enabled = false
  | any => True

/-- A control event; of the endpoint it touches the control register and the interrupt. -/
def BusState.serve (kept : Bool) (event : UsbEvent) (s : BusState) : BusState :=
  { s with
    usb := usbStep s.usb event
    ep := if Disturbs event then s.ep.rewritten kept (usbStep s.usb event).epInBusy else s.ep }

inductive BusStep (host : Host) : BusState → BusState → Prop
  | collected {s : BusState} (hsend : s.ep.Sendable) (hhalt : s.usb.inHalted epData = false) :
      BusStep host s { s with ep := s.ep.collect }
  /-- `on_in_ep_int` -/
  | served {s : BusState} (hon : s.masked = false) (hxfrc : s.ep.xfrc = true) :
      BusStep host s { s with usb := onInDone epData s.usb, ep := { s.ep with xfrc := false } }
  | other {s : BusState} {event : UsbEvent} (hon : s.masked = false) (hevent : Unrelated event) :
      BusStep host s { s with usb := usbStep s.usb event }
  | request {s : BusState} {event : UsbEvent} (kept : Bool) (hon : s.masked = false)
      (hevent : IsControl event) (hmay : host.MaySend s event) :
      BusStep host s (s.serve kept event)

/-! ## The driver -/

inductive CdcAccess
  /-- `while (ep_in_busy)`, with so much of the budget left -/
  | pollBusy (spins : Nat)
  /-- `if (!usb_configured)` -/
  | readConfigured
  /-- `hal_interrupt_disable_global` and `hal_interrupt_enable_global` -/
  | disableGlobal
  | enableGlobal (state : Bool)
  /-- `ep_in_busy = 1` -/
  | setBusy
  | writeTsiz (tsiz : UInt32)
  | enable
  /-- `USB_FIFO(EP_DATA) = word` -/
  | pushFifo (word : UInt32)

abbrev Answer : CdcAccess → Type
  | .pollBusy _ | .readConfigured | .disableGlobal => Bool
  | _ => Unit

abbrev CdcProgram := Program CdcAccess Answer

abbrev pollBusy (spins : Nat) : CdcProgram Bool := perform (CdcAccess.pollBusy spins)

abbrev readConfigured : CdcProgram Bool := perform CdcAccess.readConfigured

abbrev disableGlobal : CdcProgram Bool := perform CdcAccess.disableGlobal

abbrev enableGlobal (state : Bool) : CdcProgram Unit := perform (CdcAccess.enableGlobal state)

abbrev setBusy : CdcProgram Unit := perform CdcAccess.setBusy

abbrev writeTsiz (tsiz : UInt32) : CdcProgram Unit := perform (CdcAccess.writeTsiz tsiz)

abbrev enable : CdcProgram Unit := perform CdcAccess.enable

abbrev pushFifo (word : UInt32) : CdcProgram Unit := perform (CdcAccess.pushFifo word)

/-- With a prompt host a transfer is collected and served before the poll that spends the
budget. -/
def Answered (host : Host) (s : BusState) : (i : CdcAccess) → Answer i → Prop
  | .pollBusy spins, busy =>
    busy = s.usb.epInBusy ∧ (host = .prompt → busy = true → spins ≠ 1)
  | .readConfigured, set => set = decide (s.usb.usbConfigured ≠ 0)
  | .disableGlobal, state => state = s.masked
  | .enableGlobal _, _ | .setBusy, _ | .writeTsiz _, _ | .enable, _ | .pushFifo _, _ => True

def effect (s : BusState) : CdcAccess → BusState
  | .pollBusy _ | .readConfigured => s
  | .disableGlobal => { s with masked := true }
  | .enableGlobal state => { s with masked := state }
  | .setBusy => { s with usb := { s.usb with epInBusy := true } }
  | .writeTsiz tsiz => { s with ep := { s.ep with tsiz := tsiz } }
  | .enable => { s with ep := s.ep.enable }
  | .pushFifo word => { s with ep := s.ep.push word }

def accessed (host : Host) (i : CdcAccess) (s : BusState) (b : Answer i) (s' : BusState) : Prop :=
  Answered host s i b ∧ s' = effect s i

/-- Until the busy flag is clear. -/
def waitIdle : Nat → CdcProgram HalStatus
  | 0 => .done .errTimeout
  | spins + 1 => do
    if ← pollBusy (spins + 1) then
      if ← readConfigured then
        if spins = 0 then return .errTimeout else waitIdle spins
      else return .errNotInitialized
    else return .ok

section

variable (mem : Nat → UInt8)

/-- `for (uint16_t b = 0; b < 4 && (i + b) < len; b++)`, with `4 - b` rounds to go. -/
def wordLoop (src : Nat) (len i : UInt16) (b : Nat) : Nat → UInt32 → UInt32
  | 0, word => word
  | rounds + 1, word =>
    if i.toNat + b < len.toNat then
      wordLoop src len i (b + 1) rounds
        (word ||| ((mem (src + (i.toNat + b))).toUInt32 <<< UInt32.ofNat (8 * b)))
    else word

/-- `for (uint16_t i = 0; i < len; i += 4)`; up to the sizes at which `i` would wrap, `len`
rounds are enough. -/
def fifoLoop (src : Nat) (len : UInt16) : Nat → UInt16 → CdcProgram Unit
  | 0, _ => .done ()
  | rounds + 1, i =>
    if i < len then do
      pushFifo (wordLoop mem src len i 0 4 0)
      fifoLoop src len rounds (i + 4)
    else .done ()

def fifoWrite (src : Nat) (len : UInt16) : CdcProgram Unit := fifoLoop mem src len len.toNat 0

def packetCount (len : UInt16) : UInt32 :=
  if len ≠ 0 then
    (len.toUInt32 + UInt32.ofNat halUsbCdcPacketSize - 1) / UInt32.ofNat halUsbCdcPacketSize
  else 1

def fill (src : Nat) (len : UInt16) : CdcProgram Unit :=
  if len ≠ 0 then fifoWrite mem src len else .done ()

/-- Arm and fill, with interrupts off. -/
def armAndFill (src : Nat) (len : UInt16) : CdcProgram Unit := do
  let state ← disableGlobal
  setBusy
  writeTsiz (usbEptsizPktcnt (packetCount len) ||| usbEptsizXfrsiz len.toUInt32)
  enable
  fill mem src len
  enableGlobal state

def epInTransfer (src : Nat) (len : UInt16) : CdcProgram HalStatus := do
  let status ← waitIdle txTimeoutSpins
  if status = .ok then
    armAndFill mem src len
    return .ok
  else return status

/-- `chunk`, in the 16 bits of the source. -/
def txSlice (left : UInt16) : UInt16 :=
  if left.toNat > txChunk then UInt16.ofNat txChunk else left

theorem txSlice_toNat (left : UInt16) : (txSlice left).toNat = chunk left.toNat := by
  unfold txSlice chunk
  split <;> rfl

theorem sub_toNat {sent length : UInt16} (h : sent < length) :
    (length - sent).toNat = length.toNat - sent.toNat :=
  UInt16.toNat_sub_of_le _ _ (UInt16.le_of_lt h)

/-- The cursor does not wrap. -/
theorem advance_toNat {sent length : UInt16} (h : sent < length) :
    (sent + txSlice (length - sent)).toNat = sent.toNat + chunk (length.toNat - sent.toNat) := by
  have hlen := length.toNat_lt
  have hslice : chunk (length.toNat - sent.toNat) ≤ length.toNat - sent.toNat := by
    unfold chunk
    split <;> omega
  have hlt : sent.toNat < length.toNat := UInt16.lt_iff_toNat_lt.mp h
  rw [UInt16.toNat_add, txSlice_toNat, sub_toNat h, Nat.mod_eq_of_lt (by omega)]

/-- `while (sent < length)` -/
def writeLoop (data : Nat) (length sent : UInt16) : CdcProgram HalStatus :=
  if sent < length then do
    let status ← epInTransfer mem (data + sent.toNat) (txSlice (length - sent))
    if status = .ok then writeLoop data length (sent + txSlice (length - sent)) else return status
  else return .ok
termination_by length.toNat - sent.toNat
decreasing_by
  have hsent := advance_toNat ‹sent < length›
  have hlt : sent.toNat < length.toNat := UInt16.lt_iff_toNat_lt.mp ‹_›
  have hpos : 0 < chunk (length.toNat - sent.toNat) := chunk_pos (by omega)
  omega

/-- `hal_usb_cdc_write`; address 0 is `NULL`. -/
def halUsbCdcWrite (data : Nat) (length : UInt16) : CdcProgram HalStatus :=
  if data = 0 ∧ length ≠ 0 then return .errInvalidArg
  else do
    if ← readConfigured then
      let status ← writeLoop mem data length 0
      if status = .ok ∧ length ≠ 0 ∧ length.toNat % halUsbCdcPacketSize = 0 then
        epInTransfer mem 0 0
      else return status
    else return .errNotInitialized

/-! ## A write as its transfers -/

/-- One after the other; the bytes of the last end in front of `stop`. -/
def sendAll (stop : Nat) : List Nat → CdcProgram HalStatus
  | [] => .done .ok
  | len :: lens => do
    let status ← epInTransfer mem (stop - (len :: lens).sum) (UInt16.ofNat len)
    if status = .ok then sendAll stop lens else return status

variable {mem}

theorem chunks_zero : chunks 0 = [] := by
  rw [chunks, if_pos rfl]

theorem chunks_cons {left : Nat} (h : left ≠ 0) :
    chunks left = chunk left :: chunks (left - chunk left) := by
  rw [chunks, if_neg h]

theorem chunk_le {left : Nat} : chunk left ≤ left := by
  unfold chunk
  split <;> omega

theorem chunk_small {left : Nat} : chunk left ≤ txChunk := by
  unfold chunk
  split <;> omega

theorem chunks_sum (left : Nat) : (chunks left).sum = left := by
  induction left using chunks.induct with
  | case1 => rw [chunks_zero, List.sum_nil]
  | case2 left hne ih =>
    rw [chunks_cons hne, List.sum_cons, ih]
    exact Nat.add_sub_cancel' chunk_le

theorem chunks_small {left size : Nat} (h : size ∈ chunks left) : size ≤ txChunk := by
  induction left using chunks.induct with
  | case1 =>
    rw [chunks_zero] at h
    exact absurd h List.not_mem_nil
  | case2 left hne ih =>
    rw [chunks_cons hne, List.mem_cons] at h
    rcases h with rfl | hrest
    · exact chunk_small
    · exact ih hrest

theorem writeTransfers_small {length : UInt16} {size : Nat} (h : size ∈ writeTransfers length) :
    size ≤ txChunk := by
  rcases List.mem_append.mp h with hchunk | hzlp
  · exact chunks_small hchunk
  · split at hzlp
    · rw [List.mem_singleton.mp hzlp]
      exact Nat.zero_le _
    · exact absurd hzlp List.not_mem_nil

theorem writeTransfers_sum (length : UInt16) : (writeTransfers length).sum = length.toNat := by
  unfold writeTransfers
  rw [List.sum_append, chunks_sum]
  split <;> rfl

theorem writeLoop_eq (data : Nat) (length sent : UInt16) :
    writeLoop mem data length sent =
      sendAll mem (data + length.toNat) (chunks (length.toNat - sent.toNat)) := by
  generalize hleft : length.toNat - sent.toNat = left
  induction left using Nat.strongRecOn generalizing sent with
  | ind left ih =>
    rw [writeLoop]
    by_cases hsent : sent < length
    · have hlt : sent.toNat < length.toNat := UInt16.lt_iff_toNat_lt.mp hsent
      have hne : left ≠ 0 := by omega
      have hpos := chunk_pos hne
      have hcursor := advance_toNat hsent
      have hslice : txSlice (length - sent) = UInt16.ofNat (chunk left) := by
        rw [← hleft, ← sub_toNat hsent, ← txSlice_toNat, UInt16.ofNat_toNat]
      have hrest : length.toNat - (sent + txSlice (length - sent)).toNat = left - chunk left := by
        rw [hcursor, hleft]
        omega
      have hsrc : data + length.toNat - (chunks left).sum = data + sent.toNat := by
        rw [chunks_sum]
        omega
      rw [if_pos hsent, ih _ (by omega) _ hrest, hslice, ← hsrc, chunks_cons hne]
      rfl
    · have hge : length.toNat ≤ sent.toNat :=
        Nat.not_lt.mp fun hlt => hsent (UInt16.lt_iff_toNat_lt.mpr hlt)
      have hzero : left = 0 := by omega
      rw [if_neg hsent, hzero, chunks_zero]
      rfl

/-- An empty transfer has no bytes, wherever they are. -/
theorem epInTransfer_zero (src : Nat) : epInTransfer mem src 0 = epInTransfer mem 0 0 := by
  have hfill : ∀ src, fill mem src 0 = .done () := fun _ => if_neg fun hne => hne rfl
  simp only [epInTransfer, armAndFill, hfill]

theorem sendAll_zero (stop : Nat) (lens : List Nat) :
    (sendAll mem stop lens >>= fun status =>
        if status = .ok then epInTransfer mem 0 0 else .done status) =
      sendAll mem stop (lens ++ [0]) := by
  induction lens with
  | nil =>
    have hlast : (fun status : HalStatus => if status = .ok then .done .ok else .done status) =
        (.done : HalStatus → CdcProgram HalStatus) := by
      funext status
      split
      · next hok => rw [hok]
      · rfl
    change epInTransfer mem 0 0 = (epInTransfer mem (stop - 0) 0 >>= fun status =>
      if status = .ok then .done .ok else .done status)
    rw [hlast, Access.bind_done]
    exact (epInTransfer_zero _).symm
  | cons len lens ih =>
    have hsum : (len :: (lens ++ [0])).sum = (len :: lens).sum := by
      rw [List.sum_cons, List.sum_append, List.sum_cons]
      rfl
    rw [List.cons_append, sendAll, sendAll, hsum, Access.bind_assoc]
    congr 1
    funext status
    split
    · exact ih
    · next herr => exact if_neg herr

theorem halUsbCdcWrite_eq (data : Nat) (length : UInt16) :
    halUsbCdcWrite mem data length =
      if data = 0 ∧ length ≠ 0 then .done .errInvalidArg
      else do
        if ← readConfigured then sendAll mem (data + length.toNat) (writeTransfers length)
        else return .errNotInitialized := by
  have hloop : (do
      let status ← writeLoop mem data length 0
      if status = .ok ∧ length ≠ 0 ∧ length.toNat % halUsbCdcPacketSize = 0 then
        epInTransfer mem 0 0
      else return status) = sendAll mem (data + length.toNat) (writeTransfers length) := by
    rw [writeLoop_eq]
    unfold writeTransfers
    by_cases hzlp : length ≠ 0 ∧ length.toNat % halUsbCdcPacketSize = 0
    · simp only [and_iff_left hzlp, if_pos hzlp]
      exact sendAll_zero _ _
    · simp only [hzlp, and_false, if_false]
      rw [List.append_nil]
      exact Access.bind_done _
  unfold halUsbCdcWrite
  rw [hloop]
  rfl

end

/-! ## Runs from the first bring-up -/

/-- After the first `hal_usb_cdc_init`. -/
def broughtUp : BusState where
  usb := powerOn
  ep :=
    { tsiz := 0, size := 0, count := 0, enabled := false, xfrc := false, fifo := []
      packets := [], transfers := [], overlaps := 0, lost := 0 }
  masked := false

/-- Any number of bus events and writes, and of times that the driver is taken down and
brought up again; with an orderly host the latter meets no transfer. -/
inductive Reached (host : Host) : BusState → Prop
  | start : Reached host broughtUp
  | step {s s' : BusState} (h : Reached host s) (hstep : BusStep host s s') : Reached host s'
  | wrote {s s' : BusState} {mem : Nat → UInt8} {data : Nat} {length : UInt16}
      {status : HalStatus} (h : Reached host s)
      (hruns : Access.Runs (BusStep host) (accessed host) (halUsbCdcWrite mem data length) s status
        s') :
      Reached host s'
  | deinit {s : BusState} (h : Reached host s) :
      Reached host { s with usb := { s.usb with usbConfigured := 0, usbLineState := 0 } }
  | init {s : BusState} (h : Reached host s)
      (hidle : host = .any ∨ s.ep.enabled = false ∧ s.ep.xfrc = false) :
      Reached host { s with usb := s.usb.resetCore, ep := s.ep.flushed }

/-- The device is configured, and its bulk IN endpoint not halted. -/
def Ready (s : BusState) : Prop := s.usb.usbConfigured ≠ 0 ∧ s.usb.inHalted epData = false

end NavHAL.Usb.BulkIn
