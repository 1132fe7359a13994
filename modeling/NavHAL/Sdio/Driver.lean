import Mathlib.Data.BitVec

/-!
# The asynchronous SDIO driver

The four calls that start a transfer, and the three interrupt handlers that
meet in `sdBusy`, `dmaDone`, `sdioDone` and `sdLastError` to end it.  The data
registers are kept as the calls write them; the DMA controller is seen only
through its transfer-complete interrupt.
-/

namespace NavHAL.Sdio

inductive SdioError
  | ok
  | error
  | timeout
  | crcFail
  | rxOverrun
  | txUnderrun
  | pending
  | busy
  | noCard
  deriving DecidableEq, Repr

/-- The statics of the driver and the data registers of the peripheral. -/
structure Driver where
  sdBusy : Bool
  dmaDone : Bool
  sdioDone : Bool
  isMultiBlock : Bool
  sdLastWasWrite : Bool
  sdLastError : SdioError
  /-- `sd_callback` is not null. -/
  sdCallback : Bool
  cardIsSdhc : Bool
  mask : BitVec 32
  dctrl : BitVec 32
  dtimer : BitVec 32
  dlen : BitVec 32

/-- What the buffer checks, the card and the command path answer during one call. -/
structure Answers where
  rxGuard : BitVec 32 → Bool
  txPrepare : BitVec 32 → BitVec 32 → Bool
  cardReady : Bool
  sendCommand : Nat → BitVec 32 → SdioError

/-! ## Registers -/

def staDcrcfail : BitVec 32 := 1#32 <<< 1
def staDtimeout : BitVec 32 := 1#32 <<< 3
def staTxunderr : BitVec 32 := 1#32 <<< 4
def staRxoverr : BitVec 32 := 1#32 <<< 5
def staDataend : BitVec 32 := 1#32 <<< 8
def staStbiterr : BitVec 32 := 1#32 <<< 9

def maskDcrcfailie : BitVec 32 := 1#32 <<< 1
def maskDtimeoutie : BitVec 32 := 1#32 <<< 3
def maskTxunderrie : BitVec 32 := 1#32 <<< 4
def maskRxoverrie : BitVec 32 := 1#32 <<< 5
def maskDataendie : BitVec 32 := 1#32 <<< 8
def maskStbiterrie : BitVec 32 := 1#32 <<< 9
def maskDbckendie : BitVec 32 := 1#32 <<< 10

/-- The interrupts of both reads. -/
def readIrqs : BitVec 32 :=
  maskDataendie ||| maskDbckendie ||| maskDcrcfailie ||| maskDtimeoutie ||| maskRxoverrie |||
    maskStbiterrie

/-- The interrupts of a one-block write. -/
def writeIrqs : BitVec 32 :=
  maskDataendie ||| maskDbckendie ||| maskDcrcfailie ||| maskDtimeoutie ||| maskTxunderrie

/-- The interrupts of a write of several blocks, without the block end. -/
def writeBlocksIrqs : BitVec 32 :=
  maskDataendie ||| maskDcrcfailie ||| maskDtimeoutie ||| maskTxunderrie

/-- What the handler masks at the end of a transfer. -/
def dataIrqs : BitVec 32 :=
  maskDataendie ||| maskDbckendie ||| maskDcrcfailie ||| maskDtimeoutie ||| maskRxoverrie |||
    maskTxunderrie ||| maskStbiterrie

def dctrlDten : BitVec 32 := 1#32 <<< 0
def dctrlDtdir : BitVec 32 := 1#32 <<< 1
def dctrlDmaen : BitVec 32 := 1#32 <<< 3
def dctrlDblocksizePos : Nat := 4

def readDctrl : BitVec 32 :=
  9#32 <<< dctrlDblocksizePos ||| dctrlDtdir ||| dctrlDmaen ||| dctrlDten

def writeDctrl : BitVec 32 := 9#32 <<< dctrlDblocksizePos ||| dctrlDmaen ||| dctrlDten

def dataTimeoutClks : BitVec 32 := 2100000

def cmdReadSingleBlock : Nat := 17
def cmdReadMultBlock : Nat := 18
def cmdWriteSingleBlock : Nat := 24
def cmdWriteMultBlock : Nat := 25

/-! ## Starting a transfer -/

namespace Driver

/-- A card that is not high capacity takes byte addresses. -/
def cardAddress (d : Driver) (addr : BitVec 32) : BitVec 32 :=
  if d.cardIsSdhc then addr else addr * 512

/-- The rendezvous of a new transfer. -/
def arm (multi : Bool) (d : Driver) : Driver :=
  { d with
    dmaDone := false
    sdioDone := false
    isMultiBlock := multi
    sdLastError := .ok
    sdBusy := true }

end Driver

/-- An access of a call to the controller, to a DMA stream or to the card. -/
inductive CtrlAccess
  | waitCardReady
  | icr
  | dmaInit (stream : Nat) (buf : BitVec 32) (count : BitVec 32)
  | dmaStart (stream : Nat)
  | dmaStop (stream : Nat)
  | dtimer (w : BitVec 32)
  | dlen (w : BitVec 32)
  | mask (w : BitVec 32)
  | dctrl (w : BitVec 32)
  | command (cmd : Nat) (arg : BitVec 32)
  deriving DecidableEq, Repr

structure Controller where
  driver : Driver
  accesses : List CtrlAccess := []

namespace Controller

def access (accesses : List CtrlAccess) (c : Controller) : Controller :=
  { c with accesses := c.accesses ++ accesses }

/-- `SDIO->MASK |= irqs` -/
def unmask (irqs : BitVec 32) (c : Controller) : Controller :=
  { driver := { c.driver with mask := c.driver.mask ||| irqs }
    accesses := c.accesses ++ [.mask (c.driver.mask ||| irqs)] }

/-- `SDIO->MASK &= ~irqs` -/
def maskOff (irqs : BitVec 32) (c : Controller) : Controller :=
  { driver := { c.driver with mask := c.driver.mask &&& ~~~irqs }
    accesses := c.accesses ++ [.mask (c.driver.mask &&& ~~~irqs)] }

def setDctrl (w : BitVec 32) (c : Controller) : Controller :=
  { driver := { c.driver with dctrl := w }, accesses := c.accesses ++ [.dctrl w] }

def setData (dlen : BitVec 32) (c : Controller) : Controller :=
  { driver := { c.driver with dtimer := dataTimeoutClks, dlen := dlen }
    accesses := c.accesses ++ [.dtimer dataTimeoutClks, .dlen dlen] }

def arm (multi : Bool) (c : Controller) : Controller := { c with driver := c.driver.arm multi }

def setBusy (busy : Bool) (c : Controller) : Controller :=
  { c with driver := { c.driver with sdBusy := busy } }

def setMultiBlock (multi : Bool) (c : Controller) : Controller :=
  { c with driver := { c.driver with isMultiBlock := multi } }

def setLastWasWrite (write : Bool) (c : Controller) : Controller :=
  { c with driver := { c.driver with sdLastWasWrite := write } }

/-- `hal_sdio_read_block_async` -/
def readBlockAsync (ans : Answers) (addr buf : BitVec 32) (c : Controller) :
    Controller × SdioError :=
  if c.driver.sdBusy then (c, .busy)
  else
    let c := c.setLastWasWrite false
    if !ans.rxGuard buf then (c, .error)
    else if !ans.cardReady then (c.access [.waitCardReady], .timeout)
    else
      let c := (c.access [.waitCardReady, .icr, .dmaInit 3 buf 128]).setData 512
      let c := (((c.arm false).unmask readIrqs).setDctrl readDctrl).access
        [.dmaStart 3, .command cmdReadSingleBlock (c.driver.cardAddress addr)]
      if ans.sendCommand cmdReadSingleBlock (c.driver.cardAddress addr) ≠ .ok then
        ((((c.maskOff readIrqs).setDctrl 0).setBusy false).access [.dmaStop 3], .error)
      else (c, .pending)

/-- `hal_sdio_write_block_async` -/
def writeBlockAsync (ans : Answers) (addr buf : BitVec 32) (c : Controller) :
    Controller × SdioError :=
  if c.driver.sdBusy then (c, .busy)
  else
    let c := c.setLastWasWrite true
    if !ans.txPrepare buf 512 then (c, .error)
    else if !ans.cardReady then (c.access [.waitCardReady], .timeout)
    else
      let c := (c.access [.waitCardReady, .icr, .dmaInit 6 buf 128]).setData 512
      let c := (((c.arm false).unmask writeIrqs).setDctrl writeDctrl).access
        [.command cmdWriteSingleBlock (c.driver.cardAddress addr)]
      if ans.sendCommand cmdWriteSingleBlock (c.driver.cardAddress addr) ≠ .ok then
        ((((c.maskOff writeIrqs).setDctrl 0).setBusy false).access [.dmaStop 6], .error)
      else (c.access [.dmaStart 6], .pending)

/-- `hal_sdio_read_blocks_async` -/
def readBlocksAsync (ans : Answers) (addr buf count : BitVec 32) (c : Controller) :
    Controller × SdioError :=
  -- the one call that notes the direction before it looks at the busy flag
  let c := c.setLastWasWrite false
  if c.driver.sdBusy then (c, .busy)
  else if !ans.rxGuard buf then (c, .error)
  else if !ans.cardReady then (c.access [.waitCardReady], .timeout)
  else
    let c := ((c.access [.waitCardReady, .icr, .dmaInit 3 buf (128 * count)]).setDctrl 0).setData
      (512 * count)
    let c := (((c.arm true).unmask readIrqs).setDctrl readDctrl).access
      [.dmaStart 3, .command cmdReadMultBlock (c.driver.cardAddress addr)]
    if ans.sendCommand cmdReadMultBlock (c.driver.cardAddress addr) ≠ .ok then
      (((((c.maskOff readIrqs).setDctrl 0).setBusy false).setMultiBlock false).access [.dmaStop 3],
        .error)
    else (c, .pending)

/-- `hal_sdio_write_blocks_async` -/
def writeBlocksAsync (ans : Answers) (addr buf count : BitVec 32) (c : Controller) :
    Controller × SdioError :=
  if c.driver.sdBusy then (c, .busy)
  else
    let c := c.setLastWasWrite true
    if !ans.txPrepare buf (512 * count) then (c, .error)
    else if !ans.cardReady then (c.access [.waitCardReady], .timeout)
    else
      let c := (c.access [.waitCardReady, .icr, .dmaInit 6 buf (128 * count), .icr]).setData
        (512 * count)
      -- the command goes out before the rendezvous is armed
      let c := c.access [.command cmdWriteMultBlock (c.driver.cardAddress addr)]
      if ans.sendCommand cmdWriteMultBlock (c.driver.cardAddress addr) ≠ .ok then
        (c.access [.dmaStop 6], .error)
      else
        (((((c.arm true).unmask writeBlocksIrqs).access [.dmaStart 6]).setDctrl writeDctrl), .pending)

end Controller

inductive StartCall
  | readBlock (addr buf : BitVec 32)
  | writeBlock (addr buf : BitVec 32)
  | readBlocks (addr buf count : BitVec 32)
  | writeBlocks (addr buf count : BitVec 32)

namespace StartCall

def isWrite : StartCall → Bool
  | readBlock .. | readBlocks .. => false
  | writeBlock .. | writeBlocks .. => true

end StartCall

def Controller.call (ans : Answers) : StartCall → Controller → Controller × SdioError
  | .readBlock addr buf => readBlockAsync ans addr buf
  | .writeBlock addr buf => writeBlockAsync ans addr buf
  | .readBlocks addr buf count => readBlocksAsync ans addr buf count
  | .writeBlocks addr buf count => writeBlocksAsync ans addr buf count

/-- What a call leaves of the driver. -/
def StartCall.call (ans : Answers) (request : StartCall) (d : Driver) : Driver × SdioError :=
  let result := Controller.call ans request { driver := d }
  (result.1.driver, result.2)

/-! ## The interrupts -/

/-- The error that the status word reports, the first of the chain. -/
def staError (sta : BitVec 32) : SdioError :=
  if sta &&& staDcrcfail ≠ 0 then .crcFail
  else if sta &&& staDtimeout ≠ 0 then .timeout
  else if sta &&& staStbiterr ≠ 0 then .error
  else if sta &&& staRxoverr ≠ 0 then .rxOverrun
  else if sta &&& staTxunderr ≠ 0 then .txUnderrun
  else .ok

/-- The status word ends the data phase. -/
def endsData (sta : BitVec 32) : Bool := staError sta != .ok || sta &&& staDataend != 0

/-- The argument of the callback, when one is attached. -/
def Driver.callback (d : Driver) (err : SdioError) : Option SdioError :=
  if d.sdCallback then some err else none

def sdioIrqHandler (sta : BitVec 32) (d : Driver) : Driver × Option SdioError :=
  let err := staError sta
  if endsData sta then
    let d := { d with
      mask := d.mask &&& ~~~dataIrqs
      dctrl := 0
      sdLastError := err
      sdioDone := true }
    if d.dmaDone || err != .ok then ({ d with sdBusy := false }, d.callback err) else (d, none)
  else (d, none)

/-- The half that both stream handlers share. -/
def dmaTransferComplete (d : Driver) : Driver × Option SdioError :=
  let d := { d with dmaDone := true }
  if d.sdioDone || d.sdLastError != .ok then
    ({ d with sdBusy := false }, d.callback d.sdLastError)
  else (d, none)

def sdioDmaRxIrqHandler (d : Driver) : Driver × Option SdioError := dmaTransferComplete d

def sdioDmaTxIrqHandler (d : Driver) : Driver × Option SdioError := dmaTransferComplete d

/-! ## What they do to the rendezvous -/

/-- The part of the driver that the interrupts meet in. -/
structure Rendezvous where
  busy : Bool
  dma : Bool
  sdio : Bool
  err : SdioError
  callback : Bool
  deriving DecidableEq

def Driver.rendezvous (d : Driver) : Rendezvous where
  busy := d.sdBusy
  dma := d.dmaDone
  sdio := d.sdioDone
  err := d.sdLastError
  callback := d.sdCallback

namespace Rendezvous

def fresh (busy callback : Bool) : Rendezvous where
  busy := busy
  dma := false
  sdio := false
  err := .ok
  callback := callback

/-- The SDIO interrupt ends the transfer: the other half is done, or it brings an error. -/
def sdioMeets (err : SdioError) (z : Rendezvous) : Bool := z.dma || err != .ok

def dmaMeets (z : Rendezvous) : Bool := z.sdio || z.err != .ok

def afterSdio (err : SdioError) (z : Rendezvous) : Rendezvous :=
  { z with busy := z.busy && !z.sdioMeets err, sdio := true, err := err }

def afterDma (z : Rendezvous) : Rendezvous :=
  { z with busy := z.busy && !z.dmaMeets, dma := true }

end Rendezvous

/-- The three ends of a call: nothing was touched, the command failed after the
rendezvous was armed, or the transfer runs. -/
inductive StartOutcome (d : Driver) : Driver × SdioError → Prop
  | refused {d' : Driver} {e : SdioError} (he : e ≠ .pending)
      (hd : d'.rendezvous = d.rendezvous) : StartOutcome d (d', e)
  | aborted {d' : Driver} {e : SdioError} (he : e ≠ .pending) (hidle : d.sdBusy = false)
      (hd : d'.rendezvous = .fresh false d.sdCallback) : StartOutcome d (d', e)
  | started {d' : Driver} (hidle : d.sdBusy = false)
      (hd : d'.rendezvous = .fresh true d.sdCallback) : StartOutcome d (d', .pending)

/-- A call on a busy driver; the one that notes the direction first has then noted it. -/
theorem Controller.call_busy {c : Controller} (hbusy : c.driver.sdBusy = true) (ans : Answers)
    (request : StartCall) :
    c.call ans request = (c, .busy) ∨ c.call ans request = (c.setLastWasWrite false, .busy) := by
  cases request with
  | readBlocks addr buf count => exact Or.inr (if_pos hbusy)
  | _ => exact Or.inl (if_pos hbusy)

theorem StartCall.outcome (c : StartCall) (ans : Answers) (d : Driver) :
    StartOutcome d (c.call ans d) := by
  unfold StartCall.call
  by_cases hb : d.sdBusy = true
  · rcases Controller.call_busy (c := { driver := d }) hb ans c with hcall | hcall
    · rw [hcall]
      exact .refused nofun rfl
    · rw [hcall]
      exact .refused nofun rfl
  · have hidle : d.sdBusy = false := by simpa using hb
    cases c with
    | writeBlocks addr buf count =>
      -- its command goes out before the rendezvous is armed
      simp only [Controller.call, Controller.writeBlocksAsync, if_neg hb]
      repeat' split
      · exact .refused nofun rfl
      · exact .refused nofun rfl
      · exact .refused nofun rfl
      · exact .started hidle rfl
    | readBlocks addr buf count =>
      simp only [Controller.call, Controller.readBlocksAsync]
      rw [if_neg (show ¬ (Controller.setLastWasWrite false { driver := d }).driver.sdBusy = true from hb)]
      repeat' split
      · exact .refused nofun rfl
      · exact .refused nofun rfl
      · exact .aborted nofun hidle rfl
      · exact .started hidle rfl
    | _ =>
      simp only [Controller.call, Controller.readBlockAsync, Controller.writeBlockAsync, if_neg hb]
      repeat' split
      · exact .refused nofun rfl
      · exact .refused nofun rfl
      · exact .aborted nofun hidle rfl
      · exact .started hidle rfl

theorem sdioIrqHandler_of_not_endsData {sta : BitVec 32} (h : endsData sta = false)
    (d : Driver) : sdioIrqHandler sta d = (d, none) := by
  simp [sdioIrqHandler, h]

theorem sdioIrqHandler_rendezvous {sta : BitVec 32} (h : endsData sta = true) (d : Driver) :
    (sdioIrqHandler sta d).1.rendezvous = d.rendezvous.afterSdio (staError sta) ∧
      (sdioIrqHandler sta d).2 =
        if d.rendezvous.sdioMeets (staError sta) then d.callback (staError sta) else none := by
  unfold sdioIrqHandler Rendezvous.afterSdio
  cases hmet : d.rendezvous.sdioMeets (staError sta) with
  | true =>
    have hcond : (d.dmaDone || staError sta != .ok) = true := hmet
    simp [h, hcond, Driver.rendezvous, Driver.callback]
  | false =>
    have hcond : (d.dmaDone || staError sta != .ok) = false := hmet
    simp [h, hcond, Driver.rendezvous]

theorem dmaTransferComplete_rendezvous (d : Driver) :
    (dmaTransferComplete d).1.rendezvous = d.rendezvous.afterDma ∧
      (dmaTransferComplete d).2 =
        if d.rendezvous.dmaMeets then d.callback d.sdLastError else none := by
  unfold dmaTransferComplete Rendezvous.afterDma
  cases hmet : d.rendezvous.dmaMeets with
  | true =>
    have hcond : (d.sdioDone || d.sdLastError != .ok) = true := hmet
    simp [hcond, Driver.rendezvous, Driver.callback]
  | false =>
    have hcond : (d.sdioDone || d.sdLastError != .ok) = false := hmet
    simp [hcond, Driver.rendezvous]

end NavHAL.Sdio
