import NavHAL.Sdio.Driver

/-!
# A request refused while a transfer runs (`sdio.c`)

The four calls with their accesses to the controller, the DMA and the card, and
`hal_sdio_wait_sync`, which settles what the transfer under way still owes the card.

* `refusalHarmless_iff` : a refused call changes nothing, unless it is
  `hal_sdio_read_blocks_async` over a write.
-/

namespace NavHAL.Sdio

/-! ## `hal_sdio_wait_sync` -/

/-- An interrupt that comes while the call waits. -/
inductive WaitIrq
  | sdio (sta : BitVec 32)
  | dmaRx
  | dmaTx

def WaitIrq.handle : WaitIrq → Driver → Driver
  | .sdio sta, d => (sdioIrqHandler sta d).1
  | .dmaRx, d => (sdioDmaRxIrqHandler d).1
  | .dmaTx, d => (sdioDmaTxIrqHandler d).1

/-- What comes in until the wait is over: the interrupts before the deadline, and the
answers of the card. -/
structure WaitEnv where
  irqs : List WaitIrq
  stop : SdioError
  cardReady : Bool

/-- What the call does to the card. -/
inductive Settling
  | stop
  | waitCardReady
  deriving DecidableEq, Repr

/-- The loop: it is left when `sd_busy` is seen clear, or at the deadline. -/
def waitIrqs : List WaitIrq → Driver → Driver
  | [], d => d
  | irq :: irqs, d => if d.sdBusy then waitIrqs irqs (irq.handle d) else d

/-- What a transfer without error owes, a stop and the wait after a write; none where it
returns early. -/
def settleOk (env : WaitEnv) (d : Driver) : List Settling × Option SdioError × Driver :=
  if d.isMultiBlock ∧ env.stop ≠ .ok then ([.stop], some .error, d)
  else
    let acts := if d.isMultiBlock then [.stop] else []
    let d := { d with isMultiBlock := false }
    if d.sdLastWasWrite then
      (acts ++ [.waitCardReady], if env.cardReady then none else some .timeout, d)
    else (acts, none, d)

/-- `hal_sdio_wait_sync` -/
def waitSync (env : WaitEnv) (result : SdioError) (d : Driver) :
    List Settling × SdioError × Driver :=
  if result ≠ .pending then ([], result, d)
  else
    let d := waitIrqs env.irqs d
    if d.sdBusy then
      ([.stop], .timeout, { d with
        mask := d.mask &&& ~~~dataIrqs
        dctrl := 0
        isMultiBlock := false
        dmaDone := false
        sdioDone := false
        sdBusy := false
        sdLastError := .timeout })
    else if d.sdLastError = .ok then
      match settleOk env d with
      | (acts, some err, d) => (acts, err, d)
      | (acts, none, d) => (acts, .ok, { d with isMultiBlock := false })
    else ([.stop], d.sdLastError, { d with isMultiBlock := false })

/-! ## A harmless refusal -/

/-- The request is refused: no variable of the driver and no register changes, nothing is
accessed, and the wait for the transfer under way does all that it would have done. -/
def RefusalHarmless (ans : Answers) (request : StartCall) (c : Controller) : Prop :=
  c.driver.sdBusy = true → (c.call ans request).2 = .busy ∧ (c.call ans request).1 = c ∧
    ∀ env result, waitSync env result (c.call ans request).1.driver = waitSync env result c.driver

/-- The request does not clear the note that a write is under way. -/
def LeavesDirection (request : StartCall) (d : Driver) : Prop :=
  match request with
  | .readBlocks .. => d.sdLastWasWrite = false
  | _ => True

instance (request : StartCall) (d : Driver) : Decidable (LeavesDirection request d) := by
  unfold LeavesDirection
  split
  · infer_instance
  · infer_instance

/-- The call that notes the direction first is refused with the note made. -/
theorem call_readBlocks_busy {c : Controller} (hbusy : c.driver.sdBusy = true) (ans : Answers)
    (addr buf count : BitVec 32) :
    c.call ans (.readBlocks addr buf count) = (c.setLastWasWrite false, .busy) := by
  simp only [Controller.call, Controller.readBlocksAsync]
  exact if_pos hbusy

theorem call_busy {c : Controller} (hbusy : c.driver.sdBusy = true) (ans : Answers)
    {request : StartCall} (hleaves : LeavesDirection request c.driver) :
    c.call ans request = (c, .busy) := by
  cases request with
  | readBlock addr buf => exact if_pos hbusy
  | writeBlock addr buf => exact if_pos hbusy
  | readBlocks addr buf count =>
    have hsame : c.setLastWasWrite false = c := by
      obtain ⟨d, accesses⟩ := c
      cases d
      cases hleaves
      rfl
    rw [call_readBlocks_busy hbusy, hsame]
  | writeBlocks addr buf count => exact if_pos hbusy

/-- In every state and for every request: a refusal is harmless if and only if the request
does not clear the note of a write under way. -/
theorem refusalHarmless_iff (ans : Answers) (request : StartCall) (c : Controller) :
    RefusalHarmless ans request c ↔
      (c.driver.sdBusy = true → LeavesDirection request c.driver) := by
  refine forall_congr' fun hbusy => ⟨fun h => ?_, fun h => ?_⟩
  · cases request with
    | readBlocks addr buf count =>
      have hsame := h.2.1
      rw [call_readBlocks_busy hbusy] at hsame
      exact (congrArg (fun c => c.driver.sdLastWasWrite) hsame).symm
    | _ => exact trivial
  · rw [call_busy hbusy ans h]
    exact ⟨rfl, rfl, fun _ _ => rfl⟩

/-- A write of one block, under way. -/
def writeUnderWay : Driver where
  sdBusy := true
  dmaDone := false
  sdioDone := false
  isMultiBlock := false
  sdLastWasWrite := true
  sdLastError := .ok
  sdCallback := false
  cardIsSdhc := true
  mask := writeIrqs
  dctrl := writeDctrl
  dtimer := dataTimeoutClks
  dlen := 512

def readyAnswers : Answers where
  rxGuard := fun _ => true
  txPrepare := fun _ _ => true
  cardReady := true
  sendCommand := fun _ _ => .ok

/-- The write ends while the call waits. -/
def writeEnds : WaitEnv where
  irqs := [.dmaTx, .sdio staDataend]
  stop := .ok
  cardReady := true

/-- After a refused read of several blocks, the wait for the write no longer waits for
the card. -/
theorem refused_read_drops_card_wait :
    ¬ RefusalHarmless readyAnswers (.readBlocks 0 0 2) { driver := writeUnderWay } ∧
      (waitSync writeEnds .pending writeUnderWay).1 = [.waitCardReady] ∧
      (waitSync writeEnds .pending
        (Controller.call readyAnswers (.readBlocks 0 0 2) { driver := writeUnderWay }).1.driver).1 =
        [] := by
  refine ⟨fun h => ?_, by decide, by decide⟩
  have hsame := congrArg (fun c : Controller => c.driver.sdLastWasWrite) (h rfl).2.1
  revert hsame
  decide

end NavHAL.Sdio
