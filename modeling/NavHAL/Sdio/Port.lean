import NavHAL.Lib.Polling
import NavHAL.Sdio.Driver

/-!
# The SDIO controller behind the polled calls (`sdio.c`)

What reads of `STA`, `FIFO` and the response registers return comes from streams that
may hold anything; the port keeps a log of what was read, written and sent.
-/

namespace NavHAL.Sdio

open Polling

/-! ## Registers -/

def staCcrcfail : BitVec 32 := 1#32 <<< 0
def staCtimeout : BitVec 32 := 1#32 <<< 2
def staCmdrend : BitVec 32 := 1#32 <<< 6
def staCmdsent : BitVec 32 := 1#32 <<< 7
def staDbckend : BitVec 32 := 1#32 <<< 10
def staTxfifohe : BitVec 32 := 1#32 <<< 14
def staRxfifohf : BitVec 32 := 1#32 <<< 15
def staRxdavl : BitVec 32 := 1#32 <<< 21

def clkcrWidbusMsk : BitVec 32 := 3#32 <<< 11
def clkcrWidbus1b : BitVec 32 := 0#32 <<< 11
def clkcrWidbus4b : BitVec 32 := 1#32 <<< 11
def clkcrClkdiv : BitVec 32 := 0xFF
def clkcrClken : BitVec 32 := 1#32 <<< 8
def clkcrPwrsav : BitVec 32 := 1#32 <<< 9
def clkcrHwfcEn : BitVec 32 := 1#32 <<< 14

def cmdGoIdleState : Nat := 0
def cmdAllSendCid : Nat := 2
def cmdSendRelAddr : Nat := 3
def cmdSelectDeselectCard : Nat := 7
def cmdHsSendExtCsd : Nat := 8
def cmdSendCsd : Nat := 9
def cmdStopTransmission : Nat := 12
def cmdSendStatus : Nat := 13
def cmdSetBlocklen : Nat := 16
def cmdAppCmd : Nat := 55
def acmdSdSendOpCond : Nat := 41
def acmdSetBusWidth : Nat := 6

/-- `SD_R1_ERROR_BITS` -/
def r1ErrorBits : BitVec 32 := 0xFDF98008

/-! ## The port -/

/-- What a call reads, writes and sends. -/
inductive Access
  | sta (w : BitVec 32)
  | word (w : BitVec 32)
  /-- A response register read after command `cmd`. -/
  | resp (cmd reg : Nat) (w : BitVec 32)
  | command (cmd : Nat) (arg : BitVec 32) (resp : Nat)
  | icr
  | dtimer (w : BitVec 32)
  | dlen (w : BitVec 32)
  | dctrl (w : BitVec 32)
  | clkcr (w : BitVec 32)
  | irqsOff
  | irqsOn
  deriving DecidableEq, Repr

/-- The statics of the driver, and the reads to come. -/
structure Port where
  /-- `sdio_clock_on` -/
  clockOn : Bool := true
  sta : Nat → BitVec 32
  fifo : Nat → BitVec 32
  resp : Nat → BitVec 32
  log : List Access := []
  lastCmd : Nat := 0
  clkcr : BitVec 32 := 0
  sdRca : BitVec 32 := 0
  cardIsSdhc : Bool := false
  desiredBusWidth4 : Bool := false
  sdCsd : List (BitVec 32) := []
  sdCsdValid : Bool := false
  initialized : Bool := false

def Port.note (p : Port) (a : Access) : Port := { p with log := p.log ++ [a] }

def Port.readSta (p : Port) : Port := { p.note (.sta (p.sta 0)) with sta := after p.sta 1 }

def Port.readFifo (p : Port) : Port := { p.note (.word (p.fifo 0)) with fifo := after p.fifo 1 }

def Port.readResp (reg : Nat) (p : Port) : Port :=
  { p.note (.resp p.lastCmd reg (p.resp 0)) with resp := after p.resp 1 }

/-! ## Commands -/

/-- `hal_sdio_wait_flag` -/
def waitFlag (flag : BitVec 32) : Nat → Port → SdioError × Port
  | 0, p => (.timeout, p.readSta)
  | n + 1, p => if p.sta 0 &&& flag ≠ 0 then (.ok, p.readSta) else waitFlag flag n p.readSta

/-- The loop of `hal_sdio_send_command`. -/
def waitResponse (resp : Nat) : Nat → Port → SdioError × Port
  | 0, p => (.timeout, p)
  | n + 1, p =>
    if p.sta 0 &&& staCtimeout ≠ 0 then (.timeout, p.readSta)
    else if p.sta 0 &&& staCcrcfail ≠ 0 then
      (if resp = 1 ∨ resp = 3 then .crcFail else .ok, p.readSta)
    else if p.sta 0 &&& staCmdrend ≠ 0 then (.ok, p.readSta)
    else waitResponse resp n p.readSta

/-- `hal_sdio_send_command` -/
def sendCommand (cmd : Nat) (arg : BitVec 32) (resp : Nat) (p : Port) : SdioError × Port :=
  if p.clockOn = false then (.error, p)
  else
    let p := { (p.note .icr).note (.command cmd arg resp) with lastCmd := cmd }
    if resp = 0 then waitFlag staCmdsent 100000 p else waitResponse resp 100000 p

/-- `hal_sdio_get_response` -/
def getResponse (reg : Nat) (p : Port) : BitVec 32 × Port :=
  if p.clockOn = false then (0, p)
  else if 1 ≤ reg ∧ reg ≤ 4 then (p.resp 0, p.readResp reg)
  else (0, p)

/-- `sdio_r1_refused` -/
def r1Refused (p : Port) : Bool × Port := (p.resp 0 &&& r1ErrorBits != 0, p.readResp 1)

/-- `sdio_wait_card_ready`, with `n` polls left. -/
def waitCardReadyLoop : Nat → Port → SdioError × Port
  | 0, p => (.timeout, p)
  | n + 1, p =>
    let sent := sendCommand cmdSendStatus p.sdRca 1 p
    if sent.1 = .ok then
      let status := getResponse 1 sent.2
      if (status.1 >>> 9) &&& 0xF = 4 then (.ok, status.2) else waitCardReadyLoop n status.2
    else waitCardReadyLoop n sent.2

/-- `sdio_wait_card_ready` -/
def waitCardReady (p : Port) : SdioError × Port := waitCardReadyLoop 500 p

/-! ## What the commands leave alone -/

/-- A call that has gone on from `p` and left `initialized` alone. -/
structure Extends (p p' : Port) : Prop where
  log : ∃ l, p'.log = p.log ++ l
  initialized : p'.initialized = p.initialized

theorem Extends.refl (p : Port) : Extends p p := ⟨⟨[], (List.append_nil _).symm⟩, rfl⟩

theorem Extends.trans {p₁ p₂ p₃ : Port} (h : Extends p₁ p₂) (h' : Extends p₂ p₃) :
    Extends p₁ p₃ := by
  obtain ⟨l, hl⟩ := h.log
  obtain ⟨l', hl'⟩ := h'.log
  exact ⟨⟨l ++ l', by rw [hl', hl, List.append_assoc]⟩, h'.initialized.trans h.initialized⟩

theorem extends_readSta (p : Port) : Extends p p.readSta := ⟨⟨[_], rfl⟩, rfl⟩

theorem extends_readResp (reg : Nat) (p : Port) : Extends p (p.readResp reg) := ⟨⟨[_], rfl⟩, rfl⟩

theorem extends_waitFlag (flag : BitVec 32) (n : Nat) (p : Port) :
    Extends p (waitFlag flag n p).2 := by
  induction n generalizing p with
  | zero => exact extends_readSta p
  | succ n ih =>
    rw [waitFlag]
    split
    · exact extends_readSta p
    · exact (extends_readSta p).trans (ih _)

theorem extends_waitResponse (resp n : Nat) (p : Port) : Extends p (waitResponse resp n p).2 := by
  induction n generalizing p with
  | zero => exact .refl p
  | succ n ih =>
    rw [waitResponse]
    split
    · exact extends_readSta p
    · split
      · exact extends_readSta p
      · split
        · exact extends_readSta p
        · exact (extends_readSta p).trans (ih _)

theorem extends_sendCommand (cmd : Nat) (arg : BitVec 32) (resp : Nat) (p : Port) :
    Extends p (sendCommand cmd arg resp p).2 := by
  rw [sendCommand]
  split
  · exact .refl p
  · have hsent : Extends p { (p.note .icr).note (.command cmd arg resp) with lastCmd := cmd } :=
      ⟨⟨[.icr, .command cmd arg resp], by simp [Port.note]⟩, rfl⟩
    split
    · exact hsent.trans (extends_waitFlag _ _ _)
    · exact hsent.trans (extends_waitResponse _ _ _)

theorem extends_getResponse (reg : Nat) (p : Port) : Extends p (getResponse reg p).2 := by
  rw [getResponse]
  split
  · exact .refl p
  · split
    · exact extends_readResp reg p
    · exact .refl p

theorem extends_waitCardReadyLoop (n : Nat) (p : Port) : Extends p (waitCardReadyLoop n p).2 := by
  induction n generalizing p with
  | zero => exact .refl p
  | succ n ih =>
    have hsent := extends_sendCommand cmdSendStatus p.sdRca 1 p
    have hread := hsent.trans (extends_getResponse 1 _)
    simp only [waitCardReadyLoop]
    split
    · split
      · exact hread
      · exact hread.trans (ih _)
    · exact hsent.trans (ih _)

theorem waitFlag_kept (flag : BitVec 32) (n : Nat) (p : Port) :
    (waitFlag flag n p).2.clockOn = p.clockOn ∧ (waitFlag flag n p).2.lastCmd = p.lastCmd := by
  induction n generalizing p with
  | zero => exact ⟨rfl, rfl⟩
  | succ n ih =>
    rw [waitFlag]
    split
    · exact ⟨rfl, rfl⟩
    · exact ih p.readSta

theorem waitResponse_kept (resp n : Nat) (p : Port) :
    (waitResponse resp n p).2.clockOn = p.clockOn ∧
      (waitResponse resp n p).2.lastCmd = p.lastCmd := by
  induction n generalizing p with
  | zero => exact ⟨rfl, rfl⟩
  | succ n ih =>
    rw [waitResponse]
    split
    · exact ⟨rfl, rfl⟩
    · split
      · exact ⟨rfl, rfl⟩
      · split
        · exact ⟨rfl, rfl⟩
        · exact ih p.readSta

/-- A command that is answered was sent with the clock on. -/
theorem sendCommand_ok {p : Port} {cmd : Nat} {arg : BitVec 32} {resp : Nat}
    (h : (sendCommand cmd arg resp p).1 = .ok) :
    (sendCommand cmd arg resp p).2.clockOn = true ∧
      (sendCommand cmd arg resp p).2.lastCmd = cmd := by
  simp only [sendCommand] at h ⊢
  split at h
  · cases h
  · next hon =>
    rw [if_neg hon]
    have hclock : p.clockOn = true := by simpa using hon
    split
    · obtain ⟨hon', hcmd⟩ := waitFlag_kept staCmdsent 100000
        { (p.note .icr).note (.command cmd arg resp) with lastCmd := cmd }
      exact ⟨hon'.trans hclock, hcmd⟩
    · obtain ⟨hon', hcmd⟩ := waitResponse_kept resp 100000
        { (p.note .icr).note (.command cmd arg resp) with lastCmd := cmd }
      exact ⟨hon'.trans hclock, hcmd⟩

theorem waitCardReadyLoop_status (n : Nat) (p : Port) :
    (waitCardReadyLoop n p).1 = .ok ∨ (waitCardReadyLoop n p).1 = .timeout := by
  induction n generalizing p with
  | zero => exact Or.inr rfl
  | succ n ih =>
    simp only [waitCardReadyLoop]
    split
    · split
      · exact Or.inl rfl
      · exact ih _
    · exact ih _

end NavHAL.Sdio
