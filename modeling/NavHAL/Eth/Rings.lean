import NavHAL.Lib.BitField
import NavHAL.Lib.SlotRing
import NavHAL.Lib.Steps
import NavHAL.Status

/-!
# Descriptor rings of the Ethernet MAC (`eth_f7.c`)

The driver and the DMA share two rings of chained descriptors, one for each
direction, and hand a descriptor over by its `OWN` bit.  Addresses of buffers
and descriptors are their indices; the data cache is left out.
-/

namespace NavHAL.Eth

open SlotRing (Queue)
open Steps (run Each Always)

/-! ## Descriptors (`navhal_port_eth.h`) -/

/-- `navhal_eth_dma_desc_t` -/
structure EthDesc where
  des0 : BitVec 32 := 0
  des1 : BitVec 32 := 0
  des2 : Nat := 0
  des3 : Nat := 0
  deriving DecidableEq, Repr

def ethDmaDescOwn : BitVec 32 := 1#32 <<< 31

def ethDmaTdes0Ic : BitVec 32 := 1#32 <<< 30

def ethDmaTdes0Ls : BitVec 32 := 1#32 <<< 29

def ethDmaTdes0Fs : BitVec 32 := 1#32 <<< 28

def ethDmaTdes0Tch : BitVec 32 := 1#32 <<< 20

def ethDmaTdes1Tbs1Mask : BitVec 32 := 0x1FFF

def ethDmaRdes0Es : BitVec 32 := 1#32 <<< 15

def ethDmaRdes0Fs : BitVec 32 := 1#32 <<< 9

def ethDmaRdes0Ls : BitVec 32 := 1#32 <<< 8

def ethDmaRdes1Rch : BitVec 32 := 1#32 <<< 14

/-- `ETH_DMA_RDES0_FRAME_LEN` -/
def frameLen (des0 : BitVec 32) : Nat := ((des0 >>> 16) &&& 0x3FFF).toNat

def EthDesc.owned (d : EthDesc) : Bool := d.des0 &&& ethDmaDescOwn != 0

/-- `NAVHAL_ETH_RX_DESC_COUNT` -/
def rxDescCount : Nat := 4

/-- `NAVHAL_ETH_TX_DESC_COUNT` -/
def txDescCount : Nat := 4

/-- `NAVHAL_ETH_BUF_SIZE` -/
def ethBufSize : Nat := 1536

/-- `HAL_ETH_MIN_FRAME_LEN` -/
def halEthMinFrameLen : Nat := 60

/-- `HAL_ETH_MAX_FRAME_LEN` -/
def halEthMaxFrameLen : Nat := 1522

/-! ## The driver -/

/-- The rings, the statics of the driver, and the DMA: whether it runs in each
direction, and the descriptor that it looks at next. -/
structure EthState where
  txDesc : Nat → EthDesc := fun _ => {}
  rxDesc : Nat → EthDesc := fun _ => {}
  txBuf : Nat → Nat → BitVec 8 := fun _ _ => 0
  rxBuf : Nat → Nat → BitVec 8 := fun _ _ => 0
  txIdx : Nat := 0
  rxIdx : Nat := 0
  initialized : Bool := false
  started : Bool := false
  /-- `eth_clock_on` -/
  clockOn : Bool := false
  /-- `ST` and `TE` -/
  txRuns : Bool := false
  /-- `SR` and `RE` -/
  rxRuns : Bool := false
  txPos : Nat := 0
  rxPos : Nat := 0

/-- `_copy` into a buffer. -/
def copyTo (buf : Nat → BitVec 8) (data : List (BitVec 8)) : Nat → BitVec 8 :=
  fun k => data[k]?.getD (buf k)

def readBuf (buf : Nat → BitVec 8) (n : Nat) : List (BitVec 8) := (List.range n).map buf

/-- One element of a table, changed. -/
def update {α : Type} (f : Nat → α) (k : Nat) (x : α) : Nat → α := fun i => if i = k then x else f i

/-- `_init_rings` -/
def initRings (st : EthState) : EthState :=
  { st with
    rxDesc := fun i =>
      if i < rxDescCount then
        { des0 := ethDmaDescOwn
          des1 := ethDmaRdes1Rch ||| (BitVec.ofNat 32 ethBufSize &&& 0x1FFF)
          des2 := i
          des3 := (i + 1) % rxDescCount }
      else st.rxDesc i
    txDesc := fun i =>
      if i < txDescCount then
        { des0 := ethDmaTdes0Tch, des1 := 0, des2 := i, des3 := (i + 1) % txDescCount }
      else st.txDesc i
    rxIdx := 0
    txIdx := 0
    rxPos := 0
    txPos := 0 }

/-- `hal_eth_init`; the reset of the DMA ends in time, and the PHY answers. -/
def halEthInit (st : EthState) : HalStatus × EthState :=
  if st.initialized then (.errNotInitialized, st)
  else
    let st := { st with clockOn := true, txRuns := false, rxRuns := false }
    (.ok, { initRings st with initialized := true })

def halEthStart (st : EthState) : HalStatus × EthState :=
  if st.initialized = false then (.errNotInitialized, st)
  else (.ok, { st with txRuns := true, rxRuns := true, started := true })

def halEthStop (st : EthState) : HalStatus × EthState :=
  if st.clockOn = false then (.errNotInitialized, st)
  else (.ok, { st with txRuns := false, rxRuns := false, started := false })

def halEthDeinit (st : EthState) : HalStatus × EthState :=
  if st.clockOn = false then (.ok, st)
  else (.ok, { (halEthStop st).2 with clockOn := false, initialized := false })

/-- `hal_eth_send`; none where the frame is NULL. -/
def halEthSend (frame : Option (List (BitVec 8))) (st : EthState) : HalStatus × EthState :=
  match frame with
  | none => (.errInvalidArg, st)
  | some data =>
    if data.length < halEthMinFrameLen ∨ halEthMaxFrameLen < data.length then (.errInvalidArg, st)
    else if st.clockOn = false then (.errNotInitialized, st)
    else if st.started = false then (.errNotInitialized, st)
    else if (st.txDesc st.txIdx).owned then (.errBusy, st)
    else
      let d := { st.txDesc st.txIdx with
        des1 := BitVec.ofNat 32 data.length &&& ethDmaTdes1Tbs1Mask
        des0 := ethDmaTdes0Tch ||| ethDmaTdes0Fs ||| ethDmaTdes0Ls ||| ethDmaTdes0Ic |||
          ethDmaDescOwn }
      (.ok, { st with
        txBuf := update st.txBuf st.txIdx (copyTo (st.txBuf st.txIdx) data)
        txDesc := update st.txDesc st.txIdx d
        txIdx := (st.txIdx + 1) % txDescCount })

/-- `hal_eth_receive` with its two pointers there or not, and the bytes that it
stores, `*out_len` of them. -/
def halEthReceive (given : Bool) (maxLen : BitVec 16) (st : EthState) :
    HalStatus × List (BitVec 8) × EthState :=
  if given = false then (.errInvalidArg, [], st)
  else if st.clockOn = false then (.errNotInitialized, [], st)
  else if st.started = false then (.errNotInitialized, [], st)
  else
    let d := st.rxDesc st.rxIdx
    if d.owned then (.ok, [], st)
    else
      let st' := { st with
        rxDesc := update st.rxDesc st.rxIdx { d with des0 := ethDmaDescOwn }
        rxIdx := (st.rxIdx + 1) % rxDescCount }
      if d.des0 &&& ethDmaRdes0Es = 0 then
        let fl := frameLen d.des0
        let len := if 4 ≤ fl then fl - 4 else fl
        if maxLen.toNat < len then (.errNoMem, [], st')
        else (.ok, readBuf (st.rxBuf st.rxIdx) len, st')
      else (.ok, [], st')

/-! ## The DMA -/

/-- A frame that arrives: its FCS comes last, and one buffer holds it. -/
structure RxFrame where
  payload : List (BitVec 8)
  fcs : List (BitVec 8)
  payload_pos : 0 < payload.length
  fcs_length : fcs.length = 4
  fits : payload.length + 4 ≤ ethBufSize

/-- The status of a frame without an error. -/
def RxFrame.status (f : RxFrame) : BitVec 32 :=
  BitVec.ofNat 32 (f.payload.length + 4) <<< 16 ||| ethDmaRdes0Fs ||| ethDmaRdes0Ls

/-- The DMA sends the frame of its descriptor, if it owns it. -/
def dmaTransmit (st : EthState) : Option (List (BitVec 8)) × EthState :=
  let d := st.txDesc st.txPos
  if st.txRuns && d.owned then
    (some (readBuf (st.txBuf d.des2) (d.des1 &&& ethDmaTdes1Tbs1Mask).toNat),
      { st with
        txDesc := update st.txDesc st.txPos { d with des0 := d.des0 &&& ~~~ethDmaDescOwn }
        txPos := d.des3 })
  else (none, st)

/-- The DMA stores a frame, if it owns its descriptor. -/
def dmaReceive (f : RxFrame) (st : EthState) : Bool × EthState :=
  let d := st.rxDesc st.rxPos
  if st.rxRuns && d.owned then
    (true, { st with
      rxBuf := update st.rxBuf d.des2 (copyTo (st.rxBuf d.des2) (f.payload ++ f.fcs))
      rxDesc := update st.rxDesc st.rxPos { d with des0 := f.status }
      rxPos := d.des3 })
  else (false, st)

/-! ## Runs -/

inductive EthOp
  | init
  | deinit
  | start
  | stop
  | send (frame : Option (List (BitVec 8)))
  | receive (given : Bool) (maxLen : BitVec 16)
  | dmaTransmit
  | dmaReceive (f : RxFrame)

/-- What a call of `hal_eth_receive` makes of a frame. -/
inductive Received
  | frame (bytes : List (BitVec 8))
  | noMem
  deriving DecidableEq, Repr

/-- The result that says that there was a frame. -/
def receivedOf (status : HalStatus) (bytes : List (BitVec 8)) : Option Received :=
  match status, bytes with
  | .ok, b :: bs => some (.frame (b :: bs))
  | .errNoMem, _ => some .noMem
  | _, _ => none

/-- The rings, and since the last initialisation: the frames that were accepted,
those on the wire, those that arrived, and the calls that took one. -/
structure EthRun where
  eth : EthState := {}
  sent : List (List (BitVec 8)) := []
  wire : List (List (BitVec 8)) := []
  arrived : List RxFrame := []
  taken : List (BitVec 16 × Received) := []

def ethStep (rs : EthRun) : EthOp → EthRun
  | .init =>
    let result := halEthInit rs.eth
    if result.1 = .ok then { eth := result.2 } else { rs with eth := result.2 }
  | .deinit => { rs with eth := (halEthDeinit rs.eth).2 }
  | .start => { rs with eth := (halEthStart rs.eth).2 }
  | .stop => { rs with eth := (halEthStop rs.eth).2 }
  | .send frame =>
    let result := halEthSend frame rs.eth
    { rs with
      eth := result.2
      sent := rs.sent ++ if result.1 = .ok then frame.toList else [] }
  | .receive given maxLen =>
    let result := halEthReceive given maxLen rs.eth
    { rs with
      eth := result.2.2
      taken := rs.taken ++ ((receivedOf result.1 result.2.1).map fun r => (maxLen, r)).toList }
  | .dmaTransmit =>
    let result := dmaTransmit rs.eth
    { rs with eth := result.2, wire := rs.wire ++ result.1.toList }
  | .dmaReceive f =>
    let result := dmaReceive f rs.eth
    { rs with eth := result.2, arrived := rs.arrived ++ if result.1 then [f] else [] }

/-- What a call with room for `maxLen` bytes is to make of a frame. -/
def delivery (maxLen : BitVec 16) (f : RxFrame) : Received :=
  if maxLen.toNat < f.payload.length then .noMem else .frame f.payload

/-- Both rings are queues: the wire carries a prefix of what was accepted, and
the calls that took a frame took the first ones that arrived, one each. -/
structure Fifo (rs : EthRun) : Prop where
  wire : rs.wire <+: rs.sent
  taken : rs.taken.map Prod.snd = List.zipWith delivery (rs.taken.map Prod.fst) rs.arrived

/-- What the DMA owns is the same after a call. -/
structure KeepsOwned (st st' : EthState) : Prop where
  tx : ∀ i < txDescCount, (st.txDesc i).owned = true →
    st'.txDesc i = st.txDesc i ∧ st'.txBuf i = st.txBuf i
  rx : ∀ i < rxDescCount, (st.rxDesc i).owned = true →
    st'.rxDesc i = st.rxDesc i ∧ st'.rxBuf i = st.rxBuf i

/-- A frame that `hal_eth_send` takes. -/
def LegalFrame (frame : Option (List (BitVec 8))) : Prop :=
  ∃ data, frame = some data ∧ halEthMinFrameLen ≤ data.length ∧ data.length ≤ halEthMaxFrameLen

/-- `HAL_ERR_BUSY` means that the DMA owns all TX descriptors; no call but
`hal_eth_init` writes to what the DMA owns, and that one finds the DMA at rest.
While started, the wire gets the oldest accepted frame that it has not had yet,
and a call the oldest arrived one that no other has taken. -/
def CallRight (rs : EthRun) (op : EthOp) : Prop :=
  match op with
  | .send frame =>
    ((halEthSend frame rs.eth).1 = .errBusy ↔ LegalFrame frame ∧ rs.eth.started = true ∧
      ∀ i < txDescCount, (rs.eth.txDesc i).owned = true) ∧
    KeepsOwned rs.eth (halEthSend frame rs.eth).2
  | .init => (halEthInit rs.eth).1 = .ok →
    rs.eth.txRuns = false ∧ rs.eth.rxRuns = false
  | .receive given maxLen =>
    (given = true → rs.eth.started = true →
      receivedOf (halEthReceive given maxLen rs.eth).1 (halEthReceive given maxLen rs.eth).2.1 =
        (rs.arrived[rs.taken.length]?).map (delivery maxLen)) ∧
    KeepsOwned rs.eth (halEthReceive given maxLen rs.eth).2.2
  | .dmaTransmit => rs.eth.txRuns = true → (dmaTransmit rs.eth).1 = rs.sent[rs.wire.length]?
  | .dmaReceive _ => True
  | op => KeepsOwned rs.eth (ethStep rs op).eth

/-! ## Words of a descriptor -/

theorem owned_eq (d : EthDesc) : d.owned = d.des0.getLsbD 31 := by
  rw [EthDesc.owned, ethDmaDescOwn, ← BitVec.twoPow_eq, BitVec.and_twoPow]
  cases d.des0.getLsbD 31 <;> decide

theorem readBuf_copyTo (buf : Nat → BitVec 8) (data : List (BitVec 8)) :
    readBuf (copyTo buf data) data.length = data := by
  apply List.ext_getElem
  · simp [readBuf]
  · intro i hi hi'
    simp [readBuf, copyTo, hi']

theorem readBuf_take (buf : Nat → BitVec 8) {m n : Nat} (h : m ≤ n) :
    (readBuf buf n).take m = readBuf buf m := by
  rw [readBuf, ← List.map_take, List.take_range, Nat.min_eq_left h]
  rfl

/-- The lengths that the descriptors hold. -/
theorem txLen_eq {n : Nat} (h : n ≤ halEthMaxFrameLen) :
    (BitVec.ofNat 32 n &&& ethDmaTdes1Tbs1Mask &&& ethDmaTdes1Tbs1Mask).toNat = n := by
  have hle : n ≤ 1522 := h
  rw [BitVec.and_assoc, BitVec.and_self, BitVec.toNat_and, BitVec.toNat_ofNat,
    show ethDmaTdes1Tbs1Mask.toNat = 2 ^ 13 - 1 from rfl, Nat.and_two_pow_sub_one_eq_mod]
  omega

theorem frameLen_status (f : RxFrame) : frameLen f.status = f.payload.length + 4 := by
  have hle : f.payload.length + 4 ≤ 1536 := f.fits
  rw [frameLen, show (0x3FFF : BitVec 32) = BitVec.ofNat 32 (2 ^ 14 - 1) from rfl,
    BitField.toNat_shiftRight_and_mask _ (by decide), RxFrame.status,
    BitField.field_or_of_lt _ _ (by decide), BitField.field_or_of_lt _ _ (by decide),
    BitField.field_shiftLeft _ (by decide) (by decide), Nat.sub_self, BitField.field_zero_toNat,
    BitVec.toNat_ofNat]
  omega

theorem status_bit (f : RxFrame) {i : Nat} (hi : i = 15 ∨ i = 31) : f.status.getLsbD i = false := by
  have hle : f.payload.length + 4 ≤ 1536 := f.fits
  have hsmall : (BitVec.ofNat 32 (f.payload.length + 4))[15] = false := by
    rw [← BitVec.getLsbD_eq_getElem, BitVec.getLsbD_ofNat, Nat.testBit_lt_two_pow (by omega),
      Bool.and_false]
  rcases hi with rfl | rfl
  · simp [RxFrame.status, ethDmaRdes0Fs, ethDmaRdes0Ls]
  · simp [RxFrame.status, ethDmaRdes0Fs, ethDmaRdes0Ls, hsmall]

theorem status_no_error (f : RxFrame) : f.status &&& ethDmaRdes0Es = 0 := by
  rw [ethDmaRdes0Es, ← BitVec.twoPow_eq, BitVec.and_twoPow, status_bit f (.inl rfl)]
  rfl

/-! ## The queues in the rings -/

/-- A TX descriptor holds a frame while the DMA owns it. -/
def txSlot (st : EthState) (i : Nat) : Option (List (BitVec 8)) :=
  if (st.txDesc i).owned then
    some (readBuf (st.txBuf i) ((st.txDesc i).des1 &&& ethDmaTdes1Tbs1Mask).toNat)
  else none

/-- An RX descriptor holds a frame while the driver owns it. -/
def rxSlot (st : EthState) (i : Nat) : Option (BitVec 32 × List (BitVec 8)) :=
  if (st.rxDesc i).owned then none
  else some ((st.rxDesc i).des0, readBuf (st.rxBuf i) (frameLen (st.rxDesc i).des0))

/-- A frame as its descriptor and its buffer show it. -/
def RxFrame.shown (f : RxFrame) : BitVec 32 × List (BitVec 8) := (f.status, f.payload ++ f.fcs)

/-- Each descriptor has its own buffer and is chained to the next one. -/
def Chained (n : Nat) (desc : Nat → EthDesc) : Prop :=
  ∀ i < n, (desc i).des2 = i ∧ (desc i).des3 = (i + 1) % n

theorem Chained.update {n : Nat} {desc : Nat → EthDesc} (h : Chained n desc) (k : Nat) {d : EthDesc}
    (hbuf : d.des2 = (desc k).des2) (hnext : d.des3 = (desc k).des3) :
    Chained n (Eth.update desc k d) := by
  intro i hi
  rw [Eth.update]
  split
  · rename_i hik
    rw [hbuf, hnext, ← hik]
    exact h i hi
  · exact h i hi

/-- The rings of an initialised driver, with the frames that wait in them. -/
structure RingsHold (st : EthState) (txq : List (List (BitVec 8))) (rxq : List RxFrame) : Prop where
  txChained : Chained txDescCount st.txDesc
  rxChained : Chained rxDescCount st.rxDesc
  tx : Queue txDescCount (txSlot st) st.txPos st.txIdx txq
  rx : Queue rxDescCount (rxSlot st) st.rxIdx st.rxPos (rxq.map RxFrame.shown)

theorem isSome_txSlot (st : EthState) (i : Nat) :
    (txSlot st i).isSome = (st.txDesc i).owned := by
  rw [txSlot]
  cases (st.txDesc i).owned <;> rfl

theorem ringsHold_initRings (st : EthState) : RingsHold (initRings st) [] [] where
  txChained i hi := by
    simp only [initRings, if_pos hi]
    exact ⟨trivial, trivial⟩
  rxChained i hi := by
    simp only [initRings, if_pos hi]
    exact ⟨trivial, trivial⟩
  tx := SlotRing.queue_nil (by decide) fun i hi => by
    simp only [txSlot, initRings, if_pos hi]
    exact if_neg (show ¬ (ethDmaTdes0Tch &&& ethDmaDescOwn != 0) = true by decide)
  rx := SlotRing.queue_nil (by decide) fun i hi => by
    simp only [rxSlot, initRings, if_pos hi]
    exact if_pos (show (ethDmaDescOwn &&& ethDmaDescOwn != 0) = true by decide)

section Steps

variable {st : EthState} {txq : List (List (BitVec 8))} {rxq : List RxFrame}

/-- A frame is put into the TX ring. -/
theorem RingsHold.send (h : RingsHold st txq rxq) {data : List (BitVec 8)} {d : EthDesc}
    (hfree : (st.txDesc st.txIdx).owned = false) (hlen : data.length ≤ halEthMaxFrameLen)
    (howned : d.owned = true)
    (hdes1 : d.des1 = BitVec.ofNat 32 data.length &&& ethDmaTdes1Tbs1Mask)
    (hbuf : d.des2 = (st.txDesc st.txIdx).des2) (hnext : d.des3 = (st.txDesc st.txIdx).des3) :
    RingsHold { st with
      txBuf := update st.txBuf st.txIdx (copyTo (st.txBuf st.txIdx) data)
      txDesc := update st.txDesc st.txIdx d
      txIdx := (st.txIdx + 1) % txDescCount } (txq ++ [data]) rxq where
  txChained := h.txChained.update _ hbuf hnext
  rxChained := h.rxChained
  tx := by
    have hempty : txSlot st st.txIdx = none := by
      rw [txSlot, hfree]
      rfl
    refine (h.tx.push hempty data).congr fun i _ => ?_
    simp only [SlotRing.set, txSlot, update]
    split
    · simp only [hdes1, txLen_eq hlen, readBuf_copyTo]
    · rfl
  rx := h.rx

/-- The frame that the DMA sends is the oldest one in the ring. -/
theorem RingsHold.transmit (h : RingsHold st txq rxq) {d : EthDesc}
    (howned : (st.txDesc st.txPos).owned = true) (hdone : d.owned = false)
    (hbuf : d.des2 = (st.txDesc st.txPos).des2) (hnext : d.des3 = (st.txDesc st.txPos).des3) :
    txq = readBuf (st.txBuf (st.txDesc st.txPos).des2)
        ((st.txDesc st.txPos).des1 &&& ethDmaTdes1Tbs1Mask).toNat :: txq.tail ∧
    RingsHold { st with
      txDesc := update st.txDesc st.txPos d
      txPos := (st.txDesc st.txPos).des3 } txq.tail rxq := by
  obtain ⟨hown, hchain⟩ := h.txChained st.txPos h.tx.head_lt
  have hslot := h.tx.head_slot
  rw [txSlot, if_pos howned] at hslot
  obtain ⟨x, xs, rfl⟩ : ∃ x xs, txq = x :: xs := by
    cases txq with
    | nil => cases hslot
    | cons x xs => exact ⟨x, xs, rfl⟩
  refine ⟨?_, h.txChained.update _ hbuf hnext, h.rxChained, ?_, h.rx⟩
  · rw [hown, List.tail_cons]
    rw [List.head?_cons, Option.some_inj] at hslot
    rw [hslot]
  · rw [hchain]
    refine h.tx.pop.congr fun i _ => ?_
    simp only [SlotRing.set, txSlot, update]
    split
    · rw [hdone]
      rfl
    · rfl

/-- A frame that arrives is the youngest one in the ring. -/
theorem RingsHold.arrive (h : RingsHold st txq rxq) (f : RxFrame)
    (howned : (st.rxDesc st.rxPos).owned = true) :
    RingsHold { st with
      rxBuf := update st.rxBuf (st.rxDesc st.rxPos).des2
        (copyTo (st.rxBuf (st.rxDesc st.rxPos).des2) (f.payload ++ f.fcs))
      rxDesc := update st.rxDesc st.rxPos { st.rxDesc st.rxPos with des0 := f.status }
      rxPos := (st.rxDesc st.rxPos).des3 } txq (rxq ++ [f]) := by
  obtain ⟨hown, hchain⟩ := h.rxChained st.rxPos h.rx.tail_lt
  refine ⟨h.txChained, h.rxChained.update _ rfl rfl, h.tx, ?_⟩
  have hempty : rxSlot st st.rxPos = none := by rw [rxSlot, if_pos howned]
  rw [hchain, List.map_append]
  refine (h.rx.push hempty f.shown).congr fun i _ => ?_
  have hlen : f.payload.length + 4 = (f.payload ++ f.fcs).length := by
    rw [List.length_append, f.fcs_length]
  simp only [SlotRing.set, rxSlot, update, hown]
  split
  · simp only [owned_eq, status_bit f (.inr rfl), frameLen_status, hlen, readBuf_copyTo]
    rfl
  · rfl

theorem RingsHold.rx_empty (h : RingsHold st txq rxq)
    (howned : (st.rxDesc st.rxIdx).owned = true) : rxq = [] := by
  have hslot := h.rx.head_slot
  rw [rxSlot, if_pos howned] at hslot
  exact List.map_eq_nil_iff.mp (List.head?_eq_none_iff.mp hslot.symm)

/-- The frame that a call of `hal_eth_receive` takes is the oldest one in the ring. -/
theorem RingsHold.take (h : RingsHold st txq rxq)
    (hfree : (st.rxDesc st.rxIdx).owned = false) :
    ∃ f rest, rxq = f :: rest ∧ (st.rxDesc st.rxIdx).des0 = f.status ∧
      readBuf (st.rxBuf st.rxIdx) f.payload.length = f.payload ∧
      RingsHold { st with
        rxDesc := update st.rxDesc st.rxIdx { st.rxDesc st.rxIdx with des0 := ethDmaDescOwn }
        rxIdx := (st.rxIdx + 1) % rxDescCount } txq rest := by
  have hslot := h.rx.head_slot
  rw [rxSlot, hfree] at hslot
  cases rxq with
  | nil => cases hslot
  | cons f rest =>
    simp only [Bool.false_eq_true, if_false, List.map_cons, List.head?_cons, Option.some_inj,
      RxFrame.shown, Prod.mk.injEq] at hslot
    obtain ⟨hstatus, hbytes⟩ := hslot
    refine ⟨f, rest, rfl, hstatus, ?_, h.txChained, h.rxChained.update _ rfl rfl, h.tx, ?_⟩
    · rw [hstatus, frameLen_status] at hbytes
      rw [← readBuf_take _ (Nat.le_add_right _ 4), hbytes, List.take_left]
    · refine h.rx.pop.congr fun i _ => ?_
      simp only [SlotRing.set, rxSlot, update]
      split
      · exact if_pos (show (ethDmaDescOwn &&& ethDmaDescOwn != 0) = true by decide)
      · rfl

end Steps

/-! ## The calls -/

section Calls

variable {st : EthState}

inductive SendOutcome (frame : Option (List (BitVec 8))) (st : EthState) :
    HalStatus × EthState → Prop
  | refused {status : HalStatus} (hok : status ≠ .ok) (hbusy : status ≠ .errBusy)
      (hwhy : ¬ (LegalFrame frame ∧ st.started = true)) : SendOutcome frame st (status, st)
  | busy (hlegal : LegalFrame frame) (hstarted : st.started = true)
      (howned : (st.txDesc st.txIdx).owned = true) : SendOutcome frame st (.errBusy, st)
  | queued {data : List (BitVec 8)} {d : EthDesc} (hframe : frame = some data)
      (hlen : data.length ≤ halEthMaxFrameLen) (hstarted : st.started = true)
      (hfree : (st.txDesc st.txIdx).owned = false) (howned : d.owned = true)
      (hdes1 : d.des1 = BitVec.ofNat 32 data.length &&& ethDmaTdes1Tbs1Mask)
      (hbuf : d.des2 = (st.txDesc st.txIdx).des2) (hnext : d.des3 = (st.txDesc st.txIdx).des3) :
      SendOutcome frame st (.ok, { st with
        txBuf := update st.txBuf st.txIdx (copyTo (st.txBuf st.txIdx) data)
        txDesc := update st.txDesc st.txIdx d
        txIdx := (st.txIdx + 1) % txDescCount })

theorem send_outcome (frame : Option (List (BitVec 8)))
    (hclock : st.started = true → st.clockOn = true) :
    SendOutcome frame st (halEthSend frame st) := by
  unfold halEthSend
  cases frame with
  | none => exact .refused nofun nofun fun h => nomatch h.1
  | some data =>
    dsimp only
    by_cases hlen : data.length < halEthMinFrameLen ∨ halEthMaxFrameLen < data.length
    · rw [if_pos hlen]
      refine .refused nofun nofun fun ⟨⟨_, heq, hmin, hmax⟩, _⟩ => ?_
      cases heq
      exact hlen.elim (Nat.not_lt_of_le hmin) (Nat.not_lt_of_le hmax)
    · rw [if_neg hlen]
      obtain ⟨hmin, hmax⟩ := not_or.mp hlen
      have hlegal : LegalFrame (some data) :=
        ⟨data, rfl, Nat.le_of_not_lt hmin, Nat.le_of_not_lt hmax⟩
      by_cases hstarted : st.started = true
      · rw [if_neg (by simp [hclock hstarted]), if_neg (by simp [hstarted])]
        by_cases howned : (st.txDesc st.txIdx).owned = true
        · rw [if_pos howned]
          exact .busy hlegal hstarted howned
        · rw [if_neg howned]
          have howns : ((ethDmaTdes0Tch ||| ethDmaTdes0Fs ||| ethDmaTdes0Ls ||| ethDmaTdes0Ic |||
            ethDmaDescOwn) &&& ethDmaDescOwn != 0) = true := by decide
          exact .queued rfl (Nat.le_of_not_lt hmax) hstarted (Bool.eq_false_iff.mpr howned) howns
            rfl rfl rfl
      · rw [if_pos (Bool.eq_false_iff.mpr hstarted), ite_self]
        exact .refused nofun nofun fun h => hstarted h.2

inductive ReceiveOutcome (given : Bool) (maxLen : BitVec 16) (st : EthState) (txq : List (List (BitVec 8)))
    (rxq : List RxFrame) : HalStatus × List (BitVec 8) × EthState → Prop
  | nothing {status : HalStatus} (hnone : receivedOf status [] = none)
      (hwhy : given = true → st.started = true → rxq = []) :
      ReceiveOutcome given maxLen st txq rxq (status, [], st)
  | took {f : RxFrame} {rest : List RxFrame} {status : HalStatus} {bytes : List (BitVec 8)}
      {d : EthDesc} (hqueue : rxq = f :: rest)
      (hresult : receivedOf status bytes = some (delivery maxLen f))
      (hfree : (st.rxDesc st.rxIdx).owned = false)
      (hrings : RingsHold { st with
        rxDesc := update st.rxDesc st.rxIdx d, rxIdx := (st.rxIdx + 1) % rxDescCount } txq rest) :
      ReceiveOutcome given maxLen st txq rxq (status, bytes, { st with
        rxDesc := update st.rxDesc st.rxIdx d, rxIdx := (st.rxIdx + 1) % rxDescCount })

theorem receive_outcome {txq : List (List (BitVec 8))} {rxq : List RxFrame} (given : Bool)
    (maxLen : BitVec 16) (hclock : st.started = true → st.clockOn = true)
    (hrings : st.started = true → RingsHold st txq rxq) :
    ReceiveOutcome given maxLen st txq rxq (halEthReceive given maxLen st) := by
  unfold halEthReceive
  split
  · rename_i hgiven
    exact .nothing rfl fun h => nomatch hgiven ▸ h
  · split
    · rename_i hoff
      exact .nothing rfl fun _ hstarted => nomatch hoff ▸ hclock hstarted
    · split
      · rename_i hstopped
        exact .nothing rfl fun _ hstarted => nomatch hstopped ▸ hstarted
      · rename_i hstarted
        have hhold := hrings (by simpa using hstarted)
        dsimp only
        cases howned : (st.rxDesc st.rxIdx).owned with
        | true => exact .nothing rfl fun _ _ => hhold.rx_empty howned
        | false =>
          obtain ⟨f, rest, rfl, hstatus, hpayload, htaken⟩ := hhold.take howned
          have hlen : (if 4 ≤ f.payload.length + 4 then f.payload.length + 4 - 4
              else f.payload.length + 4) = f.payload.length := by
            rw [if_pos (Nat.le_add_left 4 _), Nat.add_sub_cancel]
          simp only [Bool.false_eq_true, if_false, hstatus, status_no_error, if_true,
            frameLen_status, hlen, hpayload]
          by_cases hroom : maxLen.toNat < f.payload.length
          · rw [if_pos hroom]
            exact .took rfl (congrArg some (if_pos hroom).symm) howned htaken
          · rw [if_neg hroom]
            refine .took rfl ?_ howned htaken
            obtain ⟨b, bs, hcons⟩ := List.exists_cons_of_length_pos f.payload_pos
            rw [delivery, if_neg hroom, hcons]
            rfl

end Calls

/-! ## Every run -/

/-- Where the frames of a run are: accepted ones are on the wire or in the TX
ring, arrived ones are taken or in the RX ring. -/
structure Accounts (rs : EthRun) (txq : List (List (BitVec 8))) (done rxq : List RxFrame) :
    Prop where
  sent : rs.sent = rs.wire ++ txq
  arrived : rs.arrived = done ++ rxq
  taken : rs.taken.map Prod.snd = List.zipWith delivery (rs.taken.map Prod.fst) done
  taken_length : rs.taken.length = done.length
  rings : rs.eth.initialized = true → RingsHold rs.eth txq rxq
  started : rs.eth.started = true → rs.eth.initialized = true
  clock : rs.eth.initialized = true → rs.eth.clockOn = true
  txRuns : rs.eth.txRuns = true → rs.eth.initialized = true
  rxRuns : rs.eth.rxRuns = true → rs.eth.initialized = true

def EthInvariant (rs : EthRun) : Prop := ∃ txq done rxq, Accounts rs txq done rxq

theorem ethInvariant_powerOn : EthInvariant {} :=
  ⟨[], [], [], rfl, rfl, rfl, rfl, nofun, nofun, nofun, nofun, nofun⟩

section Accounts

variable {rs : EthRun} {txq : List (List (BitVec 8))} {done rxq : List RxFrame}

theorem Accounts.clock_of_started (h : Accounts rs txq done rxq)
    (hstarted : rs.eth.started = true) : rs.eth.clockOn = true := h.clock (h.started hstarted)

theorem Accounts.rings_of_started (h : Accounts rs txq done rxq)
    (hstarted : rs.eth.started = true) : RingsHold rs.eth txq rxq := h.rings (h.started hstarted)

theorem Accounts.rooms_length (h : Accounts rs txq done rxq) :
    (rs.taken.map Prod.fst).length = done.length := by
  rw [List.length_map, h.taken_length]

theorem Accounts.fifo (h : Accounts rs txq done rxq) : Fifo rs where
  wire := ⟨txq, h.sent.symm⟩
  taken := by
    have hsplit : List.zipWith delivery (rs.taken.map Prod.fst ++ []) (done ++ rxq) =
        List.zipWith delivery (rs.taken.map Prod.fst) done ++ List.zipWith delivery [] rxq :=
      List.zipWith_append h.rooms_length
    rw [List.append_nil, List.zipWith_nil_left, List.append_nil] at hsplit
    rw [h.taken, h.arrived, hsplit]

/-- The rings after a change elsewhere. -/
theorem RingsHold.same {st st' : EthState} (h : RingsHold st txq rxq)
    (htx : st'.txDesc = st.txDesc ∧ st'.txBuf = st.txBuf ∧ st'.txPos = st.txPos ∧
      st'.txIdx = st.txIdx)
    (hrx : st'.rxDesc = st.rxDesc ∧ st'.rxBuf = st.rxBuf ∧ st'.rxPos = st.rxPos ∧
      st'.rxIdx = st.rxIdx) : RingsHold st' txq rxq := by
  obtain ⟨htd, htb, htp, hti⟩ := htx
  obtain ⟨hrd, hrb, hrp, hri⟩ := hrx
  refine ⟨htd ▸ h.txChained, hrd ▸ h.rxChained, ?_, ?_⟩
  · rw [htp, hti]
    exact h.tx.congr fun i _ => by rw [txSlot, txSlot, htd, htb]
  · rw [hrp, hri]
    exact h.rx.congr fun i _ => by rw [rxSlot, rxSlot, hrd, hrb]

theorem Accounts.init (h : Accounts rs txq done rxq) : EthInvariant (ethStep rs .init) := by
  simp only [ethStep, halEthInit]
  by_cases hinit : rs.eth.initialized = true
  · simp only [hinit, if_true]
    exact ⟨txq, done, rxq, h⟩
  · simp only [hinit, Bool.false_eq_true, if_false, if_true]
    refine ⟨[], [], [], rfl, rfl, rfl, rfl, fun _ => ?_, fun _ => rfl, fun _ => rfl, nofun, nofun⟩
    exact (ringsHold_initRings _).same ⟨rfl, rfl, rfl, rfl⟩ ⟨rfl, rfl, rfl, rfl⟩

theorem Accounts.deinit (h : Accounts rs txq done rxq) :
    Accounts (ethStep rs .deinit) txq done rxq := by
  simp only [ethStep, halEthDeinit]
  by_cases hclock : rs.eth.clockOn = true
  · simp only [halEthStop, hclock, Bool.true_eq_false, if_false]
    exact ⟨h.sent, h.arrived, h.taken, h.taken_length, nofun, nofun, nofun, nofun, nofun⟩
  · simp only [hclock, if_true]
    exact h

theorem Accounts.start (h : Accounts rs txq done rxq) :
    Accounts (ethStep rs .start) txq done rxq := by
  simp only [ethStep, halEthStart]
  by_cases hinit : rs.eth.initialized = true
  · simp only [hinit, Bool.true_eq_false, if_false]
    exact ⟨h.sent, h.arrived, h.taken, h.taken_length,
      fun _ => (h.rings hinit).same ⟨rfl, rfl, rfl, rfl⟩ ⟨rfl, rfl, rfl, rfl⟩,
      fun _ => rfl, fun _ => h.clock hinit, fun _ => rfl, fun _ => rfl⟩
  · simp only [hinit, if_true]
    exact h

theorem Accounts.stop (h : Accounts rs txq done rxq) :
    Accounts (ethStep rs .stop) txq done rxq := by
  simp only [ethStep, halEthStop]
  by_cases hclock : rs.eth.clockOn = true
  · simp only [hclock, Bool.true_eq_false, if_false]
    exact ⟨h.sent, h.arrived, h.taken, h.taken_length,
      fun hinit => (h.rings hinit).same ⟨rfl, rfl, rfl, rfl⟩ ⟨rfl, rfl, rfl, rfl⟩,
      nofun, fun _ => rfl, nofun, nofun⟩
  · simp only [hclock, if_true]
    exact h

theorem Accounts.send (h : Accounts rs txq done rxq) (frame : Option (List (BitVec 8))) :
    EthInvariant (ethStep rs (.send frame)) := by
  have houtcome := send_outcome frame h.clock_of_started
  simp only [ethStep]
  generalize halEthSend frame rs.eth = result at houtcome ⊢
  cases houtcome with
  | refused hok hbusy hwhy =>
    simp only [hok, if_false, List.append_nil]
    exact ⟨txq, done, rxq, h⟩
  | busy hlegal hstarted howned =>
    simp only [reduceCtorEq, if_false, List.append_nil]
    exact ⟨txq, done, rxq, h⟩
  | @queued data d hframe hlen hstarted hfree howned hdes1 hbuf hnext =>
    refine ⟨txq ++ [data], done, rxq, ?_, h.arrived, h.taken, h.taken_length, fun hinit => ?_,
      h.started, h.clock, h.txRuns, h.rxRuns⟩
    · simp [hframe, h.sent]
    · exact (h.rings hinit).send hfree hlen howned hdes1 hbuf hnext

theorem Accounts.receive (h : Accounts rs txq done rxq) (given : Bool) (maxLen : BitVec 16) :
    EthInvariant (ethStep rs (.receive given maxLen)) := by
  have houtcome := receive_outcome given maxLen h.clock_of_started h.rings_of_started
  simp only [ethStep]
  generalize halEthReceive given maxLen rs.eth = result at houtcome ⊢
  cases houtcome with
  | nothing hnone hwhy =>
    simp only [hnone, Option.map_none, Option.toList_none, List.append_nil]
    exact ⟨txq, done, rxq, h⟩
  | @took f rest status bytes d hqueue hresult hfree hrings =>
    refine ⟨txq, done ++ [f], rest, h.sent, ?_, ?_, ?_, fun _ => hrings, h.started, h.clock,
      h.txRuns, h.rxRuns⟩
    · simp [h.arrived, hqueue]
    · rw [hresult, Option.map_some, Option.toList_some, List.map_append, List.map_append,
        List.zipWith_append h.rooms_length, h.taken]
      rfl
    · simp [hresult, h.taken_length]

theorem Accounts.transmit (h : Accounts rs txq done rxq) :
    EthInvariant (ethStep rs .dmaTransmit) := by
  simp only [ethStep, dmaTransmit]
  by_cases hruns : (rs.eth.txRuns && (rs.eth.txDesc rs.eth.txPos).owned) = true
  · simp only [hruns, if_true, Option.toList_some]
    obtain ⟨hon, howned⟩ := Bool.and_eq_true_iff.mp hruns
    have hinit := h.txRuns hon
    have hdone : EthDesc.owned { rs.eth.txDesc rs.eth.txPos with
        des0 := (rs.eth.txDesc rs.eth.txPos).des0 &&& ~~~ethDmaDescOwn } = false := by
      simp [owned_eq, ethDmaDescOwn]
    obtain ⟨hqueue, hrings⟩ := (h.rings hinit).transmit howned hdone rfl rfl
    refine ⟨txq.tail, done, rxq, ?_, h.arrived, h.taken, h.taken_length, fun _ => hrings,
      h.started, h.clock, h.txRuns, h.rxRuns⟩
    rw [List.append_assoc, List.singleton_append, ← hqueue]
    exact h.sent
  · simp only [hruns, Bool.false_eq_true, if_false, Option.toList_none, List.append_nil]
    exact ⟨txq, done, rxq, h⟩

theorem Accounts.arrive (h : Accounts rs txq done rxq) (f : RxFrame) :
    EthInvariant (ethStep rs (.dmaReceive f)) := by
  simp only [ethStep, dmaReceive]
  by_cases hruns : (rs.eth.rxRuns && (rs.eth.rxDesc rs.eth.rxPos).owned) = true
  · simp only [hruns, if_true]
    obtain ⟨hon, howned⟩ := Bool.and_eq_true_iff.mp hruns
    have hinit := h.rxRuns hon
    refine ⟨txq, done, rxq ++ [f], h.sent, ?_, h.taken, h.taken_length,
      fun _ => (h.rings hinit).arrive f howned, h.started, h.clock, h.txRuns, h.rxRuns⟩
    rw [h.arrived, List.append_assoc]
  · simp only [hruns, Bool.false_eq_true, if_false, List.append_nil]
    exact ⟨txq, done, rxq, h⟩

end Accounts

theorem EthInvariant.step {rs : EthRun} (h : EthInvariant rs) (op : EthOp) :
    EthInvariant (ethStep rs op) := by
  obtain ⟨txq, done, rxq, h⟩ := h
  cases op with
  | init => exact h.init
  | deinit => exact ⟨txq, done, rxq, h.deinit⟩
  | start => exact ⟨txq, done, rxq, h.start⟩
  | stop => exact ⟨txq, done, rxq, h.stop⟩
  | send frame => exact h.send frame
  | receive given maxLen => exact h.receive given maxLen
  | dmaTransmit => exact h.transmit
  | dmaReceive f => exact h.arrive f

/-! ## What the calls write -/

theorem KeepsOwned.of_rings {st st' : EthState}
    (htx : st'.txDesc = st.txDesc ∧ st'.txBuf = st.txBuf)
    (hrx : st'.rxDesc = st.rxDesc ∧ st'.rxBuf = st.rxBuf) : KeepsOwned st st' where
  tx i _ _ := ⟨congrFun htx.1 i, congrFun htx.2 i⟩
  rx i _ _ := ⟨congrFun hrx.1 i, congrFun hrx.2 i⟩

theorem KeepsOwned.refl (st : EthState) : KeepsOwned st st := .of_rings ⟨rfl, rfl⟩ ⟨rfl, rfl⟩

theorem owned_ne {desc : Nat → EthDesc} {i k : Nat} (hi : (desc i).owned = true)
    (hk : (desc k).owned = false) : i ≠ k := by
  rintro rfl
  rw [hi] at hk
  cases hk

section CallRight

variable {rs : EthRun} {txq : List (List (BitVec 8))} {done rxq : List RxFrame}

/-- The oldest frame in a queue is the first one not taken out yet. -/
theorem getElem?_taken {α : Type} (xs ys : List α) : (xs ++ ys)[xs.length]? = ys.head? := by
  rw [List.getElem?_append_right (Nat.le_refl _), Nat.sub_self, List.head?_eq_getElem?]

theorem Accounts.init_right (h : Accounts rs txq done rxq) : CallRight rs .init := by
  intro hok
  have hinit : rs.eth.initialized = false := by
    rw [halEthInit] at hok
    cases hinit : rs.eth.initialized with
    | false => rfl
    | true => simp [hinit] at hok
  refine ⟨Bool.eq_false_iff.mpr fun hruns => ?_, Bool.eq_false_iff.mpr fun hruns => ?_⟩
  · simp [h.txRuns hruns] at hinit
  · simp [h.rxRuns hruns] at hinit

theorem Accounts.send_right (h : Accounts rs txq done rxq) (frame : Option (List (BitVec 8))) :
    CallRight rs (.send frame) := by
  have houtcome := send_outcome frame h.clock_of_started
  simp only [CallRight]
  generalize halEthSend frame rs.eth = result at houtcome ⊢
  cases houtcome with
  | refused hok hbusy hwhy =>
    exact ⟨iff_of_false hbusy fun hall => hwhy ⟨hall.1, hall.2.1⟩, .refl _⟩
  | busy hlegal hstarted howned =>
    have hrings := h.rings (h.started hstarted)
    have hall := hrings.tx.tail_full_iff.mp ((isSome_txSlot _ _).trans howned)
    simp only [isSome_txSlot] at hall
    exact ⟨iff_of_true rfl ⟨hlegal, hstarted, hall⟩, .refl _⟩
  | queued hframe hlen hstarted hfree howned hdes1 hbuf hnext =>
    have htail := (h.rings (h.started hstarted)).tx.tail_lt
    refine ⟨iff_of_false nofun fun hall => ?_, fun i _ hi => ?_, fun _ _ _ => ⟨rfl, rfl⟩⟩
    · exact owned_ne (hall.2.2 _ htail) hfree rfl
    · have hne := owned_ne hi hfree
      exact ⟨if_neg hne, if_neg hne⟩

theorem Accounts.receive_right (h : Accounts rs txq done rxq) (given : Bool)
    (maxLen : BitVec 16) : CallRight rs (.receive given maxLen) := by
  have houtcome := receive_outcome given maxLen h.clock_of_started h.rings_of_started
  have holdest : rs.arrived[rs.taken.length]? = rxq.head? := by
    rw [h.arrived, h.taken_length]
    exact getElem?_taken _ _
  simp only [CallRight, holdest]
  generalize halEthReceive given maxLen rs.eth = result at houtcome ⊢
  cases houtcome with
  | nothing hnone hwhy =>
    refine ⟨fun hgiven hstarted => ?_, .refl _⟩
    rw [hnone, hwhy hgiven hstarted]
    rfl
  | took hqueue hresult hfree hrings =>
    refine ⟨fun _ _ => ?_, fun _ _ _ => ⟨rfl, rfl⟩, fun i _ hi => ⟨if_neg (owned_ne hi hfree), rfl⟩⟩
    rw [hresult, hqueue]
    rfl

theorem Accounts.transmit_right (h : Accounts rs txq done rxq) : CallRight rs .dmaTransmit := by
  intro hruns
  have holdest : rs.sent[rs.wire.length]? = txq.head? := by
    rw [h.sent]
    exact getElem?_taken _ _
  have hrings := h.rings (h.txRuns hruns)
  have hslot := hrings.tx.head_slot
  have hchain := (hrings.txChained _ hrings.tx.head_lt).1
  rw [holdest, ← hslot, dmaTransmit, txSlot, hruns, Bool.true_and]
  split
  · simp only [hchain]
  · rfl

theorem callRight_of_invariant (h : EthInvariant rs) (op : EthOp) : CallRight rs op := by
  obtain ⟨txq, done, rxq, h⟩ := h
  cases op with
  | init => exact h.init_right
  | deinit =>
    simp only [CallRight, ethStep, halEthDeinit, halEthStop]
    repeat' split
    · exact .refl _
    · exact .of_rings ⟨rfl, rfl⟩ ⟨rfl, rfl⟩
  | start =>
    simp only [CallRight, ethStep, halEthStart]
    split
    · exact .refl _
    · exact .of_rings ⟨rfl, rfl⟩ ⟨rfl, rfl⟩
  | stop =>
    simp only [CallRight, ethStep, halEthStop]
    split
    · exact .refl _
    · exact .of_rings ⟨rfl, rfl⟩ ⟨rfl, rfl⟩
  | send frame => exact h.send_right frame
  | receive given maxLen => exact h.receive_right given maxLen
  | dmaTransmit => exact h.transmit_right
  | dmaReceive f => trivial

end CallRight

/-- **The rings are queues.**  In every run, the wire carries a prefix of the
accepted frames, the calls that took a frame took the arrived ones in order and
without their FCS, and each call answers and writes as it should. -/
theorem eth_rings_fifo (ops : List EthOp) :
    Always ethStep Fifo {} ops ∧ Each ethStep CallRight {} ops := by
  constructor
  · have hall : Always ethStep EthInvariant {} ops :=
      Steps.always_of_invariant (fun _ op h => h.step op) ops ethInvariant_powerOn
    exact hall.mono fun _ ⟨_, _, _, h⟩ => h.fifo
  · exact Steps.each_of_invariant (fun _ op h => callRight_of_invariant h op)
      (fun _ op h => h.step op) ops ethInvariant_powerOn

/-! ## A full ring, and a second initialisation -/

/-- Four frames of 60 bytes are queued, and none is sent yet. -/
def fullRing : List EthOp :=
  [.init, .start] ++ List.replicate txDescCount (.send (some (List.replicate 60 0)))

/-- A frame arrives, and the driver is torn down and brought up before it is taken. -/
def droppedFrame : List EthOp :=
  [.init, .start, .dmaReceive ⟨[0x55], [1, 2, 3, 4], by decide, rfl, by decide⟩, .deinit, .init,
    .start]

/-- With a full ring, a frame that is too short is not answered with
`HAL_ERR_BUSY`; a second initialisation writes to descriptors whose `OWN` bit is
set; and a frame that waited before it is not delivered. -/
theorem full_ring_refuses_short_frame :
    (¬ ((halEthSend (some []) (run ethStep {} fullRing).eth).1 = .errBusy ↔
      ∀ i < txDescCount, ((run ethStep {} fullRing).eth.txDesc i).owned = true)) ∧
    (¬ KeepsOwned (run ethStep {} (fullRing ++ [.deinit])).eth
      (run ethStep {} (fullRing ++ [.deinit, .init])).eth) ∧
    halEthReceive true 1522 (run ethStep {} droppedFrame).eth =
      (.ok, [], (run ethStep {} droppedFrame).eth) := by
  refine ⟨fun h => ?_, fun h => ?_, ?_⟩
  · exact absurd (h.mpr (by decide)) (by decide)
  · exact absurd (h.tx 0 (by decide) (by decide)).1 (by decide)
  · rfl

end NavHAL.Eth
