import NavHAL.Dma.Stream
import NavHAL.Lib.Steps

/-!
# I2C register reads by DMA (`hal_i2c_dma.c`, `i2c.c`)

One callback and one configuration, `_i2c_dma_rx_callback` and
`_active_i2c_dma_config`, serve all three buses; the completion handler stops
I2C1 whichever bus was read, and only streams 0 and 5 of DMA1 are wired to it.
-/

namespace NavHAL.Dma

open Steps (run Each)

inductive I2cBus
  | i2c1
  | i2c2
  | i2c3
  deriving DecidableEq, Repr

def I2cBus.toNat : I2cBus → Nat
  | i2c1 => 0
  | i2c2 => 1
  | i2c3 => 2

/-- The registers of `I2C_Reg_Typedef` that are written. -/
structure I2cRegs where
  cr1 : BitVec 32 := 0
  cr2 : BitVec 32 := 0
  dr : BitVec 32 := 0
  deriving DecidableEq, Repr

def i2cCr1Start : BitVec 32 := 1#32 <<< 8

def i2cCr1Stop : BitVec 32 := 1#32 <<< 9

def i2cCr1Ack : BitVec 32 := 1#32 <<< 10

def i2cCr2Dmaen : BitVec 32 := 1#32 <<< 11

def i2cCr2Last : BitVec 32 := 1#32 <<< 12

/-- Who holds a slot of the stream callbacks. -/
inductive StreamOwner
  | i2c
  | other (id : Nat)
  deriving DecidableEq, Repr

/-- The statics of the two files and the registers; a callback is a number. -/
structure I2cDma where
  dma : Controllers := {}
  streamCb : StreamCbs StreamOwner
  i2c : I2cBus → I2cRegs
  /-- `s_override`, where `s_has_override` is set. -/
  overrides : I2cBus → Bool → Option DmaBinding := fun _ _ => none
  /-- `_i2c_dma_rx_callback` -/
  rxCallback : Option Nat := none
  /-- `_active_i2c_dma_config` -/
  active : DmaConfig

def I2cDma.modifyBus (st : I2cDma) (bus : I2cBus) (f : I2cRegs → I2cRegs) : I2cDma :=
  { st with i2c := fun k => if k = bus then f (st.i2c k) else st.i2c k }

/-! ## Bindings -/

/-- `stm32_i2c_dma_default_binding` of a bus that there is. -/
def stm32I2cDmaDefaultBinding (bus : I2cBus) (tx : Bool) : DmaBinding where
  controller := .dma1
  stream := match bus with
    | .i2c1 => if tx then 6 else 0
    | .i2c2 => if tx then 7 else 2
    | .i2c3 => if tx then 4 else 1
  channel := match bus with
    | .i2c1 => 1
    | .i2c2 => 7
    | .i2c3 => if tx then 3 else 1
  periphAddr := BitVec.ofNat 32 (0x40005400 + 0x400 * bus.toNat + 0x10)
  irq := 0

def halI2cDmaGetBinding (bus : I2cBus) (tx : Bool) (st : I2cDma) : DmaBinding :=
  (st.overrides bus tx).getD (stm32I2cDmaDefaultBinding bus tx)

/-- `hal_i2c_dma_set_binding`; NULL restores the default. -/
def halI2cDmaSetBinding (bus : I2cBus) (tx : Bool) (binding : Option DmaBinding) (st : I2cDma) :
    HalStatus × I2cDma :=
  (.ok, { st with
    overrides := fun k t => if k = bus ∧ t = tx then binding else st.overrides k t })

/-! ## Reading registers -/

/-- What the bus shows within the waits of a read. -/
structure BusAnswers where
  idle : Bool
  sb : Bool
  addr : Bool
  txe : Bool
  btf : Bool
  sbAgain : Bool
  addrAgain : Bool

/-- The first half of `stm32_i2c_dma_read_regs`: the register is addressed, then
the device for reading. -/
def addressForRead (devAddr reg : BitVec 8) (ans : BusAnswers) (r : I2cRegs) :
    HalStatus × I2cRegs :=
  if ans.idle = false then (.errIo, r)
  else
    let r := { r with cr1 := r.cr1 ||| i2cCr1Start }
    if ans.sb = false then (.errTimeout, r)
    else
      let r := { r with dr := (devAddr.setWidth 32 <<< 1) &&& ~~~1 }
      if ans.addr = false then (.errTimeout, r)
      else if ans.txe = false then (.errTimeout, r)
      else
        let r := { r with dr := reg.setWidth 32 }
        if ans.btf = false then (.errTimeout, r)
        else
          let r := { r with cr1 := r.cr1 ||| i2cCr1Start }
          if ans.sbAgain = false then (.errTimeout, r)
          else
            let r := { r with dr := (devAddr.setWidth 32 <<< 1) ||| 1 }
            if ans.addrAgain = false then (.errTimeout, r) else (.ok, r)

/-- The controller acknowledges all bytes but the last, and asks the DMA for each. -/
def armRegs (r : I2cRegs) : I2cRegs :=
  { r with cr1 := r.cr1 ||| i2cCr1Ack, cr2 := r.cr2 ||| i2cCr2Last ||| i2cCr2Dmaen }

/-- Only two streams of DMA1 have a handler attached. -/
def claimStream (cfg : DmaConfig) (cbs : StreamCbs StreamOwner) :
    HalStatus × StreamCbs StreamOwner :=
  if cfg.controller = .dma1 ∧ cfg.stream = 0 then halDmaAttachCallback .dma1 0 .i2c cbs
  else if cfg.controller = .dma1 ∧ cfg.stream = 5 then halDmaAttachCallback .dma1 5 .i2c cbs
  else (.ok, cbs)

/-- `stm32_i2c_dma_read_regs` -/
def stm32I2cDmaReadRegs (bus : I2cBus) (devAddr reg : BitVec 8) (cfg : DmaConfig)
    (callback : Option Nat) (ans : BusAnswers) (st : I2cDma) : HalStatus × I2cDma :=
  match addressForRead devAddr reg ans (st.i2c bus) with
  | (.ok, r) =>
    let st := (st.modifyBus bus fun _ => armRegs r)
    let st := { st with rxCallback := callback, active := cfg, dma := halDmaInit cfg st.dma }
    match claimStream cfg st.streamCb with
    | (.ok, cbs) => (.ok, { st with streamCb := cbs, dma := halDmaStart cfg st.dma })
    | (_, _) => (.errBusy, st)
  | (status, r) => (status, st.modifyBus bus fun _ => r)

/-- The descriptor of `hal_i2c_read_regs_dma`. -/
def rxConfig (b : DmaBinding) (buffer : BitVec 32) (length : BitVec 16) : DmaConfig where
  controller := b.controller
  stream := b.stream
  channel := b.channel
  direction := .p2m
  srcAddr := b.periphAddr
  dstAddr := buffer
  dataCount := length
  srcInc := false
  dstInc := true
  dataWidth := .width8
  priority := .high

def halI2cReadRegsDma (bus : I2cBus) (devAddr reg : BitVec 8) (buffer : BitVec 32)
    (length : BitVec 16) (callback : Option Nat) (ans : BusAnswers) (st : I2cDma) :
    HalStatus × I2cDma :=
  if buffer = 0 ∨ length = 0 then (.errInvalidArg, st)
  else
    stm32I2cDmaReadRegs bus devAddr reg
      (rxConfig (halI2cDmaGetBinding bus false st) buffer length) callback ans st

/-! ## Completion -/

/-- `_i2c_dma_irq_handler`, with the callbacks that it runs. -/
def i2cDmaIrqHandler (st : I2cDma) : I2cDma × List Nat :=
  if halDmaTransferComplete st.active st.dma then
    let st := { st with dma := halDmaClearFlags st.active st.dma }
    (st.modifyBus .i2c1 fun r =>
      { r with
        cr2 := r.cr2 &&& ~~~i2cCr2Dmaen &&& ~~~i2cCr2Last
        cr1 := r.cr1 ||| i2cCr1Ack ||| i2cCr1Stop },
      st.rxCallback.toList)
  else (st, [])

/-- A stream ends its transfer and raises its flag. -/
def raiseComplete (c : DmaController) (i : Nat) (d : Controllers) : Controllers :=
  (completeStream c i d).modify c fun regs =>
    if i < 4 then { regs with lisr := regs.lisr ||| dmaIsrTcif (BitVec.ofNat 8 i) }
    else { regs with hisr := regs.hisr ||| dmaIsrTcif (BitVec.ofNat 8 i) }

/-- `DMAx_Streamy_IRQHandler`; the line of a stream without a callback is off. -/
def streamIrqHandler (c : DmaController) (i : Nat) (st : I2cDma) : I2cDma × List Nat :=
  match st.streamCb c i with
  | none => (st, [])
  | some .i2c =>
    let result := i2cDmaIrqHandler st
    ({ result.1 with dma := clearFlags c (BitVec.ofNat 8 i) result.1.dma }, result.2)
  | some (.other _) => ({ st with dma := clearFlags c (BitVec.ofNat 8 i) st.dma }, [])

/-! ## Runs -/

/-- A read that was started. -/
structure I2cRead where
  bus : I2cBus
  callback : Option Nat

inductive I2cOp
  | setBinding (bus : I2cBus) (tx : Bool) (binding : Option DmaBinding)
  | readRegs (bus : I2cBus) (devAddr reg : BitVec 8) (buffer : BitVec 32) (length : BitVec 16)
      (callback : Option Nat) (ans : BusAnswers)
  /-- The transfer of a stream completes. -/
  | complete (c : DmaController) (i : Nat)

/-- The driver, and for every stream the read that it carries. -/
structure I2cRun where
  drv : I2cDma
  reading : DmaController → Nat → Option I2cRead

/-- A run starts with any owners of the streams and any registers, no bus
being armed or stopping. -/
def I2cRun.start (owners : DmaController → Nat → Option Nat) (i2c : I2cBus → I2cRegs) : I2cRun where
  drv := {
    streamCb := fun c i => (owners c i).map .other
    i2c := fun bus =>
      { i2c bus with
        cr1 := (i2c bus).cr1 &&& ~~~(i2cCr1Start ||| i2cCr1Stop)
        cr2 := (i2c bus).cr2 &&& ~~~(i2cCr2Dmaen ||| i2cCr2Last) }
    active := rxConfig (stm32I2cDmaDefaultBinding .i2c1 false) 0 0 }
  reading := fun _ _ => none

/-- The controllers clear `START` and `STOP` once these are on the bus. -/
def settleBuses (st : I2cDma) : I2cDma :=
  { st with i2c := fun bus =>
    { st.i2c bus with cr1 := (st.i2c bus).cr1 &&& ~~~(i2cCr1Start ||| i2cCr1Stop) } }

/-- The call gets as far as the DMA. -/
def ReachesDma (buffer : BitVec 32) (length : BitVec 16) (ans : BusAnswers) : Prop :=
  buffer ≠ 0 ∧ length ≠ 0 ∧ ans.idle ∧ ans.sb ∧ ans.addr ∧ ans.txe ∧ ans.btf ∧ ans.sbAgain ∧
    ans.addrAgain

instance (buffer : BitVec 32) (length : BitVec 16) (ans : BusAnswers) :
    Decidable (ReachesDma buffer length ans) :=
  inferInstanceAs (Decidable (_ ∧ _ ∧ _ ∧ _ ∧ _ ∧ _ ∧ _ ∧ _ ∧ _))

/-- The reads under way after a call: programming a stream ends what it carried. -/
def readingAfter (bus : I2cBus) (buffer : BitVec 32) (length : BitVec 16) (callback : Option Nat)
    (ans : BusAnswers) (status : HalStatus) (rs : I2cRun) :
    DmaController → Nat → Option I2cRead :=
  let b := halI2cDmaGetBinding bus false rs.drv
  if ReachesDma buffer length ans then fun c i =>
    if c = b.controller ∧ i = streamIdx b.stream then
      if status = .ok then some ⟨bus, callback⟩ else none
    else rs.reading c i
  else rs.reading

/-- The interrupt of a stream that carries a read. -/
def completion (c : DmaController) (i : Nat) (rs : I2cRun) : I2cDma × List Nat :=
  streamIrqHandler c i { rs.drv with dma := raiseComplete c i rs.drv.dma }

def i2cStep (rs : I2cRun) : I2cOp → I2cRun
  | .setBinding bus tx binding => { rs with drv := (halI2cDmaSetBinding bus tx binding rs.drv).2 }
  | .readRegs bus devAddr reg buffer length callback ans =>
    let result := halI2cReadRegsDma bus devAddr reg buffer length callback ans rs.drv
    { drv := settleBuses result.2
      reading := readingAfter bus buffer length callback ans result.1 rs }
  | .complete c i =>
    if (rs.reading c i).isSome then
      { drv := settleBuses (completion c i rs).1
        reading := fun k j => if k = c ∧ j = i then none else rs.reading k j }
    else rs

/-- Neither `DMAEN` nor `LAST`. -/
def DmaOff (r : I2cRegs) : Prop := r.cr2 &&& (i2cCr2Dmaen ||| i2cCr2Last) = 0

/-- A read that ends is stopped on its own bus, and calls back once. -/
structure EndsRead (r : I2cRead) (st : I2cDma) (out : I2cDma × List Nat) : Prop where
  dmaOff : DmaOff (out.1.i2c r.bus)
  stop : (out.1.i2c r.bus).cr1 &&& i2cCr1Stop ≠ 0
  others : ∀ bus, bus ≠ r.bus → out.1.i2c bus = st.i2c bus
  callback : out.2 = r.callback.toList

/-- What an event owes to the bus that it is about. -/
def FinishesOnItsBus (rs : I2cRun) : I2cOp → Prop
  | .setBinding _ _ _ => True
  | .readRegs bus devAddr reg buffer length callback ans =>
    let result := halI2cReadRegsDma bus devAddr reg buffer length callback ans rs.drv
    result.1 ≠ .ok → DmaOff (result.2.i2c bus)
  | .complete c i => ∀ r, rs.reading c i = some r → EndsRead r rs.drv (completion c i rs)

/-- The stream is one without a handler, or its slot is free or the driver's. -/
def SlotFree (c : DmaController) (stream : BitVec 8) (cbs : StreamCbs StreamOwner) : Prop :=
  c = .dma1 → stream = 0 ∨ stream = 5 →
    cbs .dma1 stream.toNat = none ∨ cbs .dma1 stream.toNat = some .i2c

/-- A call that gets to the DMA finds its stream free, one that does not finds
its bus at rest; a read that ends is one of I2C1, on a stream that is wired,
and the globals are still its own. -/
def OnlyFirstBus (rs : I2cRun) : I2cOp → Prop
  | .setBinding _ _ _ => True
  | .readRegs bus _ _ buffer length _ ans =>
    if ReachesDma buffer length ans then
      let b := halI2cDmaGetBinding bus false rs.drv
      SlotFree b.controller b.stream rs.drv.streamCb
    else DmaOff (rs.drv.i2c bus)
  | .complete c i => ∀ r, rs.reading c i = some r →
    r.bus = .i2c1 ∧ rs.drv.streamCb c i = some .i2c ∧
      halDmaTransferComplete rs.drv.active (raiseComplete c i rs.drv.dma) = true ∧
      rs.drv.rxCallback = r.callback

/-! ## The ways in which a call ends -/

section Outcomes

variable (st : I2cDma) (bus : I2cBus) (devAddr reg : BitVec 8) {buffer : BitVec 32}
  {length : BitVec 16} (callback : Option Nat) {ans : BusAnswers}

theorem addressForRead_cr2 (ans : BusAnswers) (r : I2cRegs) : (addressForRead devAddr reg ans r).2.cr2 = r.cr2 := by
  unfold addressForRead
  repeat' split
  all_goals rfl

theorem addressForRead_ok_iff (r : I2cRegs) :
    (addressForRead devAddr reg ans r).1 = .ok ↔
      ans.idle ∧ ans.sb ∧ ans.addr ∧ ans.txe ∧ ans.btf ∧ ans.sbAgain ∧ ans.addrAgain := by
  unfold addressForRead
  repeat' split
  all_goals simp_all

theorem halDmaAttachCallback_ok_iff {c : DmaController} {stream : BitVec 8} {cb : StreamOwner}
    {cbs : StreamCbs StreamOwner} (hstream : stream < 8) :
    (halDmaAttachCallback c stream cb cbs).1 = .ok ↔
      cbs c stream.toNat = none ∨ cbs c stream.toNat = some cb := by
  rw [halDmaAttachCallback, if_neg (BitVec.not_le.mpr hstream)]
  split
  · rename_i h
    simp [h.1, h.2]
  · rename_i h
    refine iff_of_true rfl ?_
    cases hslot : cbs c stream.toNat with
    | none => exact .inl rfl
    | some owner =>
      simp only [hslot, ne_eq, reduceCtorEq, not_false_eq_true, true_and, Decidable.not_not] at h
      exact .inr h

/-- The driver's claim on a stream. -/
theorem claimStream_ok_iff (cfg : DmaConfig) (cbs : StreamCbs StreamOwner) :
    (claimStream cfg cbs).1 = .ok ↔ SlotFree cfg.controller cfg.stream cbs := by
  unfold claimStream SlotFree
  by_cases hc : cfg.controller = .dma1
  · by_cases h0 : cfg.stream = 0
    · rw [if_pos ⟨hc, h0⟩, halDmaAttachCallback_ok_iff (by decide), h0]
      simp [hc]
    · rw [if_neg (fun h => h0 h.2)]
      by_cases h5 : cfg.stream = 5
      · rw [if_pos ⟨hc, h5⟩, halDmaAttachCallback_ok_iff (by decide), h5]
        simp [hc]
      · rw [if_neg (fun h => h5 h.2)]
        exact iff_of_true rfl fun _ h => absurd h (not_or.mpr ⟨h0, h5⟩)
  · rw [if_neg (fun h => hc h.1), if_neg (fun h => hc h.1)]
    exact iff_of_true rfl fun h => absurd h hc

/-- A call that gets to the DMA. -/
theorem readRegs_armed (h : ReachesDma buffer length ans) :
    ∃ st', st'.i2c bus = armRegs (addressForRead devAddr reg ans (st.i2c bus)).2 ∧
      halI2cReadRegsDma bus devAddr reg buffer length callback ans st =
        (if (claimStream (rxConfig (halI2cDmaGetBinding bus false st) buffer length)
          st.streamCb).1 = .ok then .ok else .errBusy, st') := by
  obtain ⟨hbuffer, hlength, hans⟩ := h
  rw [halI2cReadRegsDma, if_neg (not_or.mpr ⟨hbuffer, hlength⟩), stm32I2cDmaReadRegs]
  have hok := (addressForRead_ok_iff devAddr reg (st.i2c bus)).mpr hans
  generalize addressForRead devAddr reg ans (st.i2c bus) = result at hok ⊢
  obtain ⟨status, r⟩ := result
  subst hok
  simp only [I2cDma.modifyBus]
  generalize claimStream (rxConfig (halI2cDmaGetBinding bus false st) buffer length) st.streamCb =
    claim
  obtain ⟨claimed, cbs⟩ := claim
  cases claimed with
  | ok => exact ⟨_, if_pos rfl, rfl⟩
  | _ => exact ⟨_, if_pos rfl, rfl⟩

/-- A call that gives up before that. -/
theorem readRegs_refused (h : ¬ ReachesDma buffer length ans) :
    (halI2cReadRegsDma bus devAddr reg buffer length callback ans st).1 ≠ .ok ∧
    ((halI2cReadRegsDma bus devAddr reg buffer length callback ans st).2.i2c bus).cr2 =
      (st.i2c bus).cr2 := by
  rw [halI2cReadRegsDma]
  by_cases hargs : buffer = 0 ∨ length = 0
  · rw [if_pos hargs]
    exact ⟨nofun, rfl⟩
  · rw [if_neg hargs, stm32I2cDmaReadRegs]
    have hstatus : (addressForRead devAddr reg ans (st.i2c bus)).1 ≠ .ok := fun hok =>
      h ⟨(not_or.mp hargs).1, (not_or.mp hargs).2, (addressForRead_ok_iff _ _ _).mp hok⟩
    have hcr2 := addressForRead_cr2 devAddr reg ans (st.i2c bus)
    generalize addressForRead devAddr reg ans (st.i2c bus) = result at hstatus hcr2 ⊢
    obtain ⟨status, r⟩ := result
    cases status with
    | ok => exact absurd rfl hstatus
    | _ => exact ⟨nofun, (congrArg I2cRegs.cr2 (if_pos rfl)).trans hcr2⟩

end Outcomes

/-! ## Bits of `CR1` and `CR2` -/

theorem not_dmaOff_armRegs (r : I2cRegs) : ¬ DmaOff (armRegs r) := by
  intro h
  have hbit := congrArg (BitVec.getLsbD · 11) h
  simp [armRegs, i2cCr2Last, i2cCr2Dmaen] at hbit

theorem dmaOff_disarmed (cr1 cr2 dr : BitVec 32) :
    DmaOff { cr1, cr2 := cr2 &&& ~~~i2cCr2Dmaen &&& ~~~i2cCr2Last, dr } := by
  show (cr2 &&& ~~~i2cCr2Dmaen &&& ~~~i2cCr2Last) &&& (i2cCr2Dmaen ||| i2cCr2Last) = 0
  rw [BitVec.and_assoc, BitVec.and_assoc,
    show ~~~i2cCr2Dmaen &&& (~~~i2cCr2Last &&& (i2cCr2Dmaen ||| i2cCr2Last)) = 0 by decide]
  exact BitVec.and_zero

theorem stop_requested (cr1 : BitVec 32) : (cr1 ||| i2cCr1Stop) &&& i2cCr1Stop ≠ 0 := by
  intro h
  have hbit := congrArg (BitVec.getLsbD · 9) h
  simp [i2cCr1Stop] at hbit

/-- No bus has a `STOP` pending. -/
def Settled (rs : I2cRun) : Prop := ∀ bus, (rs.drv.i2c bus).cr1 &&& i2cCr1Stop = 0

theorem stop_settled (cr1 : BitVec 32) :
    (cr1 &&& ~~~(i2cCr1Start ||| i2cCr1Stop)) &&& i2cCr1Stop = 0 := by
  rw [BitVec.and_assoc, show ~~~(i2cCr1Start ||| i2cCr1Stop) &&& i2cCr1Stop = 0 by decide]
  exact BitVec.and_zero

theorem settled_start (owners : DmaController → Nat → Option Nat) (i2c : I2cBus → I2cRegs) :
    Settled (.start owners i2c) := fun _ => stop_settled _

theorem Settled.step {rs : I2cRun} (h : Settled rs) (op : I2cOp) : Settled (i2cStep rs op) := by
  cases op with
  | setBinding bus tx binding => exact h
  | readRegs bus devAddr reg buffer length callback ans => exact fun _ => stop_settled _
  | complete c i =>
    simp only [i2cStep]
    split
    · exact fun _ => stop_settled _
    · exact h

/-! ## What an event owes -/

theorem readRegs_finishes_iff (rs : I2cRun) (bus : I2cBus) (devAddr reg : BitVec 8)
    (buffer : BitVec 32) (length : BitVec 16) (callback : Option Nat) (ans : BusAnswers) :
    FinishesOnItsBus rs (.readRegs bus devAddr reg buffer length callback ans) ↔
      OnlyFirstBus rs (.readRegs bus devAddr reg buffer length callback ans) := by
  simp only [FinishesOnItsBus, OnlyFirstBus]
  by_cases hreach : ReachesDma buffer length ans
  · obtain ⟨st', hregs, hcall⟩ := readRegs_armed rs.drv bus devAddr reg callback hreach
    rw [if_pos hreach, hcall]
    have hclaim := claimStream_ok_iff
      (rxConfig (halI2cDmaGetBinding bus false rs.drv) buffer length) rs.drv.streamCb
    split
    · rename_i hok
      exact iff_of_true (fun h => absurd rfl h) (hclaim.mp hok)
    · rename_i hbusy
      refine iff_of_false (fun h => ?_) (fun hfree => hbusy (hclaim.mpr hfree))
      exact not_dmaOff_armRegs _ (hregs ▸ h nofun)
  · obtain ⟨hstatus, hcr2⟩ := readRegs_refused rs.drv bus devAddr reg callback hreach
    rw [if_neg hreach, DmaOff, hcr2]
    exact ⟨fun h => h hstatus, fun h _ => h⟩

theorem optionToList_inj {α : Type} {o o' : Option α} (h : o.toList = o'.toList) : o = o' := by
  cases o <;> cases o' <;> simp_all

/-- A handler that does not run leaves the bus of a read as it was. -/
theorem not_endsRead_of_i2c {rs : I2cRun} (h : Settled rs) {r : I2cRead} {out : I2cDma × List Nat}
    (hi2c : out.1.i2c = rs.drv.i2c) : ¬ EndsRead r rs.drv out := fun hends =>
  hends.stop (hi2c ▸ h r.bus)

/-- **A stream that completes.**  The handler ends the read of I2C1 that was
started last, whatever stream raised the interrupt. -/
theorem completion_endsRead_iff {rs : I2cRun} (h : Settled rs) (c : DmaController) (i : Nat)
    (r : I2cRead) :
    EndsRead r rs.drv (completion c i rs) ↔
      r.bus = .i2c1 ∧ rs.drv.streamCb c i = some .i2c ∧
        halDmaTransferComplete rs.drv.active (raiseComplete c i rs.drv.dma) = true ∧
        rs.drv.rxCallback = r.callback := by
  cases hslot : rs.drv.streamCb c i with
  | none =>
    refine iff_of_false (not_endsRead_of_i2c h ?_) (fun hcond => nomatch hcond.2.1)
    simp only [completion, streamIrqHandler, hslot]
  | some owner =>
    cases owner with
    | other id =>
      refine iff_of_false (not_endsRead_of_i2c h ?_) (fun hcond => nomatch hcond.2.1)
      simp only [completion, streamIrqHandler, hslot]
    | i2c =>
      simp only [completion, streamIrqHandler, hslot, i2cDmaIrqHandler]
      by_cases htc : halDmaTransferComplete rs.drv.active (raiseComplete c i rs.drv.dma) = true
      · rw [if_pos htc]
        constructor
        · intro hends
          refine ⟨Decidable.byContradiction fun hbus => ?_, trivial, htc, ?_⟩
          · -- the registers of I2C1 are touched for a read of another bus
            have hsame := congrArg I2cRegs.cr1 (hends.others .i2c1 (Ne.symm hbus))
            exact stop_requested _ (hsame ▸ h .i2c1)
          · exact optionToList_inj hends.callback
        · rintro ⟨hbus, -, -, hcallback⟩
          obtain ⟨bus, callback⟩ := r
          obtain rfl : bus = .i2c1 := hbus
          exact ⟨dmaOff_disarmed _ _ _, stop_requested _, fun _ hb => if_neg hb,
            congrArg Option.toList hcallback⟩
      · rw [if_neg htc]
        exact iff_of_false (not_endsRead_of_i2c h rfl) (fun hcond => htc hcond.2.2.1)

theorem finishesOnItsBus_iff {rs : I2cRun} (h : Settled rs) (op : I2cOp) :
    FinishesOnItsBus rs op ↔ OnlyFirstBus rs op := by
  cases op with
  | setBinding bus tx binding => exact Iff.rfl
  | readRegs bus devAddr reg buffer length callback ans => exact readRegs_finishes_iff ..
  | complete c i => exact forall₂_congr fun r _ => completion_endsRead_iff h c i r

/-- **Every read of a run finishes on the bus that started it exactly when only
reads of I2C1 complete, each on a stream that has the handler and before a later
read takes its globals, and no call is refused a stream or meets an armed bus.** -/
theorem i2c_read_finishes_iff (owners : DmaController → Nat → Option Nat)
    (i2c : I2cBus → I2cRegs) (ops : List I2cOp) :
    Each i2cStep FinishesOnItsBus (.start owners i2c) ops ↔
      Each i2cStep OnlyFirstBus (.start owners i2c) ops :=
  Steps.each_congr (fun _ op h => finishesOnItsBus_iff h op) (fun _ op h => h.step op) ops
    (settled_start owners i2c)

/-! ## I2C2 -/

/-- Two bytes from register 0x10 of device 0x50 on I2C2, over its default stream. -/
def readSecondBus : List I2cOp :=
  [.readRegs .i2c2 0x50 0x10 0x20000100 2 (some 7) ⟨true, true, true, true, true, true, true⟩,
    .complete .dma1 2]

/-- Nothing is attached to stream 2: the bus stays armed, and no callback runs. -/
theorem second_bus_never_finishes :
    let rs := I2cRun.start (fun _ _ => none) (fun _ => {})
    ((run i2cStep rs readSecondBus).drv.i2c .i2c2).cr2 = i2cCr2Last ||| i2cCr2Dmaen ∧
    (completion .dma1 2 (run i2cStep rs (readSecondBus.take 1))).2 = [] ∧
    ¬ Each i2cStep FinishesOnItsBus rs readSecondBus := by
  refine ⟨by decide, by decide, fun h => ?_⟩
  obtain ⟨-, hcomplete, -⟩ := h
  have hends := hcomplete ⟨.i2c2, some 7⟩ rfl
  exact absurd hends.callback (by decide)

end NavHAL.Dma
