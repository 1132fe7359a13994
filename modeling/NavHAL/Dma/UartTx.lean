import NavHAL.Dma.Stream
import NavHAL.Lib.Steps

/-!
# UART transmission by DMA (`hal_uart_dma.c`, `uart.c`)

`hal_uart_write_dma` programs the stream on the first write of a UART only
(`s_tx_armed`); later writes set the address and the count of whatever stream
the UART is bound to then.  The stream that a write starts is wired to its UART
exactly when it was last programmed for the same channel and peripheral
(`uart_tx_wired_iff`).
-/

namespace NavHAL.Dma

open BitField
open Steps (run Each)

/-- The TX half of the statics, and the registers that a write touches. -/
structure UartDma where
  dma : Controllers := {}
  /-- `s_tx_armed` -/
  txArmed : Nat → Bool := fun _ => false
  /-- `s_override`, where `s_has_override` is set. -/
  txOverride : Nat → Option DmaBinding := fun _ => none
  cr3 : Nat → BitVec 32 := fun _ => 0

/-! ## The vendor backend -/

/-- `_get_uart_dma_params`; none where the controller is NULL. -/
def getUartDmaParams (uart : Nat) (isTx : Bool) : Option DmaBinding :=
  if uart = 1 then
    some (if isTx then ⟨.dma2, 7, 4, 0x40011004, 70⟩ else ⟨.dma2, 2, 4, 0x40011004, 58⟩)
  else if uart = 2 then
    some (if isTx then ⟨.dma1, 6, 4, 0x40004404, 17⟩ else ⟨.dma1, 5, 4, 0x40004404, 16⟩)
  else if uart = 6 then
    some (if isTx then ⟨.dma2, 7, 5, 0x40011404, 70⟩ else ⟨.dma2, 1, 5, 0x40011404, 57⟩)
  else none

def stm32UartDmaBinding (uart : Nat) (tx : Bool) : Except HalStatus DmaBinding :=
  match getUartDmaParams uart tx with
  | some b => .ok b
  | none => .error .errInvalidArg

/-- `GET_USARTx_BASE` is not NULL. -/
def isUsart (uart : Nat) : Bool := uart == 1 || uart == 2 || uart == 6

/-- `stm32_uart_dma_set_request` for TX, on. -/
def stm32UartDmaSetRequest (uart : Nat) (st : UartDma) : HalStatus × UartDma :=
  if isUsart uart = false then (.errInvalidArg, st)
  else
    (.ok, { st with cr3 := fun k => if k = uart then st.cr3 k ||| 1#32 <<< 7 else st.cr3 k })

/-! ## The common layer -/

/-- `UART_SLOTS` -/
def uartSlots : Nat := 8

def halUartDmaGetBinding (uart : Nat) (st : UartDma) : Except HalStatus DmaBinding :=
  if uartSlots ≤ uart then .error .errInvalidArg
  else match st.txOverride uart with
    | some b => .ok b
    | none => stm32UartDmaBinding uart true

def halUartDmaSetBinding (uart : Nat) (binding : Option DmaBinding) (st : UartDma) :
    HalStatus × UartDma :=
  if uartSlots ≤ uart then (.errInvalidArg, st)
  else match binding with
    | none => (.ok, { st with txOverride := fun k => if k = uart then none else st.txOverride k })
    | some b =>
      match stm32UartDmaBinding uart true with
      | .error e => (e, st)
      | .ok _ =>
        (.ok, { st with txOverride := fun k => if k = uart then some b else st.txOverride k })

/-- The `hal_dma_config_t` of `_descriptor` for TX. -/
def txConfig (b : DmaBinding) (mem : BitVec 32) (count : BitVec 16) : DmaConfig where
  controller := b.controller
  stream := b.stream
  channel := b.channel
  direction := .m2p
  srcAddr := mem
  dstAddr := b.periphAddr
  dataCount := count
  srcInc := true
  dstInc := false
  dataWidth := .width8
  priority := .high

/-- `_descriptor` for TX -/
def descriptor (uart : Nat) (mem : BitVec 32) (count : BitVec 16) (st : UartDma) :
    Except HalStatus DmaConfig :=
  match halUartDmaGetBinding uart st with
  | .error e => .error e
  | .ok b => .ok (txConfig b mem count)

/-- The stream of `hal_uart_write_dma`: programmed at first, then re-pointed. -/
def prepareStream (uart : Nat) (cfg : DmaConfig) (data : BitVec 32) (length : BitVec 16)
    (st : UartDma) : HalStatus × UartDma :=
  if st.txArmed uart = false then
    (.ok, { st with
      dma := halDmaInit cfg st.dma
      txArmed := fun k => if k = uart then true else st.txArmed k })
  else
    let set := halDmaSetMemory cfg data length st.dma
    (set.1, { st with dma := set.2 })

/-- `hal_uart_write_dma`, with the configuration that it hands to
`hal_dma_start`; `navhal_dma_tx_prepare` does nothing on the Cortex-M4, and the
interrupt line of the stream is left out. -/
def halUartWriteDma (uart : Nat) (data : BitVec 32) (length : BitVec 16) (st : UartDma) :
    HalStatus × UartDma × Option DmaConfig :=
  if data = 0 ∨ length = 0 ∨ uartSlots ≤ uart then (.errInvalidArg, st, none)
  else match descriptor uart data length st with
    | .error e => (e, st, none)
    | .ok cfg =>
      match stm32UartDmaSetRequest uart st with
      | (.ok, st) =>
        match prepareStream uart cfg data length st with
        | (.ok, st) =>
          (.ok, { st with dma := halDmaStart cfg (halDmaClearFlags cfg st.dma) }, some cfg)
        | (e, st) => (e, st, none)
      | (e, st) => (e, st, none)

/-! ## Runs -/

inductive TxOp
  | write (uart : Nat) (data : BitVec 32) (length : BitVec 16)
  | bind (uart : Nat) (binding : Option DmaBinding)
  /-- The transfer of a stream completes. -/
  | complete (c : DmaController) (i : Nat)

/-- The driver, and for every stream the binding under which it was last programmed. -/
structure TxRun where
  uart : UartDma
  programmed : DmaController → Nat → Option DmaBinding

def TxRun.atReset : TxRun where
  uart := {}
  programmed := fun _ _ => none

/-- The first write of a UART programs the stream that it is bound to. -/
def programmedBy (uart : Nat) (started : Option DmaConfig) (rs : TxRun) :
    DmaController → Nat → Option DmaBinding :=
  match started, halUartDmaGetBinding uart rs.uart with
  | some cfg, .ok b =>
    if rs.uart.txArmed uart = false then
      fun c i => if c = cfg.controller ∧ i = streamIdx cfg.stream then some b else rs.programmed c i
    else rs.programmed
  | _, _ => rs.programmed

def txStep (rs : TxRun) : TxOp → TxRun
  | .write uart data length =>
    let result := halUartWriteDma uart data length rs.uart
    { uart := result.2.1, programmed := programmedBy uart result.2.2 rs }
  | .bind uart binding => { rs with uart := (halUartDmaSetBinding uart binding rs.uart).2 }
  | .complete c i => { rs with uart := { rs.uart with dma := completeStream c i rs.uart.dma } }

/-- A stream that moves bytes from memory to the peripheral of a binding, on its channel. -/
structure Wired (b : DmaBinding) (s : DmaStream) : Prop where
  par : s.par = b.periphAddr
  chsel : (field 25 3 s.cr).toNat = b.channel.toNat
  dir : field 6 2 s.cr = DmaDirection.m2p.code
  minc : field 10 1 s.cr = 1
  msize : field 13 2 s.cr = DmaDataWidth.width8.code
  psize : field 11 2 s.cr = DmaDataWidth.width8.code

/-- The transfer that a write starts is the one asked for. -/
structure TransmitsOn (b : DmaBinding) (data : BitVec 32) (length : BitVec 16) (cfg : DmaConfig)
    (dma : Controllers) : Prop where
  controller : cfg.controller = b.controller
  stream : streamIdx cfg.stream = b.stream.toNat
  wired : Wired b ((dma.ctrl b.controller).stream b.stream.toNat)
  m0ar : ((dma.ctrl b.controller).stream b.stream.toNat).m0ar = data
  ndtr : ((dma.ctrl b.controller).stream b.stream.toNat).ndtr = length.setWidth 32

/-- A write that reaches `hal_dma_start` starts the stream of its UART's binding. -/
def TransmitsRight (rs : TxRun) : TxOp → Prop
  | .write uart data length =>
    ∀ cfg b, (halUartWriteDma uart data length rs.uart).2.2 = some cfg →
      halUartDmaGetBinding uart rs.uart = .ok b →
        TransmitsOn b data length cfg (halUartWriteDma uart data length rs.uart).2.1.dma
  | _ => True

/-- The stream of the binding was last programmed for its channel and its peripheral. -/
def ProgrammedAs (b : DmaBinding) (o : Option DmaBinding) : Prop :=
  ∃ p, o = some p ∧ (p.channel &&& 7) = b.channel ∧ p.periphAddr = b.periphAddr

/-- A UART's first write names a stream and a channel that there are; a later
one comes while the stream is still programmed for it. -/
def StillWired (rs : TxRun) : TxOp → Prop
  | .write uart data length =>
    data ≠ 0 → length ≠ 0 → isUsart uart = true → ∀ b, halUartDmaGetBinding uart rs.uart = .ok b →
      if rs.uart.txArmed uart = true then
        b.stream ≤ 7 → ProgrammedAs b (rs.programmed b.controller b.stream.toNat)
      else b.stream ≤ 7 ∧ b.channel ≤ 7
  | _ => True

/-! ## The ways in which a write ends -/

/-- The streams after a write that starts one. -/
def started (cfg : DmaConfig) (dma : Controllers) : Controllers :=
  halDmaStart cfg (halDmaClearFlags cfg dma)

inductive WriteOutcome (uart : Nat) (data : BitVec 32) (length : BitVec 16) (st : UartDma) :
    HalStatus × UartDma × Option DmaConfig → Prop
  | refused {status : HalStatus} {st' : UartDma} (hdma : st'.dma = st.dma)
      (hwhy : data = 0 ∨ length = 0 ∨ isUsart uart = false ∨
        (∀ b, halUartDmaGetBinding uart st = .ok b → st.txArmed uart = true ∧ ¬ b.stream ≤ 7)) :
      WriteOutcome uart data length st (status, st', none)
  | first {b : DmaBinding} {st' : UartDma} (hdata : data ≠ 0) (hlength : length ≠ 0)
      (huart : isUsart uart = true) (hbinding : halUartDmaGetBinding uart st = .ok b)
      (harmed : st.txArmed uart = false)
      (hdma : st'.dma =
        started (txConfig b data length) (halDmaInit (txConfig b data length) st.dma)) :
      WriteOutcome uart data length st (.ok, st', some (txConfig b data length))
  | again {b : DmaBinding} {st' : UartDma} (hdata : data ≠ 0) (hlength : length ≠ 0)
      (huart : isUsart uart = true) (hbinding : halUartDmaGetBinding uart st = .ok b)
      (harmed : st.txArmed uart = true) (hstream : b.stream ≤ 7)
      (hdma : st'.dma = started (txConfig b data length)
        (halDmaSetMemory (txConfig b data length) data length st.dma).2) :
      WriteOutcome uart data length st (.ok, st', some (txConfig b data length))

theorem isUsart_lt {uart : Nat} (h : isUsart uart = true) : ¬ uartSlots ≤ uart := by
  simp only [isUsart, Bool.or_eq_true, beq_iff_eq] at h
  show ¬ 8 ≤ uart
  omega

theorem write_outcome (uart : Nat) (data : BitVec 32) (length : BitVec 16) (st : UartDma) :
    WriteOutcome uart data length st (halUartWriteDma uart data length st) := by
  unfold halUartWriteDma descriptor
  by_cases hargs : data = 0 ∨ length = 0 ∨ uartSlots ≤ uart
  · rw [if_pos hargs]
    refine .refused rfl ?_
    rcases hargs with h | h | h
    · exact .inl h
    · exact .inr (.inl h)
    · refine .inr (.inr (.inl ?_))
      exact Bool.eq_false_iff.mpr fun huart => isUsart_lt huart h
  rw [if_neg hargs]
  obtain ⟨hdata, hlength, -⟩ := not_or.mp hargs |>.imp_right not_or.mp
  cases hbinding : halUartDmaGetBinding uart st with
  | error e => exact .refused rfl (.inr (.inr (.inr (by simp [hbinding]))))
  | ok b =>
    by_cases huart : isUsart uart = true
    · have hrequest : stm32UartDmaSetRequest uart st =
          (.ok, { st with cr3 := fun k => if k = uart then st.cr3 k ||| 1#32 <<< 7 else st.cr3 k }) :=
        if_neg (by simp [huart])
      simp only [hrequest, prepareStream]
      by_cases harmed : st.txArmed uart = true
      · rw [if_neg (by simp [harmed])]
        by_cases hstream : b.stream ≤ 7
        · have hset : halDmaSetMemory (txConfig b data length) data length st.dma = (.ok, _) :=
            halDmaSetMemory_ok hlength hstream
          rw [hset]
          exact .again hdata hlength huart hbinding harmed hstream rfl
        · rw [halDmaSetMemory_refused hlength hstream]
          refine .refused rfl (.inr (.inr (.inr fun b' hb' => ?_)))
          rw [hbinding] at hb'
          cases hb'
          exact ⟨harmed, hstream⟩
      · rw [if_pos (Bool.eq_false_iff.mpr harmed)]
        exact .first hdata hlength huart hbinding (Bool.eq_false_iff.mpr harmed) rfl
    · have hrequest : stm32UartDmaSetRequest uart st = (.errInvalidArg, st) :=
        if_pos (Bool.eq_false_iff.mpr huart)
      simp only [hrequest]
      exact .refused rfl (.inr (.inr (.inl (Bool.eq_false_iff.mpr huart))))

/-! ## What a stream is wired to -/

section Wiring

variable {b : DmaBinding} {data : BitVec 32} {length : BitVec 16} {dma : Controllers}
  {c : DmaController} {i : Nat}

/-- The stream that `hal_dma_start` enables. -/
theorem started_stream (cfg : DmaConfig) :
    ((started cfg dma).ctrl c).stream i =
      if c = cfg.controller ∧ i = streamIdx cfg.stream then
        { (dma.ctrl c).stream i with cr := ((dma.ctrl c).stream i).cr ||| dmaSxcrEn }
      else (dma.ctrl c).stream i := by
  rw [started, halDmaStart_stream, halDmaClearFlags, clearFlags_stream]

/-- `CR` up to the enable bit. -/
structure SameSetup (s s' : DmaStream) : Prop where
  par : s'.par = s.par
  chsel : field 25 3 s'.cr = field 25 3 s.cr
  dir : field 6 2 s'.cr = field 6 2 s.cr
  minc : field 10 1 s'.cr = field 10 1 s.cr
  msize : field 13 2 s'.cr = field 13 2 s.cr
  psize : field 11 2 s'.cr = field 11 2 s.cr

theorem SameSetup.refl (s : DmaStream) : SameSetup s s := ⟨rfl, rfl, rfl, rfl, rfl, rfl⟩

theorem SameSetup.trans {s₁ s₂ s₃ : DmaStream} (h : SameSetup s₁ s₂) (h' : SameSetup s₂ s₃) :
    SameSetup s₁ s₃ :=
  ⟨h'.par.trans h.par, h'.chsel.trans h.chsel, h'.dir.trans h.dir, h'.minc.trans h.minc,
    h'.msize.trans h.msize, h'.psize.trans h.psize⟩

theorem SameSetup.enable (s : DmaStream) : SameSetup s { s with cr := s.cr ||| dmaSxcrEn } :=
  ⟨rfl, field_enable _ (by decide), field_enable _ (by decide), field_enable _ (by decide),
    field_enable _ (by decide), field_enable _ (by decide)⟩

theorem SameSetup.disable (s : DmaStream) (m0ar ndtr : BitVec 32) :
    SameSetup s { s with cr := s.cr &&& ~~~dmaSxcrEn, m0ar := m0ar, ndtr := ndtr } :=
  ⟨rfl, field_disable _ (by decide) (by decide), field_disable _ (by decide) (by decide),
    field_disable _ (by decide) (by decide), field_disable _ (by decide) (by decide),
    field_disable _ (by decide) (by decide)⟩

/-- A stream programmed under a binding, or not since reset. -/
def SetUpAs (o : Option DmaBinding) (s : DmaStream) : Prop :=
  match o with
  | some p => Wired { p with channel := p.channel &&& 7 } s
  | none => field 6 2 s.cr = DmaDirection.p2m.code

theorem SetUpAs.same {o : Option DmaBinding} {s s' : DmaStream} (h : SetUpAs o s)
    (hsame : SameSetup s s') : SetUpAs o s' := by
  cases o with
  | none => exact hsame.dir.trans h
  | some p =>
    exact ⟨hsame.par.trans h.par, (congrArg BitVec.toNat hsame.chsel).trans h.chsel,
      hsame.dir.trans h.dir, hsame.minc.trans h.minc, hsame.msize.trans h.msize,
      hsame.psize.trans h.psize⟩

/-- A stream serves a binding exactly when it was programmed for it. -/
theorem SetUpAs.wired_iff {o : Option DmaBinding} {s : DmaStream} (h : SetUpAs o s) :
    Wired b s ↔ ProgrammedAs b o := by
  cases o with
  | none =>
    refine iff_of_false (fun hw => ?_) (fun ⟨p, hp, _⟩ => by cases hp)
    exact absurd (hw.dir.symm.trans h) (by decide)
  | some p =>
    constructor
    · intro hw
      exact ⟨p, rfl, BitVec.eq_of_toNat_eq (h.chsel.symm.trans hw.chsel), h.par.symm.trans hw.par⟩
    · rintro ⟨_, ⟨⟩, hchannel, hperiph⟩
      refine ⟨h.par.trans hperiph, h.chsel.trans ?_, h.dir, h.minc, h.msize, h.psize⟩
      rw [← hchannel]

/-- The stream that `hal_dma_init` programs for a transmission. -/
def txStream (b : DmaBinding) (data : BitVec 32) (length : BitVec 16) : DmaStream where
  par := b.periphAddr
  m0ar := data
  ndtr := length.setWidth 32
  cr := crValue (txConfig b data length)
  fcr := fcrValue (txConfig b data length)

theorem txInit_stream :
    ((halDmaInit (txConfig b data length) dma).ctrl c).stream i =
      if c = b.controller ∧ i = streamIdx b.stream then txStream b data length
      else (dma.ctrl c).stream i :=
  halDmaInit_stream (txConfig b data length) dma c i

theorem setUpAs_txStream : SetUpAs (some b) (txStream b data length) := by
  obtain ⟨hchsel, hdir, hminc, hmsize, hpsize⟩ := crValue_fields (txConfig b data length)
  refine ⟨rfl, ?_, hdir, hminc, hmsize, hpsize⟩
  show (field 25 3 (crValue (txConfig b data length))).toNat = (b.channel &&& 7).toNat
  rw [hchsel, BitVec.toNat_setWidth, BitVec.toNat_and, show (7 : BitVec 8).toNat = 2 ^ 3 - 1 from rfl,
    Nat.and_two_pow_sub_one_eq_mod]
  rfl

theorem txRepoint_stream (hlength : length ≠ 0) (hstream : b.stream ≤ 7) :
    (((halDmaSetMemory (txConfig b data length) data length dma).2.ctrl c).stream i) =
      if c = b.controller ∧ i = b.stream.toNat then
        { (dma.ctrl c).stream i with
          cr := ((dma.ctrl c).stream i).cr &&& ~~~dmaSxcrEn
          m0ar := data
          ndtr := length.setWidth 32 }
      else (dma.ctrl c).stream i :=
  halDmaSetMemory_stream c i hlength hstream

theorem sameSetup_started (cfg : DmaConfig) :
    SameSetup ((dma.ctrl c).stream i) (((started cfg dma).ctrl c).stream i) := by
  rw [started_stream]
  split
  · exact .enable _
  · exact .refl _

/-- After a first write the stream is set up for the binding, the others are as before. -/
theorem setUpAs_first {o : DmaController → Nat → Option DmaBinding}
    (h : ∀ c i, SetUpAs (o c i) ((dma.ctrl c).stream i)) (c : DmaController) (i : Nat) :
    SetUpAs (if c = b.controller ∧ i = streamIdx b.stream then some b else o c i)
      (((started (txConfig b data length) (halDmaInit (txConfig b data length) dma)).ctrl c).stream
        i) := by
  refine SetUpAs.same ?_ (sameSetup_started _)
  rw [txInit_stream]
  split
  · exact setUpAs_txStream
  · exact h c i

/-- A later write leaves every stream set up as it was. -/
theorem sameSetup_again (hlength : length ≠ 0) (hstream : b.stream ≤ 7) :
    SameSetup ((dma.ctrl c).stream i) (((started (txConfig b data length)
      (halDmaSetMemory (txConfig b data length) data length dma).2).ctrl c).stream i) := by
  refine SameSetup.trans ?_ (sameSetup_started _)
  rw [txRepoint_stream hlength hstream]
  split
  · exact .disable _ _ _
  · exact .refl _

theorem started_m0ar (cfg : DmaConfig) :
    (((started cfg dma).ctrl c).stream i).m0ar = ((dma.ctrl c).stream i).m0ar := by
  rw [started_stream]
  split
  · rfl
  · rfl

theorem started_ndtr (cfg : DmaConfig) :
    (((started cfg dma).ctrl c).stream i).ndtr = ((dma.ctrl c).stream i).ndtr := by
  rw [started_stream]
  split
  · rfl
  · rfl

theorem channel_masked_iff {channel : BitVec 8} : channel &&& 7 = channel ↔ channel ≤ 7 := by
  have hmask : (channel &&& 7).toNat = channel.toNat % 8 := by
    rw [BitVec.toNat_and, show (7 : BitVec 8).toNat = 2 ^ 3 - 1 from rfl,
      Nat.and_two_pow_sub_one_eq_mod]
  constructor
  · intro h
    rw [h] at hmask
    show channel.toNat ≤ 7
    omega
  · intro h
    have hle : channel.toNat ≤ 7 := h
    apply BitVec.eq_of_toNat_eq
    rw [hmask]
    omega

/-- The first write of a UART. -/
theorem first_transmits_iff :
    TransmitsOn b data length (txConfig b data length)
        (started (txConfig b data length) (halDmaInit (txConfig b data length) dma)) ↔
      b.stream ≤ 7 ∧ b.channel ≤ 7 := by
  constructor
  · intro h
    have hstream : streamIdx b.stream = b.stream.toNat := h.stream
    have hchannel : _ = b.channel.toNat := h.wired.chsel
    have hlt := streamIdx_lt b.stream
    have hfield := (field 25 3 (((started (txConfig b data length)
      (halDmaInit (txConfig b data length) dma)).ctrl b.controller).stream b.stream.toNat).cr).isLt
    constructor
    · show b.stream.toNat ≤ 7
      omega
    · show b.channel.toNat ≤ 7
      omega
  · rintro ⟨hstream, hchannel⟩
    have hidx := streamIdx_of_le hstream
    have hinit : ((halDmaInit (txConfig b data length) dma).ctrl b.controller).stream
        b.stream.toNat = txStream b data length := by
      rw [txInit_stream, if_pos ⟨rfl, hidx.symm⟩]
    have hsetup : SetUpAs (some b) (((started (txConfig b data length)
        (halDmaInit (txConfig b data length) dma)).ctrl b.controller).stream b.stream.toNat) := by
      refine SetUpAs.same ?_ (sameSetup_started _)
      rw [hinit]
      exact setUpAs_txStream
    refine ⟨rfl, hidx, hsetup.wired_iff.mpr ⟨b, rfl, channel_masked_iff.mpr hchannel, rfl⟩, ?_, ?_⟩
    · rw [started_m0ar, hinit]
      rfl
    · rw [started_ndtr, hinit]
      rfl

/-- A later write. -/
theorem again_transmits_iff {o : Option DmaBinding} (hlength : length ≠ 0) (hstream : b.stream ≤ 7)
    (h : SetUpAs o ((dma.ctrl b.controller).stream b.stream.toNat)) :
    TransmitsOn b data length (txConfig b data length) (started (txConfig b data length)
        (halDmaSetMemory (txConfig b data length) data length dma).2) ↔
      ProgrammedAs b o := by
  have hsetup : SetUpAs o (((started (txConfig b data length)
      (halDmaSetMemory (txConfig b data length) data length dma).2).ctrl b.controller).stream
        b.stream.toNat) :=
    h.same (sameSetup_again hlength hstream)
  constructor
  · exact fun hon => hsetup.wired_iff.mp hon.wired
  · intro hprogrammed
    refine ⟨rfl, streamIdx_of_le hstream, hsetup.wired_iff.mpr hprogrammed, ?_, ?_⟩
    · rw [started_m0ar, txRepoint_stream hlength hstream, if_pos ⟨rfl, rfl⟩]
    · rw [started_ndtr, txRepoint_stream hlength hstream, if_pos ⟨rfl, rfl⟩]

end Wiring

/-! ## Runs -/

/-- Every stream is set up as it was last programmed. -/
def SetupKnown (rs : TxRun) : Prop :=
  ∀ c i, SetUpAs (rs.programmed c i) ((rs.uart.dma.ctrl c).stream i)

theorem setupKnown_atReset : SetupKnown .atReset := fun _ _ => by
  show field 6 2 (0 : BitVec 32) = 0
  decide

theorem SetupKnown.step {rs : TxRun} (h : SetupKnown rs) (op : TxOp) :
    SetupKnown (txStep rs op) := by
  cases op with
  | write uart data length =>
    have houtcome := write_outcome uart data length rs.uart
    simp only [SetupKnown, txStep, programmedBy]
    generalize halUartWriteDma uart data length rs.uart = result at houtcome
    cases houtcome with
    | refused hdma hwhy =>
      simp only [hdma]
      exact h
    | first hdata hlength huart hbinding harmed hdma =>
      simp only [hbinding, if_pos harmed, hdma]
      exact setUpAs_first h
    | again hdata hlength huart hbinding harmed hstream hdma =>
      simp only [hbinding, hdma]
      rw [if_neg (by simp [harmed])]
      exact fun c i => (h c i).same (sameSetup_again hlength hstream)
  | bind uart binding =>
    have hdma : (halUartDmaSetBinding uart binding rs.uart).2.dma = rs.uart.dma := by
      unfold halUartDmaSetBinding
      repeat' split
      all_goals rfl
    simp only [SetupKnown, txStep, hdma]
    exact h
  | complete c i =>
    intro k j
    simp only [txStep, completeStream, modifyStream_stream]
    split
    · exact (h k j).same (.disable _ _ _)
    · exact h k j

/-- A write transmits right exactly when the stream is wired for it. -/
theorem transmitsRight_iff {rs : TxRun} (h : SetupKnown rs) (op : TxOp) :
    TransmitsRight rs op ↔ StillWired rs op := by
  cases op with
  | write uart data length =>
    have houtcome := write_outcome uart data length rs.uart
    simp only [TransmitsRight, StillWired]
    generalize halUartWriteDma uart data length rs.uart = result at houtcome
    cases houtcome with
    | refused hdma hwhy =>
      refine iff_of_true (fun _ _ hcfg => by cases hcfg) (fun hdata hlength huart b hb => ?_)
      rcases hwhy with hwhy | hwhy | hwhy | hwhy
      · exact absurd hwhy hdata
      · exact absurd hwhy hlength
      · rw [huart] at hwhy
        cases hwhy
      · rw [if_pos (hwhy b hb).1]
        exact fun hle => absurd hle (hwhy b hb).2
    | @first b st' hdata hlength huart hbinding harmed hdma =>
      have hiff : TransmitsOn b data length (txConfig b data length) st'.dma ↔
          b.stream ≤ 7 ∧ b.channel ≤ 7 := by
        rw [hdma]
        exact first_transmits_iff
      constructor
      · intro hright _ _ _ b' hb'
        rw [hbinding] at hb'
        cases hb'
        rw [if_neg (by simp [harmed])]
        exact hiff.mp (hright _ _ rfl hbinding)
      · intro hstill cfg b' hcfg hb'
        rw [hbinding] at hb'
        cases hb'
        cases hcfg
        have hthere := hstill hdata hlength huart b hbinding
        rw [if_neg (by simp [harmed])] at hthere
        exact hiff.mpr hthere
    | @again b st' hdata hlength huart hbinding harmed hstream hdma =>
      have hiff : TransmitsOn b data length (txConfig b data length) st'.dma ↔
          ProgrammedAs b (rs.programmed b.controller b.stream.toNat) := by
        rw [hdma]
        exact again_transmits_iff hlength hstream (h b.controller b.stream.toNat)
      constructor
      · intro hright _ _ _ b' hb'
        rw [hbinding] at hb'
        cases hb'
        rw [if_pos harmed]
        exact fun _ => hiff.mp (hright _ _ rfl hbinding)
      · intro hstill cfg b' hcfg hb'
        rw [hbinding] at hb'
        cases hb'
        cases hcfg
        have hprogrammed := hstill hdata hlength huart b hbinding
        rw [if_pos harmed] at hprogrammed
        exact hiff.mpr (hprogrammed hstream)
  | bind uart binding => exact Iff.rfl
  | complete c i => exact Iff.rfl

/-- **Every write of a run transmits on its UART exactly when every first write
names a stream and a channel that there are, and every later one comes while
its stream is still programmed for its channel and peripheral.** -/
theorem uart_tx_wired_iff (ops : List TxOp) :
    Each txStep TransmitsRight .atReset ops ↔ Each txStep StillWired .atReset ops :=
  Steps.each_congr (fun _ op h => transmitsRight_iff h op) (fun _ op h => h.step op) ops
    setupKnown_atReset

/-! ## USART1 and USART6 -/

/-- USART1 writes, then USART6, then USART1 again: both are bound to stream 7 of DMA2. -/
def shareStream : List TxOp :=
  [.write 1 0x20000100 4, .complete .dma2 7, .write 6 0x20000200 4, .complete .dma2 7,
    .write 1 0x20000100 4]

/-- The last write starts the stream with the data register and the channel of USART6. -/
theorem shared_stream_sends_on_usart6 :
    let stream := ((run txStep .atReset shareStream).uart.dma.ctrl .dma2).stream 7
    stream.par = 0x40011404 ∧ field 25 3 stream.cr = 5 ∧ stream.m0ar = 0x20000100 ∧
    ¬ Each txStep TransmitsRight .atReset shareStream := by
  refine ⟨by decide, by decide, by decide, fun h => ?_⟩
  obtain ⟨-, -, -, -, hlast, -⟩ := h
  have hon := hlast (txConfig ⟨.dma2, 7, 4, 0x40011004, 70⟩ 0x20000100 4) ⟨.dma2, 7, 4, 0x40011004, 70⟩
    rfl rfl
  exact absurd hon.wired.par (by decide)

end NavHAL.Dma
