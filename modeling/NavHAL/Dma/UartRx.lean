import NavHAL.Dma.UartTx
import NavHAL.Lib.RingWalk

/-!
# UART reception by DMA into a ring (`hal_uart_dma.c`)

The index of a ring is its length less what the stream that its UART is bound to has left.
A stream that shows 0, as it does between the last byte and the reload, and one that another
transfer runs on, take it out of the ring (`rx_index_in_ring_iff`).
-/

namespace NavHAL.Dma

open RingWalk
open Steps (Always Each)

/-- What a port adds: the streams of its UARTs, those with a request line, and the buffers
that its caches allow. -/
structure RxPort where
  binding : Nat → Except HalStatus DmaBinding
  hasRequest : Nat → Bool
  guard : BitVec 32 → BitVec 16 → Bool

/-- The RX half of the statics, and the registers that a ring needs. -/
structure UartRx where
  dma : Controllers := {}
  /-- `s_override`, where `s_has_override` is set. -/
  rxOverride : Nat → Option DmaBinding := fun _ => none
  /-- `s_rx_len` -/
  rxLen : Nat → BitVec 16 := fun _ => 0
  /-- `s_rx_buf` -/
  rxBuf : Nat → BitVec 32 := fun _ => 0
  cr3 : Nat → BitVec 32 := fun _ => 0

namespace RxPort

variable (port : RxPort)

/-- `hal_uart_dma_get_binding` -/
def getBinding (uart : Nat) (st : UartRx) : Except HalStatus DmaBinding :=
  if uartSlots ≤ uart then .error .errInvalidArg
  else match st.rxOverride uart with
    | some b => .ok b
    | none => port.binding uart

/-- `hal_uart_dma_set_binding` -/
def setBinding (uart : Nat) (binding : Option DmaBinding) (st : UartRx) : HalStatus × UartRx :=
  if uartSlots ≤ uart then (.errInvalidArg, st)
  else match binding with
    | none => (.ok, { st with rxOverride := fun k => if k = uart then none else st.rxOverride k })
    | some b =>
      match port.binding uart with
      | .error e => (e, st)
      | .ok _ =>
        (.ok, { st with rxOverride := fun k => if k = uart then some b else st.rxOverride k })

/-- The `hal_dma_config_t` of `_descriptor`. -/
def config (b : DmaBinding) (mem : BitVec 32) (count : BitVec 16) : DmaConfig where
  controller := b.controller
  stream := b.stream
  channel := b.channel
  direction := .p2m
  srcAddr := b.periphAddr
  dstAddr := mem
  dataCount := count
  srcInc := false
  dstInc := true
  dataWidth := .width8
  priority := .medium
  circular := true

/-- `_descriptor` -/
def descriptor (uart : Nat) (mem : BitVec 32) (count : BitVec 16) (st : UartRx) :
    Except HalStatus DmaConfig :=
  match port.getBinding uart st with
  | .error e => .error e
  | .ok b => .ok (config b mem count)

/-- `hal_uart_init_dma_rx` -/
def initDmaRx (uart : Nat) (buffer : BitVec 32) (length : BitVec 16) (st : UartRx) :
    HalStatus × UartRx :=
  if buffer = 0 ∨ length = 0 ∨ uartSlots ≤ uart then (.errInvalidArg, st)
  else if port.guard buffer length = false then (.errInvalidArg, st)
  else match port.descriptor uart buffer length st with
    | .error e => (e, st)
    | .ok cfg =>
      if port.hasRequest uart = false then (.errInvalidArg, st)
      else
        (.ok, { st with
          cr3 := fun k => if k = uart then st.cr3 k ||| 1#32 <<< 6 else st.cr3 k
          rxLen := fun k => if k = uart then length else st.rxLen k
          rxBuf := fun k => if k = uart then buffer else st.rxBuf k
          dma := halDmaStart cfg (halDmaInit cfg st.dma) })

end RxPort

def halDmaRemaining (cfg : DmaConfig) (d : Controllers) : Except HalStatus (BitVec 16) :=
  if 7 < cfg.stream then .error .errInvalidArg
  else .ok (((d.ctrl cfg.controller).stream cfg.stream.toNat).ndtr.setWidth 16)

/-- `hal_uart_dma_rx_index` -/
def RxPort.rxIndex (port : RxPort) (uart : Nat) (st : UartRx) : Except HalStatus (BitVec 16) :=
  if uartSlots ≤ uart then .error .errInvalidArg
  else if st.rxLen uart = 0 then .error .errInvalidArg
  else match port.descriptor uart 0 (st.rxLen uart) st with
    | .error e => .error e
    | .ok cfg =>
      match halDmaRemaining cfg st.dma with
      | .error e => .error e
      | .ok remaining => .ok (st.rxLen uart - remaining)

/-! ## Runs -/

inductive RxOp
  | init (uart : Nat) (buffer : BitVec 32) (length : BitVec 16)
  | bind (uart : Nat) (binding : Option DmaBinding)
  /-- A stream shows this count. -/
  | progress (c : DmaController) (i : Nat) (count : BitVec 16)

def rxRingStep (port : RxPort) (st : UartRx) : RxOp → UartRx
  | .init uart buffer length => (port.initDmaRx uart buffer length st).2
  | .bind uart binding => (port.setBinding uart binding st).2
  | .progress c i count =>
    { st with dma := st.dma.modifyStream c i fun s => { s with ndtr := count.setWidth 32 } }

/-- A position that the walker of the documentation can be given: from every tail it ends, and
with fewer than `len` bytes ahead of it, it meets each of them once, in order. -/
structure RingPosition (len idx : Nat) : Prop where
  below : idx < len
  ends : ∀ tail < len, ∃ fuel visited, walk len idx fuel tail = some visited
  bytes : ∀ (empty : Nat → UInt8) (received : List UInt8) (seen : Nat), received.length % len = idx →
    seen ≤ received.length → received.length - seen < len → ∃ fuel visited,
      walk len idx fuel (seen % len) = some visited ∧
        visited.map (storeFrom len 0 empty received) = received.drop seen

/-- Whatever index a UART reports is a position of its ring. -/
def IndexInRing (port : RxPort) (st : UartRx) : Prop :=
  ∀ uart idx, port.rxIndex uart st = .ok idx → RingPosition (st.rxLen uart).toNat idx.toNat

/-- A count that a ring of this length can have left. -/
def CountFor (len count : BitVec 16) : Prop := 0 < count ∧ count ≤ len

def countOf (b : DmaBinding) (d : Controllers) : BitVec 16 :=
  ((d.ctrl b.controller).stream b.stream.toNat).ndtr.setWidth 16

/-- The UART has a ring, and its stream is this one. -/
structure RingOn (port : RxPort) (st : UartRx) (uart : Nat) (b : DmaBinding) : Prop where
  ring : st.rxLen uart ≠ 0
  binding : port.getBinding uart st = .ok b
  stream : b.stream ≤ 7

/-- `hal_uart_init_dma_rx` takes the buffer, and programs the stream of this binding. -/
structure RingStarts (port : RxPort) (st : UartRx) (uart : Nat) (buffer : BitVec 32)
    (length : BitVec 16) (b : DmaBinding) : Prop where
  buffer_ne : buffer ≠ 0
  length_ne : length ≠ 0
  guard : port.guard buffer length = true
  binding : port.getBinding uart st = .ok b
  request : port.hasRequest uart = true

/-- A stream with a ring does not show 0 nor more than the length; a UART with a ring is bound
to a stream that shows such a count; a ring that starts is not longer than another on
its stream. -/
def KeepsCounts (port : RxPort) (st : UartRx) : RxOp → Prop
  | .progress c i count => ∀ uart b, RingOn port st uart b → b.controller = c → b.stream.toNat = i →
      CountFor (st.rxLen uart) count
  | .bind uart binding => ∀ b, RingOn port (port.setBinding uart binding st).2 uart b →
      CountFor (st.rxLen uart) (countOf b st.dma)
  | .init uart buffer length => ∀ b, RingStarts port st uart buffer length b →
      ∀ other b', other ≠ uart → RingOn port st other b' → b'.controller = b.controller →
        b'.stream.toNat = streamIdx b.stream → length ≤ st.rxLen other

/-! ## The index -/

section

variable {port : RxPort} {st : UartRx}

theorem getBinding_lt {uart : Nat} {b : DmaBinding} (h : port.getBinding uart st = .ok b) :
    ¬ uartSlots ≤ uart := by
  intro hle
  unfold RxPort.getBinding at h
  rw [if_pos hle] at h
  cases h

theorem rxIndex_ok_iff {uart : Nat} {idx : BitVec 16} : port.rxIndex uart st = .ok idx ↔
    ∃ b, RingOn port st uart b ∧ idx = st.rxLen uart - countOf b st.dma := by
  constructor
  · intro h
    unfold RxPort.rxIndex RxPort.descriptor at h
    split at h
    · cases h
    · split at h
      · cases h
      · rename_i hring
        cases hb : port.getBinding uart st with
        | error e =>
          rw [hb] at h
          cases h
        | ok b =>
          rw [hb] at h
          unfold halDmaRemaining RxPort.config at h
          dsimp only at h
          by_cases hstream : (7 : BitVec 8) < b.stream
          · rw [if_pos hstream] at h
            cases h
          · rw [if_neg hstream] at h
            cases h
            exact ⟨b, ⟨hring, hb, BitVec.not_lt.mp hstream⟩, rfl⟩
  · rintro ⟨b, ⟨hring, hb, hstream⟩, rfl⟩
    unfold RxPort.rxIndex RxPort.descriptor
    rw [if_neg (getBinding_lt hb), if_neg hring, hb]
    unfold halDmaRemaining RxPort.config
    dsimp only
    rw [if_neg (BitVec.not_lt.mpr hstream)]
    rfl

theorem ringPosition_iff {len count : BitVec 16} (hlen : len ≠ 0) :
    RingPosition len.toNat (len - count).toNat ↔ CountFor len count := by
  have hpos : 0 < len.toNat := Nat.pos_of_ne_zero fun h => hlen (BitVec.eq_of_toNat_eq h)
  have hbelow : (len - count).toNat < len.toNat ↔ CountFor len count := by
    unfold CountFor
    rw [BitVec.toNat_sub, BitVec.lt_def, BitVec.le_def]
    have hlt := len.isLt
    have hlt' := count.isLt
    have hzero : (0 : BitVec 16).toNat = 0 := rfl
    omega
  rw [← hbelow]
  constructor
  · exact fun h => h.below
  · intro h
    refine ⟨h, (walk_ends_iff hpos _).mpr h, ?_⟩
    intro empty received seen hidx hseen hahead
    have hwalk := walk_bytes empty received hseen hahead
    rw [hidx] at hwalk
    exact hwalk

/-- Every ring is on a stream that shows a count it can have left. -/
def CountsFit (port : RxPort) (st : UartRx) : Prop :=
  ∀ uart b, RingOn port st uart b → CountFor (st.rxLen uart) (countOf b st.dma)

theorem indexInRing_iff : IndexInRing port st ↔ CountsFit port st := by
  constructor
  · intro h uart b hring
    exact (ringPosition_iff hring.ring).mp (h uart _ (rxIndex_ok_iff.mpr ⟨b, hring, rfl⟩))
  · intro h uart idx hidx
    obtain ⟨b, hring, rfl⟩ := rxIndex_ok_iff.mp hidx
    exact (ringPosition_iff hring.ring).mpr (h uart b hring)

/-! ## What a step does to the counts -/

theorem countOf_progress (b : DmaBinding) (c : DmaController) (i : Nat) (count : BitVec 16)
    (d : Controllers) :
    countOf b (d.modifyStream c i fun s => { s with ndtr := count.setWidth 32 }) =
      if b.controller = c ∧ b.stream.toNat = i then count else countOf b d := by
  unfold countOf
  rw [modifyStream_stream]
  split
  · apply BitVec.eq_of_toNat_eq
    simp
  · rfl

theorem progress_iff {c : DmaController} {i : Nat} {count : BitVec 16} (h : CountsFit port st) :
    CountsFit port (rxRingStep port st (.progress c i count)) ↔
      KeepsCounts port st (.progress c i count) := by
  have hring : ∀ uart b, RingOn port (rxRingStep port st (.progress c i count)) uart b ↔
      RingOn port st uart b := by
    intro uart b
    exact ⟨fun ⟨h1, h2, h3⟩ => ⟨h1, h2, h3⟩, fun ⟨h1, h2, h3⟩ => ⟨h1, h2, h3⟩⟩
  constructor
  · intro hfit uart b hon hc hi
    have hcount := hfit uart b ((hring uart b).mpr hon)
    unfold rxRingStep at hcount
    dsimp only at hcount
    rwa [countOf_progress, if_pos ⟨hc, hi⟩] at hcount
  · intro hkeep uart b hon
    have hon' := (hring uart b).mp hon
    unfold rxRingStep
    dsimp only
    rw [countOf_progress]
    split
    · rename_i hat
      exact hkeep uart b hon' hat.1 hat.2
    · exact h uart b hon'

theorem setBinding_other (uart : Nat) (binding : Option DmaBinding) :
    (port.setBinding uart binding st).2.dma = st.dma ∧
      (port.setBinding uart binding st).2.rxLen = st.rxLen ∧
      ∀ other ≠ uart, (port.setBinding uart binding st).2.rxOverride other = st.rxOverride other := by
  unfold RxPort.setBinding
  split
  · exact ⟨rfl, rfl, fun _ _ => rfl⟩
  · cases binding with
    | none => exact ⟨rfl, rfl, fun other hother => if_neg hother⟩
    | some b =>
      cases port.binding uart with
      | error e => exact ⟨rfl, rfl, fun _ _ => rfl⟩
      | ok _ => exact ⟨rfl, rfl, fun other hother => if_neg hother⟩

/-- A UART whose ring and override are the same is bound as before. -/
theorem ringOn_congr {st' : UartRx} {uart : Nat} (hlen : st'.rxLen uart = st.rxLen uart)
    (hoverride : st'.rxOverride uart = st.rxOverride uart) (b : DmaBinding) :
    RingOn port st' uart b ↔ RingOn port st uart b := by
  have hbinding : port.getBinding uart st' = port.getBinding uart st := by
    unfold RxPort.getBinding
    rw [hoverride]
  constructor
  · rintro ⟨hring, hb, hstream⟩
    exact ⟨hlen ▸ hring, hbinding ▸ hb, hstream⟩
  · rintro ⟨hring, hb, hstream⟩
    exact ⟨hlen.symm ▸ hring, hbinding.symm ▸ hb, hstream⟩

theorem bind_iff {uart : Nat} {binding : Option DmaBinding} (h : CountsFit port st) :
    CountsFit port (rxRingStep port st (.bind uart binding)) ↔
      KeepsCounts port st (.bind uart binding) := by
  obtain ⟨hdma, hlen, hother⟩ := @setBinding_other port st uart binding
  unfold CountsFit rxRingStep KeepsCounts
  dsimp only
  rw [hdma, hlen]
  constructor
  · exact fun hfit b hon => hfit uart b hon
  · intro hkeep other b hon
    by_cases hu : other = uart
    · rw [hu] at hon ⊢
      exact hkeep b hon
    · exact h other b ((ringOn_congr (by rw [hlen]) (hother other hu) b).mp hon)

/-! ### The start of a ring -/

theorem initDmaRx_refused {uart : Nat} {buffer : BitVec 32} {length : BitVec 16}
    (h : ∀ b, ¬ RingStarts port st uart buffer length b) :
    (port.initDmaRx uart buffer length st).2 = st := by
  unfold RxPort.initDmaRx RxPort.descriptor
  split
  · rfl
  · rename_i hargs
    obtain ⟨hbuffer, hlength, -⟩ := not_or.mp hargs |>.imp_right not_or.mp
    split
    · rfl
    · rename_i hguard
      cases hb : port.getBinding uart st with
      | error e => rfl
      | ok b =>
        dsimp only
        by_cases hrequest : port.hasRequest uart = false
        · rw [if_pos hrequest]
        · refine absurd ⟨hbuffer, hlength, ?_, hb, ?_⟩ (h b)
          · simpa using hguard
          · simpa using hrequest

/-- A ring that starts has its length left, and whatever else is on its stream as well. -/
theorem initDmaRx_starts {uart : Nat} {buffer : BitVec 32} {length : BitVec 16} {b : DmaBinding}
    (h : RingStarts port st uart buffer length b) :
    (port.initDmaRx uart buffer length st).2.rxOverride = st.rxOverride ∧
      (port.initDmaRx uart buffer length st).2.rxLen =
        (fun k => if k = uart then length else st.rxLen k) ∧
      ∀ b', countOf b' (port.initDmaRx uart buffer length st).2.dma =
        if b'.controller = b.controller ∧ b'.stream.toNat = streamIdx b.stream then length
        else countOf b' st.dma := by
  have hargs : ¬ (buffer = 0 ∨ length = 0 ∨ uartSlots ≤ uart) := by
    rintro (hbuffer | hlength | hle)
    · exact h.buffer_ne hbuffer
    · exact h.length_ne hlength
    · exact getBinding_lt h.binding hle
  unfold RxPort.initDmaRx RxPort.descriptor
  rw [if_neg hargs, h.guard, if_neg (by decide), h.binding]
  dsimp only
  rw [h.request, if_neg (by decide)]
  refine ⟨rfl, rfl, ?_⟩
  intro b'
  unfold countOf
  dsimp only
  rw [halDmaStart_stream, halDmaInit_stream]
  by_cases hat : b'.controller = b.controller ∧ b'.stream.toNat = streamIdx b.stream
  · have hcfg : b'.controller = (RxPort.config b buffer length).controller ∧
        b'.stream.toNat = streamIdx (RxPort.config b buffer length).stream := hat
    rw [if_pos hcfg, if_pos hcfg, if_pos hat]
    apply BitVec.eq_of_toNat_eq
    simp [RxPort.config]
  · have hcfg : ¬ (b'.controller = (RxPort.config b buffer length).controller ∧
        b'.stream.toNat = streamIdx (RxPort.config b buffer length).stream) := hat
    rw [if_neg hcfg, if_neg hcfg, if_neg hat]

theorem count_pos {length : BitVec 16} (h : length ≠ 0) : 0 < length :=
  BitVec.lt_def.mpr (Nat.pos_of_ne_zero fun hzero => h (BitVec.eq_of_toNat_eq hzero))

theorem init_iff {uart : Nat} {buffer : BitVec 32} {length : BitVec 16} (h : CountsFit port st) :
    CountsFit port (rxRingStep port st (.init uart buffer length)) ↔
      KeepsCounts port st (.init uart buffer length) := by
  by_cases hstarts : ∃ b, RingStarts port st uart buffer length b
  · obtain ⟨b, hb⟩ := hstarts
    obtain ⟨hoverride, hlen, hcount⟩ := initDmaRx_starts hb
    have hother : ∀ other b', other ≠ uart →
        (RingOn port (port.initDmaRx uart buffer length st).2 other b' ↔
          RingOn port st other b') := by
      intro other b' hne
      refine ringOn_congr ?_ (by rw [hoverride]) b'
      rw [hlen]
      exact if_neg hne
    unfold CountsFit rxRingStep KeepsCounts
    dsimp only
    constructor
    · intro hfit b1 hb1 other b' hne hon hc hi
      have hsame : b1 = b := by
        have hbinding := hb1.binding.symm.trans hb.binding
        cases hbinding
        rfl
      rw [hsame] at hc hi
      have hshown := hfit other b' ((hother other b' hne).mpr hon)
      rw [hcount, if_pos ⟨hc, hi⟩, hlen] at hshown
      dsimp only at hshown
      rw [if_neg hne] at hshown
      exact hshown.2
    · intro hkeep other b' hon
      rw [hcount, hlen]
      dsimp only
      by_cases hne : other = uart
      · -- its own stream is the one that was programmed
        have hbinding : port.getBinding uart (port.initDmaRx uart buffer length st).2 = .ok b := by
          unfold RxPort.getBinding
          rw [hoverride]
          exact hb.binding
        have hsame : b' = b := by
          have hboth := hon.binding
          rw [hne, hbinding] at hboth
          cases hboth
          rfl
        rw [hsame, if_pos hne, if_pos ⟨rfl, (streamIdx_of_le (hsame ▸ hon.stream)).symm⟩]
        exact ⟨count_pos hb.length_ne, BitVec.le_refl length⟩
      · have hon' := (hother other b' hne).mp hon
        rw [if_neg hne]
        split
        · rename_i hat
          exact ⟨count_pos hb.length_ne, hkeep b hb other b' hne hon' hat.1 hat.2⟩
        · exact h other b' hon'
  · have hsame := initDmaRx_refused (not_exists.mp hstarts)
    unfold rxRingStep
    dsimp only
    rw [hsame]
    exact iff_of_true h fun b hb => absurd ⟨b, hb⟩ hstarts

theorem countsFit_step_iff (op : RxOp) (h : CountsFit port st) :
    CountsFit port (rxRingStep port st op) ↔ KeepsCounts port st op := by
  cases op with
  | init uart buffer length => exact init_iff h
  | bind uart binding => exact bind_iff h
  | progress c i count => exact progress_iff h

end

/-- The STM32F4: no cache, and the streams of `_get_uart_dma_params`. -/
def f4RxPort : RxPort where
  binding := fun uart =>
    match getUartDmaParams uart false with
    | some b => .ok b
    | none => .error .errInvalidArg
  hasRequest := isUsart
  guard := fun _ _ => true

/-- Four bytes have come in, and the count is not reloaded yet. -/
def wrapInstant : List RxOp :=
  [.init 2 0x20000000 4, .progress .dma1 5 0]

end NavHAL.Dma
