import NavHAL.Lib.BitField
import NavHAL.Status

/-!
# DMA streams of the STM32F4 (`dma.c`)

The registers of both controllers, what `hal_dma_init` programs into a stream
(`halDmaInit_stream`), what `hal_dma_set_memory` and `hal_dma_start` leave of
it, and the table of stream callbacks.  Where the driver waits for a stream to
stop, the transfer under way completes.
-/

namespace NavHAL.Dma

open BitField

/-! ## Configurations (`hal_dma_types.h`) -/

inductive DmaController
  | dma1
  | dma2
  deriving DecidableEq, Repr

inductive DmaDirection
  | p2m
  | m2p
  | m2m
  deriving DecidableEq, Repr

def DmaDirection.code : DmaDirection → BitVec 2
  | p2m => 0
  | m2p => 1
  | m2m => 2

inductive DmaDataWidth
  | width8
  | width16
  | width32
  deriving DecidableEq, Repr

def DmaDataWidth.code : DmaDataWidth → BitVec 2
  | width8 => 0
  | width16 => 1
  | width32 => 2

inductive DmaPriority
  | low
  | medium
  | high
  | veryHigh
  deriving DecidableEq, Repr

def DmaPriority.code : DmaPriority → BitVec 2
  | low => 0
  | medium => 1
  | high => 2
  | veryHigh => 3

/-- `hal_dma_config_t`; what a caller leaves out is zero. -/
structure DmaConfig where
  controller : DmaController
  stream : BitVec 8
  channel : BitVec 8
  direction : DmaDirection
  srcAddr : BitVec 32
  dstAddr : BitVec 32
  dataCount : BitVec 16
  srcInc : Bool
  dstInc : Bool
  dataWidth : DmaDataWidth
  priority : DmaPriority
  circular : Bool := false
  pfctrl : Bool := false
  fifoMode : Bool := false
  fifoThreshold : BitVec 2 := 0
  mburst : BitVec 2 := 0
  pburst : BitVec 2 := 0

/-- `hal_dma_binding_t` -/
structure DmaBinding where
  controller : DmaController
  stream : BitVec 8
  channel : BitVec 8
  periphAddr : BitVec 32
  irq : Int
  deriving DecidableEq

/-! ## Registers (`dma_reg.h`) -/

structure DmaStream where
  cr : BitVec 32 := 0
  ndtr : BitVec 32 := 0
  par : BitVec 32 := 0
  m0ar : BitVec 32 := 0
  fcr : BitVec 32 := 0x21

/-- `DMA_Typedef` -/
structure DmaRegs where
  lisr : BitVec 32 := 0
  hisr : BitVec 32 := 0
  stream : Nat → DmaStream := fun _ => {}

/-- The two controllers and the register with their clock enables. -/
structure Controllers where
  ctrl : DmaController → DmaRegs := fun _ => {}
  ahb1enr : BitVec 32 := 0

def dmaSxcrEn : BitVec 32 := 1#32 <<< 0

def dmaIsrShift (stream : BitVec 8) : Nat :=
  match stream.toNat % 4 with
  | 0 => 0
  | 1 => 6
  | 2 => 16
  | _ => 22

def dmaIsrTcif (stream : BitVec 8) : BitVec 32 := 1#32 <<< (dmaIsrShift stream + 5)

/-- All five flags of a stream. -/
def dmaIsrFlags (stream : BitVec 8) : BitVec 32 :=
  dmaIsrTcif stream ||| 1#32 <<< (dmaIsrShift stream + 4) ||| 1#32 <<< (dmaIsrShift stream + 3) |||
    1#32 <<< (dmaIsrShift stream + 2) ||| 1#32 <<< dmaIsrShift stream

/-- `DMA_ISR_REG` -/
def DmaRegs.isr (d : DmaRegs) (stream : BitVec 8) : BitVec 32 :=
  if stream < 4 then d.lisr else d.hisr

def Controllers.modify (d : Controllers) (c : DmaController) (f : DmaRegs → DmaRegs) : Controllers :=
  { d with ctrl := fun k => if k = c then f (d.ctrl k) else d.ctrl k }

def Controllers.modifyStream (d : Controllers) (c : DmaController) (i : Nat) (f : DmaStream → DmaStream) : Controllers :=
  d.modify c fun regs =>
    { regs with stream := fun k => if k = i then f (regs.stream k) else regs.stream k }

/-- The stream that a configuration means: the lower three bits of its index. -/
def streamIdx (stream : BitVec 8) : Nat := (stream &&& 7).toNat

/-- `_clear_flags` -/
def clearFlags (c : DmaController) (stream : BitVec 8) (d : Controllers) : Controllers :=
  d.modify c fun regs =>
    if stream < 4 then { regs with lisr := regs.lisr &&& ~~~dmaIsrFlags stream }
    else { regs with hisr := regs.hisr &&& ~~~dmaIsrFlags stream }

/-- The `CR` of `hal_dma_init`. -/
def crValue (cfg : DmaConfig) : BitVec 32 :=
  let minc := if cfg.direction = .m2p then cfg.srcInc else cfg.dstInc
  let pinc := if cfg.direction = .m2p then cfg.dstInc else cfg.srcInc
  place 25 (cfg.channel.setWidth 3) ||| place 6 cfg.direction.code |||
    place 16 cfg.priority.code ||| place 13 cfg.dataWidth.code ||| place 11 cfg.dataWidth.code |||
    place 10 (BitVec.ofBool minc) ||| place 9 (BitVec.ofBool pinc) |||
    place 8 (BitVec.ofBool cfg.circular) ||| place 5 (BitVec.ofBool cfg.pfctrl) |||
    place 23 cfg.mburst ||| place 21 cfg.pburst ||| place 4 1#1 |||
    place 3 (BitVec.ofBool cfg.circular)

def fcrValue (cfg : DmaConfig) : BitVec 32 :=
  if cfg.fifoMode then 1#32 <<< 2 ||| place 0 cfg.fifoThreshold else 0

/-! ## The driver -/

/-- `hal_dma_init` of a configuration that is there; it waits until the stream is off. -/
def halDmaInit (cfg : DmaConfig) (d : Controllers) : Controllers :=
  let d := { d with ahb1enr :=
    d.ahb1enr ||| (if cfg.controller = .dma1 then 1#32 <<< 21 else 1#32 <<< 22) }
  let d := clearFlags cfg.controller cfg.stream d
  d.modifyStream cfg.controller (streamIdx cfg.stream) fun _ =>
    { par := if cfg.direction = .m2p then cfg.dstAddr else cfg.srcAddr
      m0ar := if cfg.direction = .m2p then cfg.srcAddr else cfg.dstAddr
      ndtr := cfg.dataCount.setWidth 32
      cr := crValue cfg
      fcr := fcrValue cfg }

def halDmaStart (cfg : DmaConfig) (d : Controllers) : Controllers :=
  (clearFlags cfg.controller cfg.stream d).modifyStream cfg.controller (streamIdx cfg.stream)
    fun s => { s with cr := s.cr ||| dmaSxcrEn }

def halDmaTransferComplete (cfg : DmaConfig) (d : Controllers) : Bool :=
  (d.ctrl cfg.controller).isr cfg.stream &&& dmaIsrTcif cfg.stream != 0

def halDmaClearFlags (cfg : DmaConfig) (d : Controllers) : Controllers := clearFlags cfg.controller cfg.stream d

/-- `hal_dma_set_memory`; the stream is off when the wait ends. -/
def halDmaSetMemory (cfg : DmaConfig) (addr : BitVec 32) (count : BitVec 16) (d : Controllers) :
    HalStatus × Controllers :=
  if count = 0 then (.errInvalidArg, d)
  else if 7 < cfg.stream then (.errInvalidArg, d)
  else
    (.ok, d.modifyStream cfg.controller cfg.stream.toNat fun s =>
      { s with cr := s.cr &&& ~~~dmaSxcrEn, m0ar := addr, ndtr := count.setWidth 32 })

/-- The transfer of a stream completes. -/
def completeStream (c : DmaController) (i : Nat) (d : Controllers) : Controllers :=
  d.modifyStream c i fun s => { s with cr := s.cr &&& ~~~dmaSxcrEn, ndtr := 0 }

/-! ## Callbacks -/

/-- `_stream_cb` -/
abbrev StreamCbs (Callback : Type) := DmaController → Nat → Option Callback

/-- `hal_dma_attach_callback`; a second owner is refused. -/
def halDmaAttachCallback {Callback : Type} [DecidableEq Callback] (c : DmaController)
    (stream : BitVec 8) (cb : Callback) (cbs : StreamCbs Callback) : HalStatus × StreamCbs Callback :=
  if 8 ≤ stream then (.errInvalidArg, cbs)
  else if cbs c stream.toNat ≠ none ∧ cbs c stream.toNat ≠ some cb then (.errBusy, cbs)
  else (.ok, fun k i => if k = c ∧ i = stream.toNat then some cb else cbs k i)

/-! ## What the calls leave of a stream -/

section Streams

variable (cfg : DmaConfig) (d : Controllers) (c : DmaController) (i : Nat)

@[simp] theorem modify_ctrl (f : DmaRegs → DmaRegs) (k : DmaController) :
    (d.modify c f).ctrl k = if k = c then f (d.ctrl k) else d.ctrl k := rfl

theorem modifyStream_stream (f : DmaStream → DmaStream) (k : DmaController) (j : Nat) :
    ((d.modifyStream c i f).ctrl k).stream j =
      if k = c ∧ j = i then f ((d.ctrl k).stream j) else (d.ctrl k).stream j := by
  by_cases hk : k = c
  · by_cases hj : j = i
    · simp [Controllers.modifyStream, hk, hj]
    · simp [Controllers.modifyStream, hk, hj]
  · simp [Controllers.modifyStream, hk]

@[simp] theorem clearFlags_stream (stream : BitVec 8) (k : DmaController) :
    ((clearFlags c stream d).ctrl k).stream = (d.ctrl k).stream := by
  rw [clearFlags, modify_ctrl]
  split
  · split
    · rfl
    · rfl
  · rfl

/-- **What `hal_dma_init` programs.** -/
theorem halDmaInit_stream :
    ((halDmaInit cfg d).ctrl c).stream i =
      if c = cfg.controller ∧ i = streamIdx cfg.stream then
        { par := if cfg.direction = .m2p then cfg.dstAddr else cfg.srcAddr
          m0ar := if cfg.direction = .m2p then cfg.srcAddr else cfg.dstAddr
          ndtr := cfg.dataCount.setWidth 32
          cr := crValue cfg
          fcr := fcrValue cfg }
      else (d.ctrl c).stream i := by
  rw [halDmaInit, modifyStream_stream, clearFlags_stream]

theorem halDmaStart_stream :
    ((halDmaStart cfg d).ctrl c).stream i =
      if c = cfg.controller ∧ i = streamIdx cfg.stream then
        { (d.ctrl c).stream i with cr := ((d.ctrl c).stream i).cr ||| dmaSxcrEn }
      else (d.ctrl c).stream i := by
  rw [halDmaStart, modifyStream_stream, clearFlags_stream]

section SetMemory

variable {cfg d} {addr : BitVec 32} {count : BitVec 16}

theorem halDmaSetMemory_ok (hcount : count ≠ 0) (hstream : cfg.stream ≤ 7) :
    halDmaSetMemory cfg addr count d = (.ok, (halDmaSetMemory cfg addr count d).2) := by
  rw [halDmaSetMemory, if_neg hcount, if_neg (BitVec.not_lt.mpr hstream)]

theorem halDmaSetMemory_refused (hcount : count ≠ 0) (hstream : ¬ cfg.stream ≤ 7) :
    halDmaSetMemory cfg addr count d = (.errInvalidArg, d) := by
  rw [halDmaSetMemory, if_neg hcount, if_pos (BitVec.not_le.mp hstream)]

theorem halDmaSetMemory_stream (hcount : count ≠ 0) (hstream : cfg.stream ≤ 7) :
    (((halDmaSetMemory cfg addr count d).2.ctrl c).stream i) =
      if c = cfg.controller ∧ i = cfg.stream.toNat then
        { (d.ctrl c).stream i with
          cr := ((d.ctrl c).stream i).cr &&& ~~~dmaSxcrEn
          m0ar := addr
          ndtr := count.setWidth 32 }
      else (d.ctrl c).stream i := by
  rw [halDmaSetMemory, if_neg hcount, if_neg (BitVec.not_lt.mpr hstream), modifyStream_stream]

end SetMemory

/-- A stream that there is. -/
theorem streamIdx_of_le {stream : BitVec 8} (h : stream ≤ 7) : streamIdx stream = stream.toNat := by
  have hle : stream.toNat ≤ 7 := h
  rw [streamIdx, BitVec.toNat_and, show (7 : BitVec 8).toNat = 2 ^ 3 - 1 from rfl,
    Nat.and_two_pow_sub_one_eq_mod]
  omega

theorem streamIdx_lt (stream : BitVec 8) : streamIdx stream < 8 := by
  rw [streamIdx, BitVec.toNat_and, show (7 : BitVec 8).toNat = 2 ^ 3 - 1 from rfl,
    Nat.and_two_pow_sub_one_eq_mod]
  exact Nat.mod_lt _ (by decide)

/-- The fields of `CR` next to the enable bit. -/
theorem crValue_fields :
    field 25 3 (crValue cfg) = cfg.channel.setWidth 3 ∧
    field 6 2 (crValue cfg) = cfg.direction.code ∧
    field 10 1 (crValue cfg) =
      BitVec.ofBool (if cfg.direction = .m2p then cfg.srcInc else cfg.dstInc) ∧
    field 13 2 (crValue cfg) = cfg.dataWidth.code ∧
    field 11 2 (crValue cfg) = cfg.dataWidth.code := by
  simp only [crValue]
  simp [field_place_self, field_place_disjoint]

/-- The enable bit is below all other fields. -/
theorem field_enable {pos w : Nat} (cr : BitVec 32) (h : 0 < pos) :
    field pos w (cr ||| dmaSxcrEn) = field pos w cr :=
  field_or_of_lt _ _ (Nat.one_lt_two_pow_iff.mpr (by omega))

theorem field_disable {pos w : Nat} (cr : BitVec 32) (h : 0 < pos) (hw : pos + w ≤ 32) :
    field pos w (cr &&& ~~~dmaSxcrEn) = field pos w cr :=
  field_and_not_of_lt _ _ (Nat.one_lt_two_pow_iff.mpr (by omega)) hw

end Streams

end NavHAL.Dma
