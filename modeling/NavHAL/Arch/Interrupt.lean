import NavHAL.Lib.BitBank
import NavHAL.Lib.Steps
import NavHAL.Status

/-!
# Interrupt lines (`interrupt.c`, `hal_interrupt.c`)

The NVIC shows the enable bits both through ISER and through ICER, so that the
driver's `|=` writes back the ones it reads.  For ISER they set what is set
already; for ICER they clear the whole word (`lines_match_iff`).
-/

namespace NavHAL.Arch

open BitBank
open Steps (run Always Each)

/-! ## The controller -/

structure Nvic where
  /-- Read through ISER and through ICER. -/
  enabled : Bank
  /-- Read through ISPR and through ICPR. -/
  pending : Bank
  /-- `IPR` -/
  ipr : Nat → BitVec 8
  shpr1 : BitVec 32
  shpr2 : BitVec 32
  shpr3 : BitVec 32
  deriving Inhabited

/-- The registers that the callers below use, next to the controller. -/
structure Board where
  nvic : Nvic
  /-- `_irq_cb`; 0 is NULL. -/
  irqCb : Nat → BitVec 32
  ahb1enr : BitVec 32
  ahb2enr : BitVec 32
  dmaomr : BitVec 32
  maccr : BitVec 32
  ethStarted : Bool
  dctl : BitVec 32
  gahbcfg : BitVec 32
  gccfg : BitVec 32
  usbConfigured : BitVec 8
  usbLineState : BitVec 8
  /-- The RX half of `s_override`, where `s_has_override` is set: its `irq`. -/
  rxOverride : Nat → Option Int
  deriving Inhabited

/-- What depends on the part: `HAL_IRQ_COUNT` and `_hal_uart_dma_ops.binding` for RX. -/
structure Part where
  irqCount : Nat
  rxBinding : Nat → Except HalStatus Int

/-! ## The port -/

/-- `HAL_IRQ_PRIORITY_DEFAULT` -/
def halIrqPriorityDefault : BitVec 8 := 8

section Driver

variable (part : Part)

/-- One field of a system handler priority register. -/
def setField (reg : BitVec 32) (shift : Nat) (prio : BitVec 32) : BitVec 32 :=
  (reg &&& ~~~(0xFF#32 <<< shift)) ||| (prio <<< shift)

def armv7emInterruptSetPriority (irq : Int) (priority : BitVec 8) (nvic : Nvic) :
    HalStatus × Nvic :=
  if priority > 15 then (.errInvalidArg, nvic)
  else
    let prio := priority.setWidth 32 <<< 4
    if 0 ≤ irq then
      if part.irqCount ≤ irq.toNat then (.errInvalidArg, nvic)
      else (.ok,
        { nvic with ipr := fun i => if i = irq.toNat then prio.setWidth 8 else nvic.ipr i })
    else if irq = -12 then (.ok, { nvic with shpr1 := setField nvic.shpr1 0 prio })
    else if irq = -11 then (.ok, { nvic with shpr1 := setField nvic.shpr1 8 prio })
    else if irq = -10 then (.ok, { nvic with shpr1 := setField nvic.shpr1 16 prio })
    else if irq = -5 then (.ok, { nvic with shpr2 := setField nvic.shpr2 24 prio })
    else if irq = -2 then (.ok, { nvic with shpr3 := setField nvic.shpr3 16 prio })
    else if irq = -1 then (.ok, { nvic with shpr3 := setField nvic.shpr3 24 prio })
    else if irq = -14 ∨ irq = -13 ∨ irq = -4 then (.errNotSupported, nvic)
    else (.errInvalidArg, nvic)

/-- `_enable_at`: `NVIC->ISER[irq / 32] |= mask` -/
def enableAt (irq : Int) (priority : BitVec 8) (nvic : Nvic) : HalStatus × Nvic :=
  if irq < 0 then (.errInvalidArg, nvic)
  else
    let nvic := (armv7emInterruptSetPriority part irq priority nvic).2
    let n := irq.toNat
    (.ok, { nvic with
      enabled := writeSet nvic.enabled (n / 32) (nvic.enabled (n / 32) ||| mask n) })

def armv7emInterruptEnable (irq : Int) (nvic : Nvic) : HalStatus × Nvic :=
  enableAt part irq halIrqPriorityDefault nvic

/-- `NVIC->ICER[irq / 32] |= mask` -/
def armv7emInterruptDisable (irq : Int) (nvic : Nvic) : HalStatus × Nvic :=
  if irq < 0 then (.errInvalidArg, nvic)
  else
    let n := irq.toNat
    (.ok, { nvic with
      enabled := writeClear nvic.enabled (n / 32) (nvic.enabled (n / 32) ||| mask n) })

/-- `NVIC->ICPR[irq / 32] = mask` -/
def armv7emInterruptClearPending (irq : Int) (nvic : Nvic) : HalStatus × Nvic :=
  if irq < 0 then (.errInvalidArg, nvic)
  else
    let n := irq.toNat
    (.ok, { nvic with pending := writeClear nvic.pending (n / 32) (mask n) })

/-! ## The common layer -/

/-- A call of the port. -/
def Board.onNvic (b : Board) (f : Nvic → HalStatus × Nvic) : HalStatus × Board :=
  ((f b.nvic).1, { b with nvic := (f b.nvic).2 })

def halInterruptEnable (irq : Int) (b : Board) : HalStatus × Board :=
  b.onNvic (armv7emInterruptEnable part irq)

def halInterruptDisable (irq : Int) (b : Board) : HalStatus × Board :=
  b.onNvic (armv7emInterruptDisable irq)

def halInterruptClearPending (irq : Int) (b : Board) : HalStatus × Board :=
  b.onNvic (armv7emInterruptClearPending irq)

def halInterruptEnableWithPriority (irq : Int) (priority : BitVec 8) (b : Board) :
    HalStatus × Board :=
  let set := b.onNvic (armv7emInterruptSetPriority part irq priority)
  if set.1 ≠ .ok ∧ set.1 ≠ .errNotSupported then set
  else set.2.onNvic (armv7emInterruptEnable part irq)

/-- `_irq_indexes_table` -/
def irqIndexesTable (irq : Int) : Bool := decide (0 ≤ irq) && decide (irq.toNat < part.irqCount)

def halInterruptAttachCallback (irq : Int) (callback : BitVec 32) (b : Board) :
    HalStatus × Board :=
  if callback = 0 ∨ irqIndexesTable part irq = false then (.errInvalidArg, b)
  else (.ok, { b with irqCb := fun n => if n = irq.toNat then callback else b.irqCb n })

def halInterruptDetachCallback (irq : Int) (b : Board) : HalStatus × Board :=
  if irqIndexesTable part irq = false then (.errInvalidArg, b)
  else (.ok, { b with irqCb := fun n => if n = irq.toNat then 0 else b.irqCb n })

/-! ## Callers -/

/-- `ETH_IRQn` -/
def ethIrqn : Int := 61

/-- `OTG_FS_IRQn` -/
def otgFsIrqn : Int := 67

/-- `eth_clock_on`: `ETH_AHB1ENR_ETHMACEN` -/
def ethClockOn (b : Board) : Bool := b.ahb1enr.getLsbD 25

def halEthStop (b : Board) : HalStatus × Board :=
  if ethClockOn b = false then (.errNotInitialized, b)
  else
    let b :=
      { b with
        dmaomr := b.dmaomr &&& ~~~(1#32 <<< 13 ||| 1#32 <<< 1)
        maccr := b.maccr &&& ~~~(1#32 <<< 2 ||| 1#32 <<< 3) }
    let b := (halInterruptDisable ethIrqn b).2
    (.ok, { b with ethStarted := false })

/-- `RCC_AHB2ENR_OTGFSEN` -/
def otgFsClockOn (b : Board) : Bool := b.ahb2enr.getLsbD 7

def halUsbCdcDeinit (b : Board) : HalStatus × Board :=
  if otgFsClockOn b = false then (.ok, b)
  else
    let b :=
      { b with
        dctl := b.dctl ||| 1#32 <<< 1
        gahbcfg := b.gahbcfg &&& ~~~(1#32 <<< 0) }
    let b := (halInterruptDisable otgFsIrqn b).2
    let b := (halInterruptDetachCallback part otgFsIrqn b).2
    (.ok, { b with
      gccfg := 0
      ahb2enr := b.ahb2enr &&& ~~~(1#32 <<< 7)
      usbConfigured := 0
      usbLineState := 0 })

/-- `UART_SLOTS` -/
def uartSlots : Nat := 8

/-- The `irq` of `hal_uart_dma_get_binding(uart, false, …)`. -/
def halUartDmaGetBinding (uart : Nat) (b : Board) : Except HalStatus Int :=
  if uartSlots ≤ uart then .error .errInvalidArg
  else match b.rxOverride uart with
    | some irq => .ok irq
    | none => part.rxBinding uart

def halUartDmaRxAttachCallback (uart : Nat) (callback : BitVec 32) (b : Board) :
    HalStatus × Board :=
  if uartSlots ≤ uart then (.errInvalidArg, b)
  else match halUartDmaGetBinding part uart b with
    | .error st => (st, b)
    | .ok irq =>
      if callback = 0 then
        halInterruptDetachCallback part irq (halInterruptDisable irq b).2
      else
        let attached := halInterruptAttachCallback part irq callback b
        if attached.1 ≠ .ok then attached
        else halInterruptEnableWithPriority part irq halIrqPriorityDefault attached.2

/-! ## Runs -/

inductive IrqOp
  | enable (irq : Fin part.irqCount)
  | enableWithPriority (irq : Fin part.irqCount) (priority : BitVec 8)
  | disable (irq : Fin part.irqCount)
  | ethStop
  | usbCdcDeinit
  | uartDmaRxDetach (uart : Nat)

end Driver

variable {part : Part}

def IrqOp.perform (b : Board) : IrqOp part → HalStatus × Board
  | .enable irq => halInterruptEnable part irq b
  | .enableWithPriority irq priority => halInterruptEnableWithPriority part irq priority b
  | .disable irq => halInterruptDisable irq b
  | .ethStop => halEthStop b
  | .usbCdcDeinit => halUsbCdcDeinit part b
  | .uartDmaRxDetach uart => halUartDmaRxAttachCallback part uart 0 b

/-- The line that the call enables or disables; none if it fails before that. -/
def IrqOp.switched (b : Board) : IrqOp part → Option (Nat × Bool)
  | .enable irq =>
    if (halInterruptEnable part irq b).1 = .ok then some (irq, true) else none
  | .enableWithPriority irq priority =>
    if (halInterruptEnableWithPriority part irq priority b).1 = .ok then some (irq, true) else none
  | .disable irq => if (halInterruptDisable irq b).1 = .ok then some (irq, false) else none
  | .ethStop => if ethClockOn b then some (ethIrqn.toNat, false) else none
  | .usbCdcDeinit => if otgFsClockOn b then some (otgFsIrqn.toNat, false) else none
  | .uartDmaRxDetach uart =>
    match halUartDmaGetBinding part uart b with
    | .error _ => none
    | .ok irq => if irq < 0 then none else some (irq.toNat, false)

/-- The board, and for every line whether its last successful call enabled it. -/
structure IrqRun where
  board : Board
  last : Nat → Bool

/-- Out of reset no line is enabled. -/
def IrqRun.afterReset (b : Board) : IrqRun where
  board := { b with nvic := { b.nvic with enabled := fun _ => 0 } }
  last := fun _ => false

def irqStep (rs : IrqRun) (op : IrqOp part) : IrqRun where
  board := (op.perform rs.board).2
  last := match op.switched rs.board with
    | some (line, on) => fun n => if n = line then on else rs.last n
    | none => rs.last

/-- The lines enabled are the ones whose last successful call enabled them. -/
def LinesMatch (rs : IrqRun) : Prop := ∀ n, bit rs.board.nvic.enabled n = rs.last n

/-- A line is disabled while no other line of its word is enabled. -/
def DisablesAlone (rs : IrqRun) (op : IrqOp part) : Prop :=
  ∀ line, op.switched rs.board = some (line, false) →
    ∀ other, other ≠ line → other / 32 = line / 32 → rs.last other = false

/-! ## What a call does to the enable bits -/

section Calls

variable (irq : Int) (priority : BitVec 8) (nvic : Nvic) (b : Board)

theorem setPriority_enabled :
    (armv7emInterruptSetPriority part irq priority nvic).2.enabled = nvic.enabled := by
  -- the field is taken out of every branch
  simp only [armv7emInterruptSetPriority, apply_ite Prod.snd, apply_ite Nvic.enabled, ite_self]

theorem enable_bit (h : 0 ≤ irq) (m : Nat) :
    bit (armv7emInterruptEnable part irq nvic).2.enabled m =
      if m = irq.toNat then true else bit nvic.enabled m := by
  rw [armv7emInterruptEnable, enableAt, if_neg (by omega)]
  simp only [setPriority_enabled]
  exact bit_writeSet_read ..

theorem enable_ok (h : 0 ≤ irq) : (halInterruptEnable part irq b).1 = .ok := by
  rw [halInterruptEnable, Board.onNvic, armv7emInterruptEnable, enableAt, if_neg (by omega)]

theorem disable_ok (h : 0 ≤ irq) : (halInterruptDisable irq b).1 = .ok := by
  rw [halInterruptDisable, Board.onNvic, armv7emInterruptDisable, if_neg (by omega)]

/-- The whole word goes. -/
theorem disable_bit (h : 0 ≤ irq) (m : Nat) :
    bit (armv7emInterruptDisable irq nvic).2.enabled m =
      if m / 32 = irq.toNat / 32 then false else bit nvic.enabled m := by
  rw [armv7emInterruptDisable, if_neg (by omega)]
  exact bit_writeClear_read ..

theorem detachCallback_nvic : (halInterruptDetachCallback part irq b).2.nvic = b.nvic := by
  unfold halInterruptDetachCallback
  split <;> rfl

end Calls

/-- A bit after a call, from the line that it switches. -/
def switchBits (enabled : Nat → Bool) : Option (Nat × Bool) → Nat → Bool
  | some (line, true), m => if m = line then true else enabled m
  | some (line, false), m => if m / 32 = line / 32 then false else enabled m
  | none, m => enabled m

theorem perform_bits (op : IrqOp part) (b : Board) (m : Nat) :
    bit (op.perform b).2.nvic.enabled m = switchBits (bit b.nvic.enabled) (op.switched b) m := by
  cases op with
  | enable irq =>
    have hline : (0 : Int) ≤ irq := by omega
    simp only [IrqOp.switched, IrqOp.perform]
    rw [if_pos (enable_ok _ b hline)]
    exact enable_bit _ b.nvic hline m
  | enableWithPriority irq priority =>
    have hline : (0 : Int) ≤ irq := by omega
    have henable : (halInterruptEnable part irq
        (b.onNvic (armv7emInterruptSetPriority part irq priority)).2).1 = .ok :=
      enable_ok _ _ hline
    simp only [IrqOp.switched, IrqOp.perform]
    by_cases hset : (b.onNvic (armv7emInterruptSetPriority part irq priority)).1 ≠ .ok ∧
        (b.onNvic (armv7emInterruptSetPriority part irq priority)).1 ≠ .errNotSupported
    · have hcall : halInterruptEnableWithPriority part irq priority b =
          b.onNvic (armv7emInterruptSetPriority part irq priority) := if_pos hset
      rw [hcall, if_neg hset.1]
      exact congrArg (bit · m) (setPriority_enabled ..)
    · have hcall : halInterruptEnableWithPriority part irq priority b =
          halInterruptEnable part irq
            (b.onNvic (armv7emInterruptSetPriority part irq priority)).2 := if_neg hset
      rw [hcall, if_pos henable]
      refine (enable_bit _ _ hline m).trans ?_
      rw [Board.onNvic, setPriority_enabled]
      rfl
  | disable irq =>
    have hline : (0 : Int) ≤ irq := by omega
    simp only [IrqOp.switched, IrqOp.perform]
    rw [if_pos (disable_ok _ b hline)]
    exact disable_bit _ b.nvic hline m
  | ethStop =>
    simp only [IrqOp.switched, IrqOp.perform, halEthStop]
    cases hclock : ethClockOn b with
    | false => rfl
    | true => exact disable_bit ethIrqn b.nvic (by decide) m
  | usbCdcDeinit =>
    simp only [IrqOp.switched, IrqOp.perform, halUsbCdcDeinit]
    cases hclock : otgFsClockOn b with
    | false => rfl
    | true =>
      simp only [detachCallback_nvic]
      exact disable_bit otgFsIrqn b.nvic (by decide) m
  | uartDmaRxDetach uart =>
    simp only [IrqOp.switched, IrqOp.perform, halUartDmaRxAttachCallback]
    split
    · next hslot => rw [halUartDmaGetBinding, if_pos hslot]; rfl
    · cases hbinding : halUartDmaGetBinding part uart b with
      | error st => rfl
      | ok irq =>
        simp only [if_true, detachCallback_nvic]
        by_cases hneg : irq < 0
        · rw [if_pos hneg, halInterruptDisable, Board.onNvic, armv7emInterruptDisable,
            if_pos hneg]
          rfl
        · rw [if_neg hneg]
          exact disable_bit irq b.nvic (by omega) m

/-! ## Runs -/

theorem linesMatch_afterReset (b : Board) : LinesMatch (.afterReset b) := by
  intro n
  simp [IrqRun.afterReset, bit]

/-- A call keeps the lines in step exactly when it disables none or disables alone. -/
theorem linesMatch_step (rs : IrqRun) (op : IrqOp part) (h : LinesMatch rs) :
    LinesMatch (irqStep rs op) ↔ DisablesAlone rs op := by
  have hbits := perform_bits op rs.board
  simp only [LinesMatch, DisablesAlone, irqStep]
  cases hswitch : op.switched rs.board with
  | none =>
    simp only [hswitch, switchBits] at hbits
    simp [hbits, h _]
  | some switched =>
    obtain ⟨line, on⟩ := switched
    cases on with
    | true =>
      simp only [hswitch, switchBits] at hbits
      simp [hbits, h _]
    | false =>
      simp only [hswitch, switchBits] at hbits
      constructor
      · rintro hmatch _ ⟨⟩ other hne hword
        have := hmatch other
        rw [hbits, if_pos hword] at this
        simpa [hne] using this.symm
      · intro halone m
        rw [hbits, h m]
        by_cases hm : m = line
        · simp [hm]
        · by_cases hword : m / 32 = line / 32
          · simp [hm, hword, halone line rfl m hm hword]
          · simp [hm, hword]

/-- **The lines enabled are the ones last enabled exactly when every line is
disabled while no other line of its word is enabled.** -/
theorem lines_match_iff (part : Part) (b : Board) (ops : List (IrqOp part)) :
    Always irqStep LinesMatch (.afterReset b) ops ↔ Each irqStep DisablesAlone (.afterReset b) ops :=
  Steps.always_iff_each linesMatch_step ops (linesMatch_afterReset b)

/-! ## USART6 and USB on the STM32F4 -/

/-- `stm32_uart_dma_binding`, RX. -/
def stm32UartDmaBinding (uart : Nat) : Except HalStatus Int :=
  if uart = 1 then .ok 58
  else if uart = 2 then .ok 16
  else if uart = 6 then .ok 57
  else .error .errInvalidArg

def stm32f4 : Part := ⟨82, stm32UartDmaBinding⟩

/-- The USB line is 67, and USART6, of the same word, is 71. -/
def disableUsb : List (IrqOp stm32f4) :=
  [.enable ⟨71, by decide⟩, .enable ⟨67, by decide⟩, .disable ⟨67, by decide⟩]

theorem disable_takes_neighbour :
    bit (run irqStep (.afterReset default) disableUsb).board.nvic.enabled 71 = false ∧
    ¬ LinesMatch (run irqStep (.afterReset default) disableUsb) := by
  have hbit : bit (run irqStep (.afterReset default) disableUsb).board.nvic.enabled 71 = false := by
    decide
  have hlast : (run irqStep (.afterReset default) disableUsb).last 71 = true := by decide
  refine ⟨hbit, fun h => ?_⟩
  exact absurd (hbit.symm.trans ((h 71).trans hlast)) (by decide)

end NavHAL.Arch
