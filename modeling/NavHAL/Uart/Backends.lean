import NavHAL.Lib.NearestQuotient
import NavHAL.Status

/-!
# The set-up of a UART (`uart.c`, `uart_f7.c`, and those of the AVR and the PC)

The four back ends of `hal_uart_init`, with the clock as a parameter, and what is asked of
each of them: that it programs the rate, or refuses it.
-/

namespace NavHAL.Uart

open NearestQuotient (HalfStep)

/-! ## The STM32 -/

structure Usart where
  cr1 : UInt32
  brr : UInt32

/-- An entry of `uart_pinmap`. -/
structure UartPinmap where
  uart : Nat
  tx : Nat
  rx : Nat
  af : UInt8

/-- What the set-up writes; the alternate functions are by pin. -/
structure Stm32 where
  apb1enr : UInt32
  apb2enr : UInt32
  afs : Nat → UInt8
  usart : Nat → Usart

/-- `hal_clock_get_apb1clk` and `hal_clock_get_apb2clk` -/
structure ApbClocks where
  apb1 : UInt32
  apb2 : UInt32

namespace Stm32

def setUsart (uart : Nat) (regs : Usart) (s : Stm32) : Stm32 :=
  { s with usart := fun u => if u = uart then regs else s.usart u }

def rccApb2enrUsart1en : UInt32 := (1 : UInt32) <<< 4
def rccApb1enrUsart2en : UInt32 := (1 : UInt32) <<< 17
def rccApb1enrUsart3en : UInt32 := (1 : UInt32) <<< 18
def rccApb2enrUsart6en : UInt32 := (1 : UInt32) <<< 5

/-- `_enable_uart_clock`; on the F4 there is no USART3. -/
def enableUartClock (uart : Nat) (s : Stm32) : Stm32 :=
  if uart = 1 then { s with apb2enr := s.apb2enr ||| rccApb2enrUsart1en }
  else if uart = 2 then { s with apb1enr := s.apb1enr ||| rccApb1enrUsart2en }
  else if uart = 3 then { s with apb1enr := s.apb1enr ||| rccApb1enrUsart3en }
  else if uart = 6 then { s with apb2enr := s.apb2enr ||| rccApb2enrUsart6en }
  else s

/-- `_configure_uart_gpio` -/
def configureUartGpio (uart : Nat) (s : Stm32) : List UartPinmap → Stm32
  | [] => s
  | map :: pinmap =>
    if map.uart = uart then
      { s with afs := fun pin => if pin = map.tx ∨ pin = map.rx then map.af else s.afs pin }
    else configureUartGpio uart s pinmap

end Stm32

namespace F4

/-- `_get_usart` does not return `NULL`. -/
def HasUsart (uart : Nat) : Prop := uart = 1 ∨ uart = 2 ∨ uart = 6

instance (uart : Nat) : Decidable (HasUsart uart) := inferInstanceAs (Decidable (_ ∨ _ ∨ _))

def usartCr1Te : UInt32 := (1 : UInt32) <<< 3
def usartCr1Re : UInt32 := (1 : UInt32) <<< 2
def usartCr1Ue : UInt32 := (1 : UInt32) <<< 13

def uartClk (clocks : ApbClocks) (uart : Nat) : UInt32 :=
  if uart = 2 then clocks.apb1 else clocks.apb2

/-- `_uart_hw_init` -/
def uartHwInit (pinmap : List UartPinmap) (clocks : ApbClocks) (uart : Nat) (baudrate : UInt32)
    (s : Stm32) : Stm32 :=
  if HasUsart uart then
    let s := (s.enableUartClock uart).configureUartGpio uart pinmap
    let clk := uartClk clocks uart
    s.setUsart uart
      { cr1 := usartCr1Te ||| usartCr1Re ||| usartCr1Ue
        brr := (clk + baudrate / 2) / baudrate }
  else s

def stm32UartInit (pinmap : List UartPinmap) (clocks : ApbClocks) (uart : Nat) (baudrate : UInt32)
    (s : Stm32) : HalStatus × Stm32 :=
  if HasUsart uart then (.ok, uartHwInit pinmap clocks uart baudrate s) else (.errInvalidArg, s)

end F4

namespace F7

def HasUsart (uart : Nat) : Prop := uart = 1 ∨ uart = 2 ∨ uart = 3 ∨ uart = 6

instance (uart : Nat) : Decidable (HasUsart uart) := inferInstanceAs (Decidable (_ ∨ _ ∨ _ ∨ _))

def usartCr1Ue : UInt32 := (1 : UInt32) <<< 0
def usartCr1Re : UInt32 := (1 : UInt32) <<< 2
def usartCr1Te : UInt32 := (1 : UInt32) <<< 3

/-- `_uart_periph_clk` -/
def uartPeriphClk (clocks : ApbClocks) (uart : Nat) : UInt32 :=
  if uart = 2 ∨ uart = 3 then clocks.apb1 else clocks.apb2

def uartHwInit (pinmap : List UartPinmap) (clocks : ApbClocks) (uart : Nat) (baudrate : UInt32)
    (s : Stm32) : Stm32 :=
  if ¬ HasUsart uart ∨ baudrate = 0 then s
  else
    let s := (s.enableUartClock uart).configureUartGpio uart pinmap
    let clk := uartPeriphClk clocks uart
    s.setUsart uart
      { cr1 := usartCr1Ue ||| usartCr1Te ||| usartCr1Re
        brr := (clk + baudrate / 2) / baudrate }

def stm32f7UartInit (pinmap : List UartPinmap) (clocks : ApbClocks) (uart : Nat)
    (baudrate : UInt32) (s : Stm32) : HalStatus × Stm32 :=
  if HasUsart uart then (.ok, uartHwInit pinmap clocks uart baudrate s) else (.errInvalidArg, s)

end F7

/-! ## The ATmega328P -/

namespace Avr

structure Usart0 where
  ucsr0a : UInt8
  ucsr0b : UInt8
  ucsr0c : UInt8
  ubrr0h : UInt8
  ubrr0l : UInt8

def uartValid (uart : Nat) : Prop := uart = 0

instance (uart : Nat) : Decidable (uartValid uart) := inferInstanceAs (Decidable (_ = _))

def u2x0 : UInt8 := (1 : UInt8) <<< 1
def rxen0 : UInt8 := (1 : UInt8) <<< 4
def txen0 : UInt8 := (1 : UInt8) <<< 3
def ucsz01 : UInt8 := (1 : UInt8) <<< 2
def ucsz00 : UInt8 := (1 : UInt8) <<< 1

/-- `UL` has 32 bits here. -/
def ubrrOf (fCpu baudrate : UInt32) : UInt16 :=
  ((fCpu + 4 * baudrate) / (8 * baudrate) - 1).toUInt16

/-- `avr_uart_init` -/
def avrUartInit (fCpu : UInt32) (uart : Nat) (baudrate : UInt32) (s : Usart0) :
    HalStatus × Usart0 :=
  if ¬ uartValid uart ∨ baudrate = 0 then (.errInvalidArg, s)
  else
    let ubrr := ubrrOf fCpu baudrate
    (.ok,
      { ucsr0a := u2x0
        ubrr0h := (ubrr >>> 8).toUInt8
        ubrr0l := (ubrr &&& 0xFF).toUInt8
        ucsr0b := rxen0 ||| txen0
        ucsr0c := ucsz01 ||| ucsz00 })

end Avr

/-! ## The PC -/

namespace Pc

/-- The registers of a 16550; the divisor latch is behind `DLAB`. -/
structure Uart16550 where
  thr : UInt8
  ier : UInt8
  fcr : UInt8
  lcr : UInt8
  mcr : UInt8
  dll : UInt8
  dlm : UInt8

def Uart16550.dlab (u : Uart16550) : Bool := u.lcr &&& 0x80 != 0

/-- `outb` to a port of the UART. -/
def Uart16550.outb (port : Nat) (val : UInt8) (u : Uart16550) : Uart16550 :=
  match port with
  | 0 => if u.dlab then { u with dll := val } else { u with thr := val }
  | 1 => if u.dlab then { u with dlm := val } else { u with ier := val }
  | 2 => { u with fcr := val }
  | 3 => { u with lcr := val }
  | 4 => { u with mcr := val }
  | _ => u

/-- COM1 to COM4, by base address. -/
abbrev Machine := UInt16 → Uart16550

def uartBase (uart : Nat) : UInt16 :=
  match uart with
  | 1 => 0x3F8
  | 2 => 0x2F8
  | 3 => 0x3E8
  | 4 => 0x2E8
  | _ => 0

/-- `div` -/
def divOf (baudrate : UInt32) : UInt16 :=
  let baud := if baudrate ≠ 0 then baudrate else 115200
  let div := (115200 / baud).toUInt16
  if div = 0 then 1 else div

def program (div : UInt16) (u : Uart16550) : Uart16550 :=
  ((((((u.outb 1 0x00).outb 3 0x80).outb 0 (div &&& 0xFF).toUInt8).outb 1
    (div >>> 8 &&& 0xFF).toUInt8).outb 3 0x03).outb 2 0xC7).outb 4 0x0B

/-- `pc_uart_init` -/
def pcUartInit (uart : Nat) (baudrate : UInt32) (s : Machine) : HalStatus × Machine :=
  let base := uartBase uart
  if base = 0 then (.errInvalidArg, s)
  else (.ok, fun b => if b = base then program (divOf baudrate) (s b) else s b)

end Pc

/-! ## What is asked of a set-up -/

/-- A back end with its clock and one of its UARTs. -/
structure Backend where
  State : Type
  init : UInt32 → State → HalStatus × State
  /-- The content of the divisor registers. -/
  divisor : State → Nat
  /-- A content that the field can hold and the UART can run with. -/
  Holds : Nat → Prop
  /-- A bit lasts `step * count content` input clocks, of which there are `clock` in a second. -/
  clock : Nat
  step : Nat
  count : Nat → Nat
  /-- The sums and products on the way to the divisor are exact. -/
  Exact : UInt32 → Prop
  /-- What the call divides by. -/
  divides : UInt32 → List UInt32

/-- `HAL_OK` with the nearest rate of the grid, or `HAL_ERR_INVALID_ARG`. -/
structure Programs (b : Backend) (baudrate : UInt32) (s : b.State) : Prop where
  fits : (b.init baudrate s).1 = .ok → b.Holds (b.divisor (b.init baudrate s).2)
  near : (b.init baudrate s).1 = .ok →
    HalfStep b.clock (b.step * baudrate.toNat) (b.count (b.divisor (b.init baudrate s).2))
  refused : (b.init baudrate s).1 ≠ .ok →
    (b.init baudrate s).1 = .errInvalidArg ∧
      b.divisor (b.init baudrate s).2 = b.divisor s

/-- A call that leaves every UART as it finds it. -/
def LeavesAll (b : Backend) (baudrate : UInt32) : Prop := ∀ s, (b.init baudrate s).2 = s

/-- What the call does with a rate of 0, and with any other. -/
def DeliversOrRefuses (b : Backend) (baudrate : UInt32) : Prop :=
  if baudrate = 0 then
    0 ∉ b.divides baudrate ∧ (LeavesAll b baudrate → ∀ s, (b.init baudrate s).1 ≠ .ok)
  else b.Exact baudrate ∧ ∀ s, Programs b baudrate s

/-! ## The ports -/

inductive Port
  | f4 (pinmap : List UartPinmap) (clocks : ApbClocks) (uart : Nat)
  | f7 (pinmap : List UartPinmap) (clocks : ApbClocks) (uart : Nat)
  | avr (fCpu : UInt32) (uart : Nat)
  | pc (uart : Nat)

/-- A bit of the STM32 lasts `BRR` clocks, and is made of 16 samples at least. -/
def stm32Holds (content : Nat) : Prop := 16 ≤ content ∧ content < 65536

def stm32Backend (init : UInt32 → Stm32 → HalStatus × Stm32) (uart : Nat) (clk : UInt32)
    (divides : UInt32 → List UInt32) : Backend where
  State := Stm32
  init := init
  divisor := fun s => (s.usart uart).brr.toNat
  Holds := stm32Holds
  clock := clk.toNat
  step := 1
  count := fun content => content
  Exact := fun baudrate =>
    divides baudrate ≠ [] → (clk + baudrate / 2).toNat = clk.toNat + (baudrate / 2).toNat
  divides := divides

def Port.backend : Port → Backend
  | .f4 pinmap clocks uart =>
    stm32Backend (F4.stm32UartInit pinmap clocks uart) uart (F4.uartClk clocks uart) fun baudrate =>
      if F4.HasUsart uart then [baudrate] else []
  | .f7 pinmap clocks uart =>
    stm32Backend (F7.stm32f7UartInit pinmap clocks uart) uart (F7.uartPeriphClk clocks uart)
      fun baudrate => if F7.HasUsart uart ∧ baudrate ≠ 0 then [baudrate] else []
  | .avr fCpu uart =>
    { State := Avr.Usart0
      init := Avr.avrUartInit fCpu uart
      divisor := fun s => s.ubrr0h.toNat * 256 + s.ubrr0l.toNat
      Holds := fun content => content < 4096
      clock := fCpu.toNat
      step := 8
      count := fun content => content + 1
      Exact := fun baudrate => Avr.uartValid uart →
        (4 * baudrate).toNat = 4 * baudrate.toNat ∧ (8 * baudrate).toNat = 8 * baudrate.toNat ∧
          (fCpu + 4 * baudrate).toNat = fCpu.toNat + (4 * baudrate).toNat
      divides := fun baudrate =>
        if Avr.uartValid uart ∧ baudrate ≠ 0 then [8 * baudrate] else [] }
  | .pc uart =>
    { State := Pc.Machine
      init := Pc.pcUartInit uart
      divisor := fun s => (s (Pc.uartBase uart)).dlm.toNat * 256 + (s (Pc.uartBase uart)).dll.toNat
      Holds := fun content => 1 ≤ content
      clock := 115200
      step := 1
      count := fun content => content
      Exact := fun _ => True
      divides := fun baudrate =>
        if Pc.uartBase uart ≠ 0 then [if baudrate ≠ 0 then baudrate else 115200] else [] }

end NavHAL.Uart
