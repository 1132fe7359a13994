import NavHAL.Timer.Frequency
import NavHAL.Uart.Backends

/-!
# The set-up of a PWM output (`hal_pwm.c`, and `pwm.c` of the STM32 and the AVR)

The duty cycle is left open: `duty` turns the counts of a period into the compare value
that the floating-point product rounds to.
-/

namespace NavHAL.Pwm

open Timer (Tim TimerConfig Bank divide halTimerInit)
open Uart (ApbClocks)

/-! ## The shared layer -/

structure PwmHandle where
  timer : Tim
  channel : UInt32

/-- `hal_pwm_init`; the result is `none` where the back end divides by zero. -/
def halPwmInit {σ : Type} (init : PwmHandle → UInt32 → σ → Option (HalStatus × σ))
    (pwm : Option PwmHandle) (frequency : UInt32) (s : σ) : Option (HalStatus × σ) :=
  match pwm with
  | none => some (.errInvalidArg, s)
  | some pwm => if frequency = 0 then some (.errInvalidArg, s) else init pwm frequency s

/-! ## The STM32 -/

namespace Stm32

/-- The compare side of a channel. -/
structure Channel where
  ccr : UInt32
  /-- PWM mode 1 with preload, in `CCMRx` -/
  pwmMode : Bool
  /-- its bit of `CCER` -/
  enabled : Bool

structure Timers where
  bank : Bank
  channels : Tim → UInt8 → Channel
  /-- `TIMx_BDTR_MOE`, which only TIM1 has -/
  moe : Bool

/-- `stm32_timer_set_compare` -/
def stm32TimerSetCompare (timer : Tim) (channel : UInt8) (compareValue : UInt32) (s : Timers) :
    HalStatus × Timers :=
  if timer.hasBase = false then (.errInvalidArg, s)
  else if channel < 1 ∨ 4 < channel then (.errInvalidArg, s)
  else
    (.ok,
      { s with
        channels := fun t c =>
          if t = timer ∧ c = channel then ⟨compareValue, true, true⟩ else s.channels t c
        moe := s.moe || timer == .tim1 })

/-- The timers on the second bus. -/
def onApb2 (timer : Tim) : Bool :=
  timer == .tim1 || timer == .tim9 || timer == .tim10 || timer == .tim11

/-- The bits of a bus prescaler; 0 is `DIV1`. -/
def ppre (cfgr : UInt32) (timer : Tim) : UInt32 :=
  if onApb2 timer then (cfgr >>> 13) &&& 7 else (cfgr >>> 10) &&& 7

def busClk (clocks : ApbClocks) (timer : Tim) : UInt32 :=
  if onApb2 timer then clocks.apb2 else clocks.apb1

def timerClk (clocks : ApbClocks) (cfgr : UInt32) (timer : Tim) : UInt32 :=
  let bus := busClk clocks timer
  if ppre cfgr timer ≠ 0 then bus * 2 else bus

/-- `psc` and `arr` -/
def pwmConfig (timerClk frequency : UInt32) : Option TimerConfig :=
  let psc := timerClk / 1000000 - 1
  (divide timerClk (psc + 1)).bind fun ticks =>
    (divide ticks frequency).map fun quot => { prescaler := psc, autoReload := quot - 1 }

/-- `stm32_pwm_init`, which does not look at what the timer calls return. -/
def stm32PwmInit (duty : UInt32 → UInt32) (clocks : ApbClocks) (cfgr : UInt32) (pwm : PwmHandle)
    (frequency : UInt32) (s : Timers) : Option (HalStatus × Timers) :=
  (pwmConfig (timerClk clocks cfgr pwm.timer) frequency).map fun cfg =>
    let ccr := duty (cfg.autoReload + 1)
    let ccr := if cfg.autoReload < ccr then cfg.autoReload else ccr
    let s := { s with bank := (halTimerInit pwm.timer (some cfg) s.bank).2 }
    (.ok, (stm32TimerSetCompare pwm.timer pwm.channel.toUInt8 ccr s).2)

end Stm32

/-! ## The ATmega328P -/

namespace Avr

structure Regs where
  /-- `s_top` -/
  top0 : UInt16
  top1 : UInt16
  icr1 : UInt16
  tccr1a : UInt8
  tccr1b : UInt8
  ocr1a : UInt16
  ocr1b : UInt16
  tccr2a : UInt8
  tccr2b : UInt8
  ocr2a : UInt8
  ocr2b : UInt8
  ddrb : UInt8
  ddrd : UInt8

/-- `k_div` with `k_cs` -/
def kDiv : List (UInt16 × UInt8) := [(1, 1), (8, 2), (64, 3), (256, 4), (1024, 5)]

/-- `t2_div` with `t2_cs` -/
def t2Div : List (UInt16 × UInt8) :=
  [(1, 1), (8, 2), (32, 3), (64, 4), (128, 5), (256, 6), (1024, 7)]

/-- `pwm_index` is not −1. -/
def pwmIndex (timer : Tim) : Option Nat :=
  match timer with
  | .tim1 => some 0
  | .tim2 => some 1
  | _ => none

def inRange (period : UInt32) : Prop := 2 ≤ period ∧ period ≤ 65536

instance (period : UInt32) : Decidable (inRange period) := inferInstanceAs (Decidable (_ ∧ _))

/-- The loop over `k_div`: the first entry whose period is in range, with that period. -/
def firstFit (fCpu frequency : UInt32) :
    List (UInt16 × UInt8) → Option (Option ((UInt16 × UInt8) × UInt32))
  | [] => some none
  | entry :: rest =>
    (divide fCpu (entry.1.toUInt32 * frequency)).bind fun period =>
      if inRange period then some (some (entry, period)) else firstFit fCpu frequency rest

/-- The loop over `t2_div`: `best_err` and `cs`. -/
def nearestFit (fCpu frequency : UInt32) : List (UInt16 × UInt8) → UInt32 × UInt8 → UInt32 × UInt8
  | [], best => best
  | (div, cs) :: rest, best =>
    let f := fCpu / (div.toUInt32 * 256)
    let err := if frequency < f then f - frequency else frequency - f
    nearestFit fCpu frequency rest (if err < best.1 then (err, cs) else best)

/-- `write_duty`; the sum in it has 16 bits. -/
def writeDuty (duty : UInt16 → UInt32) (timer : Tim) (channel : UInt32) (s : Regs) : Regs :=
  if timer = .tim1 then
    let cmp := duty (s.top0 + 1)
    if channel = 1 then { s with ocr1a := cmp.toUInt16 } else { s with ocr1b := cmp.toUInt16 }
  else
    let cmp := duty (s.top1 + 1)
    if channel = 1 then { s with ocr2a := cmp.toUInt8 } else { s with ocr2b := cmp.toUInt8 }

def wgm11 : UInt8 := (1 : UInt8) <<< 1
def wgm12 : UInt8 := (1 : UInt8) <<< 3
def wgm13 : UInt8 := (1 : UInt8) <<< 4
def wgm20 : UInt8 := (1 : UInt8) <<< 0
def wgm21 : UInt8 := (1 : UInt8) <<< 1
def pb1 : UInt8 := (1 : UInt8) <<< 1
def pb2 : UInt8 := (1 : UInt8) <<< 2
def pb3 : UInt8 := (1 : UInt8) <<< 3
def pd3 : UInt8 := (1 : UInt8) <<< 3

/-- Fast PWM mode 14, with `ICR1` as the top. -/
def setTimer1 (channel : UInt32) (cs : UInt8) (top : UInt16) (s : Regs) : Regs :=
  { s with
    top0 := top
    icr1 := top
    tccr1a := wgm11
    tccr1b := wgm13 ||| wgm12 ||| cs
    ddrb := s.ddrb ||| if channel = 1 then pb1 else pb2 }

/-- `avr_pwm_init` -/
def avrPwmInit (duty : UInt16 → UInt32) (fCpu : UInt32) (pwm : PwmHandle) (frequency : UInt32)
    (s : Regs) : Option (HalStatus × Regs) :=
  if pwmIndex pwm.timer = none ∨ pwm.channel < 1 ∨ 2 < pwm.channel then some (.errInvalidArg, s)
  else if pwm.timer = .tim1 then
    (firstFit fCpu frequency kDiv).map fun
      | none => (.errInvalidArg, s)
      | some ((_, cs), period) =>
        let s := setTimer1 pwm.channel cs (period - 1).toUInt16 s
        (.ok, writeDuty duty pwm.timer pwm.channel s)
  else
    let cs := (nearestFit fCpu frequency t2Div (0xFFFFFFFF, 5)).2
    let s :=
      { s with
        top1 := 0xFF
        tccr2a := wgm21 ||| wgm20
        tccr2b := cs
        ddrb := if pwm.channel = 1 then s.ddrb ||| pb3 else s.ddrb
        ddrd := if pwm.channel = 2 then s.ddrd ||| pd3 else s.ddrd }
    some (.ok, writeDuty duty pwm.timer pwm.channel s)

/-- What the clock select of timer 1 divides by. -/
def prescale (tccr1b : UInt8) : Nat :=
  match (tccr1b &&& 7).toNat with
  | 1 => 1
  | 2 => 8
  | 3 => 64
  | 4 => 256
  | 5 => 1024
  | _ => 0

/-- The products of the loop, as far as it comes. -/
def ProductsExact (fCpu frequency : UInt32) : List (UInt16 × UInt8) → Prop
  | [] => True
  | entry :: rest =>
    (entry.1.toUInt32 * frequency).toNat = entry.1.toNat * frequency.toNat ∧
      (¬ inRange (fCpu / (entry.1.toUInt32 * frequency)) → ProductsExact fCpu frequency rest)

end Avr

/-! ## What is asked of a set-up -/

/-- A timer of one of the ports; a pair is a prescaler and the counts of a period. -/
structure PwmTimer where
  State : Type
  init : UInt32 → State → Option (HalStatus × State)
  clock : Nat
  Present : Prop
  /-- The pair that the call arrives at. -/
  computed : UInt32 → Option (Nat × Nat)
  /-- The pair that is in the registers. -/
  held : State → Nat × Nat
  /-- No difference and no product on the way wraps. -/
  Exact : UInt32 → Prop

/-- One count more would be too slow. -/
def Produces (clk frequency p t : Nat) : Prop :=
  2 ≤ t ∧ p * t * frequency ≤ clk ∧ clk < p * (t + 1) * frequency

/-- The call succeeds only with a pair that fits the registers and gives the frequency,
and does nothing where it refuses. -/
structure FrequencyKept (t : PwmTimer) (frequency : UInt32) (s : t.State) : Prop where
  exact : t.Exact frequency
  divides : t.init frequency s ≠ none
  kept : ∀ s', t.init frequency s = some (.ok, s') →
    t.Present ∧ t.computed frequency = some (t.held s') ∧
      Produces t.clock frequency.toNat (t.held s').1 (t.held s').2
  refused : ∀ status s', t.init frequency s = some (status, s') → status ≠ .ok →
    status = .errInvalidArg ∧ s' = s

/-! ## The ports -/

inductive Port
  | stm32 (duty : UInt32 → UInt32) (clocks : ApbClocks) (cfgr : UInt32) (pwm : PwmHandle)
  | avrTimer1 (duty : UInt16 → UInt32) (fCpu channel : UInt32)

/-- The clock of a timer before it goes through 32 bits. -/
def Stm32.inputClock (clocks : ApbClocks) (cfgr : UInt32) (timer : Tim) : Nat :=
  if ppre cfgr timer ≠ 0 then (busClk clocks timer).toNat * 2 else (busClk clocks timer).toNat

/-- Each value of `stm32_pwm_init` is what the arithmetic of the integers gives. -/
structure Stm32.Exact (clocks : ApbClocks) (cfgr : UInt32) (timer : Tim) (frequency : UInt32) :
    Prop where
  clock : (timerClk clocks cfgr timer).toNat = inputClock clocks cfgr timer
  psc : (timerClk clocks cfgr timer / 1000000 - 1).toNat + 1 =
    (timerClk clocks cfgr timer / 1000000).toNat
  arr : ∀ cfg, pwmConfig (timerClk clocks cfgr timer) frequency = some cfg →
    cfg.autoReload.toNat + 1 =
      (timerClk clocks cfgr timer).toNat / (cfg.prescaler.toNat + 1) / frequency.toNat

def Port.timer : Port → PwmTimer
  | .stm32 duty clocks cfgr pwm =>
    { State := Stm32.Timers
      init := halPwmInit (Stm32.stm32PwmInit duty clocks cfgr) (some pwm)
      clock := Stm32.inputClock clocks cfgr pwm.timer
      Present := pwm.timer.hasBase = true
      computed := fun frequency =>
        (Stm32.pwmConfig (Stm32.timerClk clocks cfgr pwm.timer) frequency).map fun cfg =>
          (cfg.prescaler.toNat + 1, cfg.autoReload.toNat + 1)
      held := fun s => ((s.bank pwm.timer).psc.toNat + 1, (s.bank pwm.timer).arr.toNat + 1)
      Exact := Stm32.Exact clocks cfgr pwm.timer }
  | .avrTimer1 duty fCpu channel =>
    { State := Avr.Regs
      init := halPwmInit (Avr.avrPwmInit duty fCpu) (some ⟨.tim1, channel⟩)
      clock := fCpu.toNat
      Present := True
      computed := fun frequency =>
        (Avr.firstFit fCpu frequency Avr.kDiv).bind fun fit =>
          fit.map fun ((div, _), period) => (div.toNat, period.toNat)
      held := fun s => (Avr.prescale s.tccr1b, s.icr1.toNat + 1)
      Exact := fun frequency =>
        channel = 1 ∨ channel = 2 → Avr.ProductsExact fCpu frequency Avr.kDiv }

end NavHAL.Pwm
