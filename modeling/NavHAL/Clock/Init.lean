import NavHAL.Lib.BitField
import NavHAL.Clock.Rcc

/-!
# Programming and reading the clock tree

`stm32ClockInit` with the getters that read the tree back from the registers.
A wait is over at once or never, since the hardware has settled when it is
reached; `running` keeps the register states from the switch of SYSCLK on.
-/

namespace NavHAL.Clock

/-! ## The oscillators and the PLL -/

/-- `if ((st = f()) != HAL_OK) return st;` -/
def orReturn (res : HalStatus × Regs) (next : Regs → HalStatus × Regs) : HalStatus × Regs :=
  if res.1 = .ok then next res.2 else res

/-- `WAIT_OR_TIMEOUT(cond)` -/
def waitOrTimeout (cond : Regs → Bool) (r : Regs) : HalStatus × Regs :=
  if cond r then (.errTimeout, r) else (.ok, r)

def crIsSet (bit : BitVec 32) (r : Regs) : Bool := r.cr &&& bit != 0

def toggleHseClock (b : Board) (state : Bool) (r : Regs) : HalStatus × Regs :=
  if state then
    -- HSEBYP is writable only while HSE is off
    orReturn
      (if b.hseBypass && !crIsSet crHsebyp r then
        orReturn (waitOrTimeout (crIsSet crHserdy) (r.writeCr (r.cr &&& ~~~crHseon))) fun r =>
          (.ok, r.writeCr (r.cr ||| crHsebyp))
      else (.ok, r)) fun r =>
    waitOrTimeout (fun r => crIsSet crHserdy r != state) (r.writeCr (r.cr ||| crHseon))
  else
    waitOrTimeout (fun r => crIsSet crHserdy r != state) (r.writeCr (r.cr &&& ~~~crHseon))

def toggleHsiClock (state : Bool) (r : Regs) : HalStatus × Regs :=
  let r := if state then r.writeCr (r.cr ||| crHsion) else r.writeCr (r.cr &&& ~~~crHsion)
  waitOrTimeout (fun r => crIsSet crHsirdy r != state) r

def togglePllClock (state : Bool) (r : Regs) : HalStatus × Regs :=
  let r := if state then r.writeCr (r.cr ||| crPllon) else r.writeCr (r.cr &&& ~~~crPllon)
  waitOrTimeout (fun r => crIsSet crPllrdy r != state) r

/-- The parameters of the PLL, written while it is off. -/
def writePll (pll : PllConfig) (r : Regs) : Regs :=
  let r := r.writePllcfgr 0
  let r :=
    if pll.inputSrc = .hsi then r.writePllcfgr (r.pllcfgr &&& ~~~pllcfgrSrc)
    else r.writePllcfgr (r.pllcfgr ||| pllcfgrSrc)
  r.writePllcfgr (r.pllcfgr |||
    (pllcfgrPllm pll.pllM ||| pllcfgrPlln pll.pllN ||| pllcfgrPllp pll.pllP |||
      pllcfgrPllq pll.pllQ))

/-- The oscillator is enabled and ready. -/
def startOscillator (b : Board) (src : ClockSource) (r : Regs) : HalStatus × Regs :=
  match src with
  | .hse => toggleHseClock b true r
  | .hsi => toggleHsiClock true r
  | .pll => (.ok, r)

def startSource (b : Board) (cfg : ClockConfig) (r : Regs) : HalStatus × Regs :=
  match cfg.source with
  | .hse => startOscillator b .hse r
  | .hsi => startOscillator b .hsi r
  | .pll =>
    orReturn (startOscillator b cfg.pll.inputSrc r) fun r =>
    orReturn (togglePllClock false r) fun r =>
    togglePllClock true (writePll cfg.pll r)

/-! ## Frequencies and dividers -/

/-- The formula of the PLL output, in 32 bits. -/
def pllHz (vcoIn m n p : Nat) : Nat := vcoIn / m * n % 4294967296 / p

def targetSysclkHz (b : Board) (cfg : ClockConfig) : Nat :=
  if cfg.source = .hse then b.hseFreqHz.toNat
  else if cfg.source ≠ .pll then b.hsiFreqHz.toNat
  else if cfg.pll.pllM = 0 ∨ cfg.pll.pllP = 0 then 0
  else
    let vcoIn := if cfg.pll.inputSrc = .hse then b.hseFreqHz else b.hsiFreqHz
    pllHz vcoIn.toNat cfg.pll.pllM.toNat cfg.pll.pllN.toNat cfg.pll.pllP.toNat

/-- The wait states for an HCLK, one more for every 30 MHz. -/
def flashWsFor (hclk : Nat) : Nat :=
  let ws := if hclk = 0 then 0 else (hclk - 1) / 30000000
  if ws > 7 then 7 else ws

/-- The loop of `_min_div_for`; it doubles at most four times. -/
def minDivLoop (hclk limitHz : Nat) : Nat → Nat → Nat
  | 0, d => d
  | fuel + 1, d => if d < 16 ∧ hclk / d > limitHz then minDivLoop hclk limitHz fuel (d * 2) else d

/-- The smallest divider that keeps a bus at or under its ceiling. -/
def minDivFor (hclk limitHz : Nat) : Nat := minDivLoop hclk limitHz 4 1

namespace ClockConfig

variable (b : Board) (cfg : ClockConfig)

def hpre : Nat := if cfg.hpreDiv ≠ 0 then cfg.hpreDiv.toNat else 1

def hclk : Nat := targetSysclkHz b cfg / cfg.hpre

/-- The divider asked for, 2 by default, raised to what the ceiling needs. -/
def ppre (asked : UInt16) (limitHz : Nat) : Nat :=
  let div := if asked ≠ 0 then asked.toNat else 2
  let min := minDivFor (cfg.hclk b) limitHz
  if div < min then min else div

def ppre1 : Nat := cfg.ppre b cfg.ppre1Div 42000000

def ppre2 : Nat := cfg.ppre b cfg.ppre2Div 84000000

/-- The codes of the three dividers, when the fields can express them. -/
def prescalers : Option (BitVec 32 × BitVec 32 × BitVec 32) :=
  if targetSysclkHz b cfg = 0 then none
  else
    match hpreEncode cfg.hpre, ppreEncode (cfg.ppre1 b), ppreEncode (cfg.ppre2 b) with
    | some hpre, some ppre1, some ppre2 => some (hpre, ppre1, ppre2)
    | _, _, _ => none

end ClockConfig

/-! ## Initialisation -/

def acrPrften : BitVec 32 := 1#32 <<< 8
def acrIcen : BitVec 32 := 1#32 <<< 9
def acrDcen : BitVec 32 := 1#32 <<< 10
def acrIcrst : BitVec 32 := 1#32 <<< 11
def acrDcrst : BitVec 32 := 1#32 <<< 12

/-- The register after each of the four writes: caches off, flushed, released, on. -/
def flashSetAcr (hclk : Nat) (r : Regs) : List Regs :=
  let ws := BitVec.ofNat 32 (flashWsFor hclk) <<< 0
  [ { r with acr := ws },
    { r with acr := ws ||| acrIcrst ||| acrDcrst },
    { r with acr := ws },
    { r with acr := ws ||| acrPrften ||| acrIcen ||| acrDcen } ]

def writePrescalers (bits : BitVec 32 × BitVec 32 × BitVec 32) (r : Regs) : Regs :=
  let r := r.writeCfgr (r.cfgr &&& ~~~(cfgrHpreMask ||| cfgrPpre1Mask ||| cfgrPpre2Mask))
  r.writeCfgr (r.cfgr |||
    (bits.1 <<< cfgrHpreBit ||| bits.2.1 <<< cfgrPpre1Bit ||| bits.2.2 <<< cfgrPpre2Bit))

def switchSysclk (source : ClockSource) (r : Regs) : HalStatus × Regs :=
  let r := r.writeCfgr (r.cfgr &&& ~~~(3#32 <<< 0))
  let r :=
    match source with
    | .hsi => r
    | .hse => r.writeCfgr (r.cfgr ||| 1#32 <<< 0)
    | .pll => r.writeCfgr (r.cfgr ||| 2#32 <<< 0)
  waitOrTimeout (fun r => r.sws != source.sw) r

structure InitResult where
  status : HalStatus
  regs : Regs
  /-- The register states since SYSCLK was switched. -/
  running : List Regs

def InitResult.stop (status : HalStatus) (regs : Regs) : InitResult where
  status := status
  regs := regs
  running := []

def stm32ClockInit (b : Board) (cfg : ClockConfig) (r : Regs) : InitResult :=
  if cfg.source = .pll ∧ (cfg.pll.pllM = 0 ∨ cfg.pll.pllN = 0 ∨ cfg.pll.pllP = 0) then
    .stop .errInvalidArg r
  else
    let res := startSource b cfg r
    if res.1 ≠ .ok then .stop res.1 res.2
    else
      -- on the way up the wait states come before the switch
      let r :=
        if cfg.source = .pll then
          (flashSetAcr (targetSysclkHz b cfg) res.2).getLastD res.2
        else res.2
      match cfg.prescalers b with
      | none => .stop .errInvalidArg r
      | some bits =>
        let res := switchSysclk cfg.source (writePrescalers bits r)
        if res.1 ≠ .ok then .stop res.1 res.2
        else
          let r := res.2
          let writes :=
            if cfg.source ≠ .pll then flashSetAcr (targetSysclkHz b cfg) r else []
          { status := .ok, regs := writes.getLastD r, running := r :: writes }

/-! ## Reading back -/

def stm32ClockGetSysclk (b : Board) (r : Regs) : Nat :=
  match (r.cfgr >>> 2 &&& 3#32).toNat with
  | 0 => b.hsiFreqHz.toNat
  | 1 => b.hseFreqHz.toNat
  | 2 =>
    let pllM := (r.pllcfgr >>> 0 &&& 0x3F#32).toNat
    let pllN := (r.pllcfgr >>> 6 &&& 0x1FF#32).toNat
    let pllP := ((r.pllcfgr >>> 16 &&& 3#32).toNat + 1) * 2
    let pllSrc := r.pllcfgr >>> 22 &&& 1#32
    let vcoIn := if pllSrc ≠ 0 then b.hseFreqHz else b.hsiFreqHz
    pllHz vcoIn.toNat pllM pllN pllP
  | _ => 0

def Regs.hpreField (r : Regs) : BitVec 32 := r.cfgr >>> cfgrHpreBit &&& 0xF#32
def Regs.ppre1Field (r : Regs) : BitVec 32 := r.cfgr >>> cfgrPpre1Bit &&& 0x7#32
def Regs.ppre2Field (r : Regs) : BitVec 32 := r.cfgr >>> cfgrPpre2Bit &&& 0x7#32

def stm32ClockGetAhbclk (b : Board) (r : Regs) : Nat :=
  stm32ClockGetSysclk b r / decodePrescaler r.hpreField

def stm32ClockGetApb1clk (b : Board) (r : Regs) : Nat :=
  stm32ClockGetSysclk b r / decodeApbPrescaler r.ppre1Field

def stm32ClockGetApb2clk (b : Board) (r : Regs) : Nat :=
  stm32ClockGetSysclk b r / decodeApbPrescaler r.ppre2Field

def halClockBusCount : Nat := 3

def stm32ClockGetBusClock (b : Board) (r : Regs) (bus : Nat) : Nat :=
  match bus with
  | 0 => stm32ClockGetAhbclk b r
  | 1 => stm32ClockGetApb1clk b r
  | 2 => stm32ClockGetApb2clk b r
  | _ => 0

/-- The shared layer checks the bus once for every backend. -/
def halClockGetBusClock (b : Board) (r : Regs) (bus : Nat) : Nat :=
  if bus ≥ halClockBusCount then 0 else stm32ClockGetBusClock b r bus

end NavHAL.Clock
