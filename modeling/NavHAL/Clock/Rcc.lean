import Mathlib.Data.BitVec
import NavHAL.Status

/-!
# The reset and clock controller

The registers that decide the clock tree, their fields as `rcc_reg.h` encodes
them, and the hardware's side of a write: a ready bit follows its enable, the
switch status follows the switch, and what drives SYSCLK cannot be turned off.
-/

namespace NavHAL.Clock

/-- The oscillators of the board, and how it feeds HSE. -/
structure Board where
  hsiFreqHz : UInt32
  hseFreqHz : UInt32
  hseBypass : Bool

inductive ClockSource
  | hsi
  | hse
  | pll
  deriving DecidableEq

structure PllConfig where
  inputSrc : ClockSource
  pllM : UInt8
  pllN : UInt16
  pllP : UInt8
  pllQ : UInt8

/-- Dividers divide by their value; 0 leaves the choice to the driver. -/
structure ClockConfig where
  source : ClockSource
  hpreDiv : UInt16
  ppre1Div : UInt16
  ppre2Div : UInt16
  pll : PllConfig

/-- `RCC_CR`, `RCC_PLLCFGR`, `RCC_CFGR` and `FLASH_ACR`. -/
structure Regs where
  cr : BitVec 32
  pllcfgr : BitVec 32
  cfgr : BitVec 32
  acr : BitVec 32

/-! ## Bits -/

def crHseon : BitVec 32 := 1#32 <<< 16
def crHserdy : BitVec 32 := 1#32 <<< 17
def crHsebyp : BitVec 32 := 1#32 <<< 18
def crHsion : BitVec 32 := 1#32 <<< 0
def crHsirdy : BitVec 32 := 1#32 <<< 1
def crPllon : BitVec 32 := 1#32 <<< 24
def crPllrdy : BitVec 32 := 1#32 <<< 25

def pllcfgrSrc : BitVec 32 := 1#32 <<< 22

def pllcfgrPllm (m : UInt8) : BitVec 32 := (BitVec.ofNat 32 m.toNat &&& 0x3F#32) <<< 0

def pllcfgrPlln (n : UInt16) : BitVec 32 := (BitVec.ofNat 32 n.toNat &&& 0x1FF#32) <<< 6

-- the one field that is not masked
def pllcfgrPllp (p : UInt8) : BitVec 32 := (BitVec.ofNat 32 (p.toNat >>> 1) - 1#32) <<< 16

def pllcfgrPllq (q : UInt8) : BitVec 32 := (BitVec.ofNat 32 q.toNat &&& 0x0F#32) <<< 24

def cfgrHpreBit : Nat := 4
def cfgrPpre1Bit : Nat := 10
def cfgrPpre2Bit : Nat := 13

def cfgrHpreMask : BitVec 32 := 0xF#32 <<< cfgrHpreBit
def cfgrPpre1Mask : BitVec 32 := 0x7#32 <<< cfgrPpre1Bit
def cfgrPpre2Mask : BitVec 32 := 0x7#32 <<< cfgrPpre2Bit

/-- The switch bits that select a source. -/
def ClockSource.sw : ClockSource → BitVec 32
  | hsi => 0
  | hse => 1
  | pll => 2

namespace Regs

def sws (r : Regs) : BitVec 32 := r.cfgr >>> 2 &&& 3#32

/-! ## Writes -/

/-- The enables that the hardware holds while they feed SYSCLK. -/
def held (r : Regs) : BitVec 32 :=
  if r.sws = 2 then crPllon ||| (if r.pllcfgr &&& pllcfgrSrc ≠ 0 then crHseon else crHsion)
  else if r.sws = 1 then crHseon
  else crHsion

/-- Every ready bit is the one above its enable. -/
def writeCr (v : BitVec 32) (r : Regs) : Regs :=
  let on := crHseon ||| crHsion ||| crPllon
  let v := v ||| (r.cr &&& r.held)
  { r with cr := (v &&& ~~~(on <<< 1)) ||| ((v &&& on) <<< 1) }

def writePllcfgr (v : BitVec 32) (r : Regs) : Regs := { r with pllcfgr := v }

def writeCfgr (v : BitVec 32) (r : Regs) : Regs :=
  { r with cfgr := (v &&& ~~~(3#32 <<< 2)) ||| ((v &&& 3#32) <<< 2) }

end Regs

/-! ## Dividers -/

/-- HPRE skips 32. -/
def hpreEncode : Nat → Option (BitVec 32)
  | 1 => some 0x0
  | 2 => some 0x8
  | 4 => some 0x9
  | 8 => some 0xA
  | 16 => some 0xB
  | 64 => some 0xC
  | 128 => some 0xD
  | 256 => some 0xE
  | 512 => some 0xF
  | _ => none

def ppreEncode : Nat → Option (BitVec 32)
  | 1 => some 0x0
  | 2 => some 0x4
  | 4 => some 0x5
  | 8 => some 0x6
  | 16 => some 0x7
  | _ => none

def decodePrescaler (val : BitVec 32) : Nat :=
  match val.toNat with
  | 0x0 => 1
  | 0x8 => 2
  | 0x9 => 4
  | 0xA => 8
  | 0xB => 16
  | 0xC => 64
  | 0xD => 128
  | 0xE => 256
  | 0xF => 512
  | _ => 1

def decodeApbPrescaler (val : BitVec 32) : Nat :=
  match val.toNat with
  | 0x0 => 1
  | 0x4 => 2
  | 0x5 => 4
  | 0x6 => 8
  | 0x7 => 16
  | _ => 1

/-- The two tables of HPRE agree, and the code fits the field. -/
theorem hpreEncode_eq_some {div : Nat} {bits : BitVec 32} (h : hpreEncode div = some bits) :
    decodePrescaler bits = div ∧ bits.toNat < 16 ∧ 0 < div := by
  unfold hpreEncode at h
  split at h
  all_goals cases h
  all_goals decide

theorem ppreEncode_eq_some {div : Nat} {bits : BitVec 32} (h : ppreEncode div = some bits) :
    decodeApbPrescaler bits = div ∧ bits.toNat < 8 ∧ 0 < div := by
  unfold ppreEncode at h
  split at h
  all_goals cases h
  all_goals decide

/-! ## Out of reset -/

/-- The oscillators of the boards with this part. -/
def f401Board : Board where
  hsiFreqHz := 16000000
  hseFreqHz := 8000000
  hseBypass := true

def Regs.atReset : Regs where
  cr := 0x83
  pllcfgr := 0x24003010
  cfgr := 0
  acr := 0

end NavHAL.Clock
