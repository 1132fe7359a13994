import Mathlib.Logic.Function.Basic
import NavHAL.Lib.Access
import NavHAL.Lib.Polling
import NavHAL.Status

/-!
# The I2C master of the STM32F4 (`i2c.c`)

The driver as a program of register accesses.  What answers to them is left open.
-/

namespace NavHAL.I2c.F4

open Access (Program perform)
open Polling (after)

/-! ## The driver -/

/-- The bits of `CR1` that a transaction writes. -/
inductive Cr1Bit
  | start
  | stop
  | ack
  | pos
  deriving DecidableEq, Repr

/-- The flags of `SR1` that it waits for. -/
inductive Sr1Flag
  | sb
  | addr
  | btf
  | rxne
  | txe
  deriving DecidableEq, Repr

/-- `CR1 |= bit`, `CR1 &= ~bit`, the data and status registers, and a call of
`_wait_flag`. -/
inductive I2cAccess
  | setCr1 (bit : Cr1Bit)
  | clearCr1 (bit : Cr1Bit)
  | writeDr (byte : BitVec 8)
  | readDr
  | readSr1
  | readSr2
  | waitFlag (flag : Sr1Flag)

abbrev Answer : I2cAccess → Type
  | .readDr => BitVec 8
  | .waitFlag _ => Bool
  | _ => Unit

abbrev I2cProgram := Program I2cAccess Answer

abbrev setCr1 (bit : Cr1Bit) : I2cProgram Unit := perform (I2cAccess.setCr1 bit)

abbrev clearCr1 (bit : Cr1Bit) : I2cProgram Unit := perform (I2cAccess.clearCr1 bit)

abbrev writeDr (byte : BitVec 8) : I2cProgram Unit := perform (I2cAccess.writeDr byte)

abbrev readDr : I2cProgram (BitVec 8) := perform I2cAccess.readDr

abbrev readSr1 : I2cProgram Unit := perform I2cAccess.readSr1

abbrev readSr2 : I2cProgram Unit := perform I2cAccess.readSr2

abbrev awaitFlag (flag : Sr1Flag) : I2cProgram Bool := perform (I2cAccess.waitFlag flag)

/-- What a pointer to a receive buffer points to. -/
abbrev Buffer := Nat → BitVec 8

/-- `TIMEOUT` -/
def i2cTimeout : Nat := 1000000

/-- The loop of `_wait_flag`: what is left of the timeout after it. -/
def waitLoop : Nat → (Nat → Bool) → Nat
  | 0, _ => 0
  | timeout + 1, polls => if polls 0 then timeout + 1 else waitLoop timeout (after polls 1)

/-- `_wait_flag`, by what its polls find. -/
def waitFlag (polls : Nat → Bool) : Bool := decide (0 < waitLoop i2cTimeout polls)

theorem waitLoop_pos_iff (timeout : Nat) (polls : Nat → Bool) :
    0 < waitLoop timeout polls ↔ ∃ k < timeout, polls k = true := by
  induction timeout generalizing polls with
  | zero => exact iff_of_false (Nat.lt_irrefl 0) fun ⟨k, hk, _⟩ => absurd hk (Nat.not_lt_zero k)
  | succ timeout ih =>
    rw [waitLoop]
    split
    · next hset => exact iff_of_true (Nat.succ_pos _) ⟨0, Nat.succ_pos _, hset⟩
    · next hclear =>
      rw [ih]
      constructor
      · rintro ⟨k, hk, hset⟩
        exact ⟨1 + k, by omega, hset⟩
      · rintro ⟨k, hk, hset⟩
        obtain ⟨j, rfl⟩ : ∃ j, k = 1 + j := by
          refine ⟨k - 1, ?_⟩
          have hne : k ≠ 0 := fun hzero => hclear (hzero ▸ hset)
          omega
        exact ⟨j, by omega, hset⟩

theorem waitFlag_iff (polls : Nat → Bool) :
    waitFlag polls = true ↔ ∃ k < i2cTimeout, polls k = true := by
  rw [waitFlag, decide_eq_true_iff, waitLoop_pos_iff]

/-- `_i2c_start` -/
def i2cStart : I2cProgram HalStatus := do
  setCr1 .start
  if !(← awaitFlag .sb) then return .errTimeout
  else return .ok

/-- `_i2c_stop` -/
def i2cStop : I2cProgram Unit := setCr1 .stop

/-- `_i2c_write_addr` -/
def i2cWriteAddr (addr : BitVec 8) : I2cProgram HalStatus := do
  writeDr addr
  if !(← awaitFlag .addr) then return .errTimeout
  readSr1
  readSr2
  return .ok

/-- `_i2c_write_data` -/
def i2cWriteData (data : BitVec 8) : I2cProgram HalStatus := do
  if !(← awaitFlag .txe) then return .errTimeout
  writeDr data
  if !(← awaitFlag .btf) then return .errTimeout
  else return .ok

/-- The loop over the data bytes: `n` of them, from byte `i` on. -/
def writeLoop (data : Nat → BitVec 8) : Nat → Nat → I2cProgram HalStatus
  | _, 0 => return .ok
  | i, n + 1 => do
    let status ← i2cWriteData (data i)
    if status ≠ .ok then
      i2cStop
      return status
    writeLoop data (i + 1) n

/-- `_i2c_bus_valid`, with `STM32_I2C_BUS_COUNT` -/
def i2cBusValid (bus : UInt32) : Bool := decide (bus < 3)

def stm32I2cWrite (bus : UInt32) (devAddr : BitVec 8) (data : Nat → BitVec 8) (len : UInt16) :
    I2cProgram HalStatus := do
  if !i2cBusValid bus then return .errInvalidArg
  let status ← i2cStart
  if status ≠ .ok then return status
  let status ← i2cWriteAddr (devAddr <<< 1)
  if status ≠ .ok then
    i2cStop
    return status
  let status ← writeLoop data 0 len.toNat
  if status ≠ .ok then return status
  i2cStop
  return .ok

/-- The loop of `stm32_i2c_read`: `n` bytes are left, the next is byte `i`. -/
def readLoop : Nat → Nat → Buffer → I2cProgram (HalStatus × Buffer)
  | _, 0, data => do
    setCr1 .ack
    return (.ok, data)
  | i, n + 1, data => do
    -- i == len - 1
    if n = 0 then
      clearCr1 .ack
      i2cStop
    else
      setCr1 .ack
    if !(← awaitFlag .rxne) then
      i2cStop
      return (.errTimeout, data)
    let byte ← readDr
    readLoop (i + 1) n (Function.update data i byte)

def stm32I2cRead (bus : UInt32) (devAddr : BitVec 8) (data : Buffer) (len : UInt16) :
    I2cProgram (HalStatus × Buffer) := do
  if !i2cBusValid bus then return (.errInvalidArg, data)
  if len = 0 then return (.errIo, data)
  if (← i2cStart) ≠ .ok then return (.errTimeout, data)
  if (← i2cWriteAddr (devAddr <<< 1 ||| 1)) ≠ .ok then
    i2cStop
    return (.errTimeout, data)
  readLoop 0 len.toNat data

/-- Case `N == 1` of the read phase. -/
def readOne (rxData : Buffer) : I2cProgram (HalStatus × Buffer) := do
  clearCr1 .ack
  readSr1
  readSr2
  setCr1 .stop
  if !(← awaitFlag .rxne) then return (.errTimeout, rxData)
  let byte ← readDr
  return (.ok, Function.update rxData 0 byte)

/-- Case `N == 2`. -/
def readTwo (rxData : Buffer) : I2cProgram (HalStatus × Buffer) := do
  clearCr1 .ack
  setCr1 .pos
  readSr1
  readSr2
  if !(← awaitFlag .btf) then return (.errTimeout, rxData)
  setCr1 .stop
  let first ← readDr
  let second ← readDr
  clearCr1 .pos
  return (.ok, Function.update (Function.update rxData 0 first) 1 second)

/-- The last three bytes of case `N > 2`, from byte `i` on. -/
def readLastThree (i : Nat) (rxData : Buffer) : I2cProgram (HalStatus × Buffer) := do
  if !(← awaitFlag .btf) then return (.errTimeout, rxData)
  clearCr1 .ack
  let first ← readDr
  let rxData := Function.update rxData i first
  if !(← awaitFlag .btf) then return (.errTimeout, rxData)
  setCr1 .stop
  let second ← readDr
  let third ← readDr
  setCr1 .ack
  return (.ok, Function.update (Function.update rxData (i + 1) second) (i + 2) third)

/-- Case `N > 2`: `n` bytes, from byte `i` on, by way of `RXNE`, and then the last three. -/
def readMany : Nat → Nat → Buffer → I2cProgram (HalStatus × Buffer)
  | i, 0, rxData => readLastThree i rxData
  | i, n + 1, rxData => do
    if !(← awaitFlag .rxne) then return (.errTimeout, rxData)
    let byte ← readDr
    readMany (i + 1) n (Function.update rxData i byte)

/-- The read phase of `stm32_i2c_write_read`, after the address. -/
def readPhase (rxData : Buffer) (rxLen : UInt16) : I2cProgram (HalStatus × Buffer) := do
  setCr1 .ack
  if rxLen = 1 then readOne rxData
  else if rxLen = 2 then readTwo rxData
  else
    readSr1
    readSr2
    readMany 0 (rxLen.toNat - 3) rxData

def stm32I2cWriteRead (bus : UInt32) (devAddr : BitVec 8) (txData : Nat → BitVec 8) (txLen : UInt16)
    (rxData : Buffer) (rxLen : UInt16) : I2cProgram (HalStatus × Buffer) := do
  if !i2cBusValid bus then return (.errInvalidArg, rxData)
  if rxLen = 0 then return (.errIo, rxData)
  let status ← i2cStart
  if status ≠ .ok then return (status, rxData)
  let status ← i2cWriteAddr (devAddr <<< 1 ||| 0)
  if status ≠ .ok then
    i2cStop
    return (status, rxData)
  let status ← writeLoop txData 0 txLen.toNat
  if status ≠ .ok then return (status, rxData)
  let status ← i2cStart
  if status ≠ .ok then
    i2cStop
    return (status, rxData)
  let status ← i2cWriteAddr (devAddr <<< 1 ||| 1)
  if status ≠ .ok then
    i2cStop
    return (status, rxData)
  readPhase rxData rxLen

/-! ## Calls -/

/-- The public calls, a missing buffer being a `NULL` pointer. -/
inductive Transaction
  | write (data : Option (Nat → BitVec 8)) (len : UInt16)
  | read (data : Option Buffer) (len : UInt16)
  | writeRead (txData : Option (Nat → BitVec 8)) (txLen : UInt16) (rxData : Option Buffer)
      (rxLen : UInt16)

structure Call where
  bus : UInt32
  devAddr : BitVec 8
  transaction : Transaction

/-- `hal_i2c_write`, `hal_i2c_read` and `hal_i2c_write_read`, up to their status. -/
def Call.program (call : Call) : I2cProgram HalStatus :=
  match call.transaction with
  | .write (some data) len => stm32I2cWrite call.bus call.devAddr data len
  | .read (some data) len => do
    let (status, _) ← stm32I2cRead call.bus call.devAddr data len
    return status
  | .writeRead (some txData) txLen (some rxData) rxLen => do
    let (status, _) ← stm32I2cWriteRead call.bus call.devAddr txData txLen rxData rxLen
    return status
  | _ => return .errInvalidArg

end NavHAL.I2c.F4
