import NavHAL.Flash.Calls
import NavHAL.Lib.Steps

/-!
# The key/value store in the EEPROM of the ATmega328P

A call is a program over the bytes of the EEPROM.  It has no result when it reads or
writes outside the array, or does not end.
-/

namespace NavHAL.Avr

open Memory
open Flash (KvMap SavedValue emptyMap)

def kvMagic : UInt8 := 0xA5
def kvValid : UInt8 := 0x01
def kvDeleted : UInt8 := 0x00
def kvHdr : Nat := 6
/-- `E2END + 1` -/
def kvSize : Nat := 1024

abbrev Ee := StateT Mem Option

def eeGet (off : Nat) : Ee UInt8 := fun mem => if off < kvSize then some (mem off, mem) else none

def eePut (off : Nat) (val : UInt8) : Ee Unit := fun mem =>
  if off < kvSize then some ((), Function.update mem off val) else none

/-! ## The chain of records -/

/-- The status is read when the key matches. -/
def kvHit (key status : UInt8) (off : Nat) : Ee Bool := do
  let k ← eeGet (off + 1)
  if k = key then do
    let st ← eeGet (off + 3)
    pure (decide (st = status))
  else pure false

/-- No offset is above 1018 when a record is passed, so that none wraps. -/
def kvFindFrom (key status : UInt8) : Nat → Nat → Ee (Option Nat)
  | 0, _ => failure
  | fuel + 1, off =>
    if off + kvHdr ≤ kvSize then do
      let magic ← eeGet off
      if magic ≠ kvMagic then pure none
      else do
        let hit ← kvHit key status off
        if hit then pure (some off)
        else do
          let size ← eeGet (off + 2)
          kvFindFrom key status fuel (off + kvHdr + size.toNat)
    else pure none

/-- A record takes six bytes at least. -/
def kvFuel : Nat := kvSize / kvHdr + 1

def kvFind (key status : UInt8) : Ee (Option Nat) := kvFindFrom key status kvFuel 0

def kvEndFrom : Nat → Nat → Ee Nat
  | 0, _ => failure
  | fuel + 1, off =>
    if off + kvHdr ≤ kvSize then do
      let magic ← eeGet off
      if magic ≠ kvMagic then pure off
      else do
        let size ← eeGet (off + 2)
        kvEndFrom fuel (off + kvHdr + size.toNat)
    else pure off

def kvEnd : Ee Nat := kvEndFrom kvFuel 0

def kvCrc (value : List UInt8) : UInt8 := value.foldl (· ^^^ ·) 0

def getBytes : Nat → Nat → Ee (List UInt8)
  | _, 0 => pure []
  | off, n + 1 => do
    let b ← eeGet off
    let bs ← getBytes (off + 1) n
    pure (b :: bs)

def putBytes : Nat → List UInt8 → Ee Unit
  | _, [] => pure ()
  | off, b :: bs => do
    eePut off b
    putBytes (off + 1) bs

/-! ## The calls -/

def supersede : Option Nat → Ee Unit
  | none => pure ()
  | some old => eePut (old + 3) kvDeleted

def avrFlashSave (key : UInt8) (value : List UInt8) (size : UInt8) : Ee HalStatus := do
  let old ← kvFind key kvValid
  supersede old
  let off ← kvEnd
  if off + kvHdr + size.toNat > kvSize then pure .err
  else do
    eePut off kvMagic
    eePut (off + 1) key
    eePut (off + 2) size
    eePut (off + 3) kvValid
    eePut (off + 4) 0
    eePut (off + 5) (kvCrc (value.take size.toNat))
    putBytes (off + kvHdr) (value.take size.toNat)
    pure .ok

/-- What a read hands back; `written` is what stands in `*size` and the buffer, if it wrote
them. -/
structure EeRead where
  status : HalStatus
  written : Option (UInt8 × List UInt8)

def avrFlashRead (key : UInt8) : Ee EeRead := do
  let off ← kvFind key kvValid
  match off with
  | none => pure ⟨.err, none⟩
  | some off =>
    let rsize ← eeGet (off + 2)
    let rcrc ← eeGet (off + 5)
    let value ← getBytes (off + kvHdr) rsize.toNat
    pure ⟨if kvCrc value = rcrc then .ok else .err, some (rsize, value)⟩

def avrFlashDelete (key : UInt8) : Ee HalStatus := do
  let off ← kvFind key kvValid
  match off with
  | none => pure .err
  | some off =>
    eePut (off + 3) kvDeleted
    pure .ok

def avrFlashErase : Ee HalStatus := do
  putBytes 0 (List.replicate kvSize 0xFF)
  pure .ok

/-- The shared layer checks for a size of 0. -/
def halFlashSave (key : UInt8) (value : List UInt8) (size : UInt8) : Ee HalStatus :=
  if size = 0 then pure .errInvalidArg else avrFlashSave key value size

def halFlashRead (key : UInt8) : Ee EeRead := avrFlashRead key

def halFlashDelete (key : UInt8) : Ee HalStatus := avrFlashDelete key

def halFlashErase : Ee HalStatus := avrFlashErase

inductive EeCall
  | save (key : UInt8) (value : SavedValue)
  | read (key : UInt8)
  | delete (key : UInt8)
  | erase

def eeCall : EeCall → Ee HalStatus
  | .save key value => halFlashSave key value.bytes (UInt8.ofNat value.bytes.length)
  | .read key => do
    let out ← halFlashRead key
    pure out.status
  | .delete key => halFlashDelete key
  | .erase => halFlashErase

/-! ## The map that the calls describe -/

def mapStep (m : KvMap) : EeCall → HalStatus → KvMap
  | .save key value, .ok => Function.update m key (some value.bytes)
  | .save .., _ => m
  | .read _, _ => m
  | .delete key, _ => Function.update m key none
  | .erase, _ => emptyMap

/-- The read returns, with the value or with an error. -/
def Reads (mem : Mem) (key : UInt8) (value : Option (List UInt8)) : Prop :=
  ∃ out mem', halFlashRead key mem = some (out, mem') ∧
    match value with
    | some bytes => out.status = .ok ∧ out.written = some (UInt8.ofNat bytes.length, bytes)
    | none => out.status ≠ .ok

def ReadsAs (mem : Mem) (m : KvMap) : Prop := ∀ key, Reads mem key (m key)

/-- The EEPROM and what has been stored. -/
structure World where
  mem : Mem
  map : KvMap

/-- A call; one without a result leaves everything. -/
def step (w : World) (call : EeCall) : World :=
  match eeCall call w.mem with
  | some (status, mem) => ⟨mem, mapStep w.map call status⟩
  | none => w

/-- The call stays within the EEPROM and ends, every key reads afterwards as the map says,
and as before if the call reports an error. -/
def Right (w : World) (call : EeCall) : Prop :=
  ∃ status mem, eeCall call w.mem = some (status, mem) ∧ ReadsAs mem (mapStep w.map call status) ∧
    (status ≠ .ok → ∀ key, (halFlashRead key mem).map Prod.fst = (halFlashRead key w.mem).map Prod.fst)

/-- A save that supersedes a record finds room behind the chain. -/
def HasRoom (w : World) : EeCall → Prop
  | .save key value => ∀ old, kvFind key kvValid w.mem = some (some old, w.mem) →
      ∃ off, kvEnd w.mem = some (off, w.mem) ∧ off + kvHdr + value.bytes.length ≤ kvSize
  | _ => True

end NavHAL.Avr
