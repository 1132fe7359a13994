import NavHAL.Flash.Store
import Mathlib.Logic.Function.Basic

/-!
# Sequences of store calls

The calls of `hal_flash.h`, the finite map that a sequence of them describes,
and the condition (`SaveOk`) under which one save keeps within the `uint8_t`
lengths and the sector ends.  The condition is read off the headers found in
flash before the save.
-/

namespace NavHAL.Flash

open Memory

/-! ## Calls and the map they describe -/

/-- A value a caller may save: its size is a `uint8_t` and not 0. -/
structure SavedValue where
  bytes : List UInt8
  size_pos : 0 < bytes.length
  size_le : bytes.length ≤ 255

theorem SavedValue.size_lt (value : SavedValue) : value.bytes.length < 256 :=
  Nat.lt_succ_of_le value.size_le

/-- The calls of `hal_flash.h`.  `reserved` is the stack byte that a save
leaves in the header it writes. -/
inductive KvCall
  | save (key : UInt8) (value : SavedValue) (reserved : UInt8)
  | delete (key : UInt8)
  | erase
  | read (key : UInt8)

/-- One call; `none` when it does not return. -/
def kvStep (s : Storage) (dev : FlashDev) : KvCall → Option (HalStatus × FlashDev)
  | .save key value reserved => halFlashSave s dev key value.bytes reserved
  | .delete key => some (halFlashDelete s dev key)
  | .erase => some (halFlashErase s dev)
  | .read key => some ((halFlashRead s dev.mem key).status, dev)

/-- What is stored: the last save that returned `HAL_OK` since the last
delete or erase. -/
abbrev KvMap := UInt8 → Option (List UInt8)

def emptyMap : KvMap := fun _ => none

def mapStep (m : KvMap) : KvCall → HalStatus → KvMap
  | .save key value _, .ok => Function.update m key (some value.bytes)
  | .save .., _ => m
  | .delete key, _ => Function.update m key none
  | .erase, _ => emptyMap
  | .read _, _ => m

/-- What `hal_flash_read` must return for a key. -/
def ReadResult.Matches (res : ReadResult) : Option (List UInt8) → Prop
  | some value => res.status = .ok ∧ res.size.toNat = value.length ∧ res.value = value
  | none => res.status ≠ .ok ∧ res.size = 0

def ReadsAs (s : Storage) (mem : Mem) (m : KvMap) : Prop :=
  ∀ key, (halFlashRead s mem key).Matches (m key)

/-- Every call returns, and before and after each one the flash stands in the
relation `reads` to the map. -/
def AgreesAlong (s : Storage) (reads : Mem → KvMap → Prop) : FlashDev → KvMap → List KvCall → Prop
  | dev, m, [] => reads dev.mem m
  | dev, m, call :: calls => reads dev.mem m ∧ ∃ status dev',
      kvStep s dev call = some (status, dev') ∧
        AgreesAlong s reads dev' (mapStep m call status) calls

/-- The calls in order; `none` when one of them does not return. -/
def runCalls (s : Storage) : FlashDev → List KvCall → Option FlashDev
  | dev, [] => some dev
  | dev, call :: calls =>
    match kvStep s dev call with
    | some (_, dev') => runCalls s dev' calls
    | none => none

/-- Both sectors read as `0xFF`. -/
def Erased (s : Storage) (mem : Mem) : Prop :=
  Shows mem s.primaryStart s.primarySize [] ∧ Shows mem s.secondaryStart s.secondarySize []

/-- Fresh flash. -/
def blankDev : FlashDev := { mem := fun _ => 0xFF }

/-! ## When a save stays within its arithmetic -/

/-- The headers of the primary sector, in order. -/
def primaryHeadersFrom (s : Storage) (mem : Mem) : Nat → Nat → List FlashRecord
  | 0, _ => []
  | fuel + 1, ptr =>
    if (recordAt mem ptr).magic = flashMagicNumber ∧ ptr < s.primaryEnd then
      recordAt mem ptr :: primaryHeadersFrom s mem fuel
        (ptr + (recordAt mem ptr).size.toNat + recordSize)
    else []

def primaryHeaders (s : Storage) (mem : Mem) : List FlashRecord :=
  primaryHeadersFrom s mem (s.primaryEnd - s.primaryStart) s.primaryStart

/-- The bytes that records with these headers take. -/
def usedBytes : List FlashRecord → Nat
  | [] => 0
  | h :: hs => 6 + h.size.toNat + usedBytes hs

def liveHeaders (hs : List FlashRecord) : List FlashRecord :=
  hs.filter fun h => decide (h.status = flashValid)

/-- `total_size` does not wrap, nor does its rounding when the record is copied. -/
def FlashRecord.Movable (h : FlashRecord) : Prop :=
  (h.status = flashValid → 6 + h.size.toNat ≤ 254) ∧
    (h.status = flashDeleted → 6 + h.size.toNat ≤ 255)

instance (h : FlashRecord) : Decidable h.Movable := by
  unfold FlashRecord.Movable
  infer_instance

/-- The condition on a save of `len` bytes: `padded_size` does not wrap, the
record ends inside the primary sector, and a compaction on the way moves
records it can move into a sector that holds them. -/
def SaveOk (s : Storage) (mem : Mem) (len : Nat) : Prop :=
  let hs := primaryHeaders s mem
  let live := usedBytes (liveHeaders hs)
  len ≤ 254 ∧
    if usedBytes hs < s.primarySize then usedBytes hs + (6 + len) ≤ s.primarySize
    else (∀ h ∈ hs, h.Movable) ∧ live ≤ s.secondarySize ∧
      (s.primarySize ≤ live ∨ live + (6 + len) ≤ s.primarySize)

instance (s : Storage) (mem : Mem) (len : Nat) : Decidable (SaveOk s mem len) := by
  unfold SaveOk
  infer_instance

def CallOk (s : Storage) (mem : Mem) : KvCall → Prop
  | .save _ value _ => SaveOk s mem value.bytes.length
  | _ => True

instance (s : Storage) (mem : Mem) : (call : KvCall) → Decidable (CallOk s mem call)
  | .save _ value _ => inferInstanceAs (Decidable (SaveOk s mem value.bytes.length))
  | .delete _ | .erase | .read _ => isTrue trivial

/-- Every call of the run meets the condition in the state it is made in. -/
def StepsOk (s : Storage) : FlashDev → List KvCall → Prop
  | _, [] => True
  | dev, call :: calls => CallOk s dev.mem call ∧
      match kvStep s dev call with
      | some (_, dev') => StepsOk s dev' calls
      | none => True

instance decidableStepsOk (s : Storage) :
    (dev : FlashDev) → (calls : List KvCall) → Decidable (StepsOk s dev calls)
  | _, [] => isTrue trivial
  | dev, call :: calls =>
    have : Decidable (match kvStep s dev call with
        | some (_, dev') => StepsOk s dev' calls
        | none => True) :=
      match kvStep s dev call with
      | some (_, dev') => decidableStepsOk s dev' calls
      | none => isTrue trivial
    inferInstanceAs (Decidable (_ ∧ _))

end NavHAL.Flash
