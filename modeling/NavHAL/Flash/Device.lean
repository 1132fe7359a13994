import NavHAL.Lib.Bytes
import NavHAL.Lib.Memory
import NavHAL.Status

/-!
# The on-chip flash of the STM32F4

The half-word program and the sector erase of `flash.c`, over a flash seen as
bytes.  The device logs the operations it is given, so that a power cut can
be put after any of them: `applyOps` replays a log prefix on the memory
the log started from.

The key/value paths ignore the status of `_flash_wait_`; the raw partition
API does not, and takes the outcome of each wait from `waits`.
-/

namespace NavHAL.Flash

open Memory

/-! ## Reads -/

/-- `n` bytes copied out of the flash. -/
def flashBytes (mem : Mem) (a n : Nat) : List UInt8 := (List.range n).map fun i => mem (a + i)

/-- A `uint32_t` in flash. -/
def flashWord (mem : Mem) (a : Nat) : UInt32 :=
  Bytes.ofLe32 (mem a) (mem (a + 1)) (mem (a + 2)) (mem (a + 3))

@[simp] theorem flashBytes_length (mem : Mem) (a n : Nat) : (flashBytes mem a n).length = n := by
  simp [flashBytes]

theorem flashBytes_congr {mem mem' : Mem} {a n : Nat} :
    flashBytes mem' a n = flashBytes mem a n ↔ ∀ i, i < n → mem' (a + i) = mem (a + i) := by
  simp [flashBytes]

theorem flashBytes_add (mem : Mem) (a k l : Nat) :
    flashBytes mem a (k + l) = flashBytes mem a k ++ flashBytes mem (a + k) l := by
  simp [flashBytes, List.range_add, Nat.add_assoc]

/-- Reading the middle of a region. -/
theorem flashBytes_shows {mem : Mem} {a n : Nat} (pre mid post : List UInt8)
    (h : Shows mem a n (pre ++ mid ++ post)) (hn : pre.length + mid.length ≤ n) :
    flashBytes mem (a + pre.length) mid.length = mid := by
  apply List.ext_getElem (flashBytes_length _ _ _)
  intro i hi hi'
  simp only [flashBytes, List.getElem_map, List.getElem_range]
  exact h.read hi' (by omega)

theorem flashBytes_word (mem : Mem) (a : Nat) :
    flashBytes mem a 4 = Bytes.le32 (flashWord mem a) := by
  rw [flashWord, Bytes.le32_ofLe32]
  rfl

/-! ## Operations -/

/-- What the controller is asked to do: program one half-word, low byte at
the lower address, or erase the sector that occupies `[start, stop)`. -/
inductive FlashOp
  | program (addr : Nat) (lo hi : UInt8)
  | erase (start stop : Nat)
  deriving DecidableEq, Repr

def FlashOp.apply (mem : Mem) : FlashOp → Mem
  | .program addr lo hi => overlay mem addr [lo, hi]
  | .erase start stop => eraseRange mem start stop

/-- The memory after a list of operations, oldest first. -/
def applyOps (mem : Mem) (ops : List FlashOp) : Mem := ops.foldl FlashOp.apply mem

@[simp] theorem applyOps_nil (mem : Mem) : applyOps mem [] = mem := rfl

@[simp] theorem applyOps_cons (mem : Mem) (op : FlashOp) (ops : List FlashOp) :
    applyOps mem (op :: ops) = applyOps (op.apply mem) ops := rfl

theorem applyOps_append (mem : Mem) (ops ops' : List FlashOp) :
    applyOps mem (ops ++ ops') = applyOps (applyOps mem ops) ops' := List.foldl_append

/-- How a `_flash_wait_` of the raw API ends: BSY clears, or the spin budget
runs out and the range being worked on is left holding `left`. -/
inductive Wait
  | ready
  | wedged (left : Mem)

structure FlashDev where
  mem : Mem
  log : List FlashOp := []
  waits : List Wait := []

/-- Carry one operation out and log it. -/
def FlashDev.issue (dev : FlashDev) (op : FlashOp) : FlashDev :=
  { dev with mem := op.apply dev.mem, log := dev.log ++ [op] }

/-- Carry operations out in order. -/
def FlashDev.issueAll (dev : FlashDev) (ops : List FlashOp) : FlashDev :=
  ops.foldl FlashDev.issue dev

@[simp] theorem FlashDev.issueAll_nil (dev : FlashDev) : dev.issueAll [] = dev := rfl

@[simp] theorem FlashDev.issueAll_cons (dev : FlashDev) (op : FlashOp) (ops : List FlashOp) :
    dev.issueAll (op :: ops) = (dev.issue op).issueAll ops := rfl

theorem FlashDev.issueAll_append (dev : FlashDev) (ops ops' : List FlashOp) :
    dev.issueAll (ops ++ ops') = (dev.issueAll ops).issueAll ops' := List.foldl_append

@[simp] theorem FlashDev.issueAll_mem (dev : FlashDev) (ops : List FlashOp) :
    (dev.issueAll ops).mem = applyOps dev.mem ops := by
  induction ops generalizing dev with
  | nil => rfl
  | cons op ops ih => rw [issueAll_cons, ih, issue, applyOps_cons]

@[simp] theorem FlashDev.issueAll_log (dev : FlashDev) (ops : List FlashOp) :
    (dev.issueAll ops).log = dev.log ++ ops := by
  induction ops generalizing dev with
  | nil => simp
  | cons op ops ih => rw [issueAll_cons, ih, issue, List.append_assoc, List.singleton_append]

/-- `_flash_program_half_word_` -/
def flashProgramHalfWord (dev : FlashDev) (addr : Nat) (lo hi : UInt8) : FlashDev :=
  dev.issue (.program addr lo hi)

/-- `_flash_erase_sector_`, for the sector at `[start, stop)`. -/
def flashEraseSector (dev : FlashDev) (start stop : Nat) : FlashDev :=
  dev.issue (.erase start stop)

/-! ## Half-words of a byte list -/

/-- The half-word programs that write `bytes` from `a` on; a last odd byte is
padded with `0xFF`. -/
def halfWords : Nat → List UInt8 → List FlashOp
  | _, [] => []
  | a, [b] => [.program a b 0xFF]
  | a, b :: c :: rest => .program a b c :: halfWords (a + 2) rest

theorem halfWords_length (a : Nat) (bytes : List UInt8) :
    (halfWords a bytes).length = (bytes.length + 1) / 2 := by
  fun_induction halfWords a bytes with
  | case1 => rfl
  | case2 => simp
  | case3 a b c rest ih => simp only [List.length_cons, ih]; omega

/-- Cutting the programs short cuts the bytes short at the same half-word. -/
theorem applyOps_take_halfWords (mem : Mem) (a : Nat) (bytes : List UInt8) (j : Nat) :
    applyOps mem ((halfWords a bytes).take j) = overlay mem a (bytes.take (2 * j)) := by
  fun_induction halfWords a bytes generalizing mem j with
  | case1 => simp [overlay_nil]
  | case2 a b =>
    cases j with
    | zero => simp [overlay_nil]
    | succ j =>
      have hpad := overlay_append mem a [b] [0xFF]
      rw [show [(0xFF : UInt8)] = List.replicate 1 0xFF by rfl,
        overlay_replicate_erased] at hpad
      rw [show 2 * (j + 1) = 2 * j + 1 + 1 by omega]
      simpa [FlashOp.apply] using hpad
  | case3 a b c rest ih =>
    cases j with
    | zero => simp [overlay_nil]
    | succ j =>
      have hsplit := overlay_append mem a [b, c] (rest.take (2 * j))
      rw [show 2 * (j + 1) = 2 * j + 2 by omega, List.take_succ_cons, applyOps_cons, ih]
      exact hsplit.symm

theorem applyOps_halfWords (mem : Mem) (a : Nat) (bytes : List UInt8) :
    applyOps mem (halfWords a bytes) = overlay mem a bytes := by
  have h := applyOps_take_halfWords mem a bytes bytes.length
  rwa [List.take_of_length_le (by rw [halfWords_length]; omega),
    List.take_of_length_le (by omega)] at h

/-! ## Sector map -/

/-- `_sector_base` -/
def sectorBase (sector : Nat) : Nat :=
  [0x08000000, 0x08004000, 0x08008000, 0x0800C000,
   0x08010000, 0x08020000, 0x08040000, 0x08060000].getD (sector % 8) 0

/-- `_sector_size` -/
def sectorSize (sector : Nat) : Nat :=
  [0x4000, 0x4000, 0x4000, 0x4000, 0x10000, 0x20000, 0x20000, 0x20000].getD (sector % 8) 0

/-- One past the last byte of a sector. -/
def sectorEnd (sector : Nat) : Nat := sectorBase sector + sectorSize sector

/-- Sectors are laid out in order, so two different ones do not overlap. -/
theorem sectorEnd_le_sectorBase {a b : Nat} (hab : a < b) (hb : b < 8) :
    sectorEnd a ≤ sectorBase b := by
  have h : ∀ b < 8, ∀ a < b, sectorEnd a ≤ sectorBase b := by decide
  exact h b hb a hab

theorem sectorBase_lt_sectorEnd {a : Nat} (ha : a < 8) : sectorBase a < sectorEnd a := by
  have h : ∀ a < 8, sectorBase a < sectorEnd a := by decide
  exact h a ha

/-- The two sectors the key/value store is configured to own
(`PRIMARY_FLASH_SECTOR` and `SECONDARY_FLASH_SECTOR`). -/
structure KvSectors where
  primary : Nat
  secondary : Nat
  primary_lt : primary < 8
  secondary_lt : secondary < 8
  distinct : primary ≠ secondary

/-- The pair a bootloader build is configured with. -/
def bootKvSectors : KvSectors := ⟨2, 3, by decide, by decide, by decide⟩

end NavHAL.Flash
