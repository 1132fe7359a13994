import NavHAL.Flash.Device

/-!
# The key/value store of `flash.c`

Records lie back to back in the primary sector, each a six-byte header and
its value; a superseded record is marked deleted in place, and a full sector
is compacted through the secondary one.  Lengths that the source keeps in a
`uint8_t` are reduced mod 256 here as well.

The two copy loops of the compaction need not end.  They run on fuel larger
than the number of steps any of their terminating runs takes, and `none`
stands for a call that never returns.
-/

namespace NavHAL.Flash

open Memory

/-! ## Constants, records, storage -/

def flashMagicNumber : UInt8 := 0x1A
def flashValid : UInt8 := 0x01
def flashDeleted : UInt8 := 0x00

/-- `hal_flash_record_t` -/
structure FlashRecord where
  magic : UInt8
  key : UInt8
  size : UInt8
  status : UInt8
  reserved : UInt8
  crc : UInt8
  deriving DecidableEq, Repr

/-- `sizeof(hal_flash_record_t)` -/
def recordSize : Nat := 6

def FlashRecord.bytes (r : FlashRecord) : List UInt8 :=
  [r.magic, r.key, r.size, r.status, r.reserved, r.crc]

/-- The header a pointer to `hal_flash_record_t` at `a` reads. -/
def recordAt (mem : Mem) (a : Nat) : FlashRecord :=
  ⟨mem a, mem (a + 1), mem (a + 2), mem (a + 3), mem (a + 4), mem (a + 5)⟩

/-- `FLASH_PRIMARY_STORAGE_START` and its three siblings. -/
structure Storage where
  primaryStart : Nat
  primaryEnd : Nat
  secondaryStart : Nat
  secondaryEnd : Nat
  primary_lt : primaryStart < primaryEnd
  secondary_lt : secondaryStart < secondaryEnd
  disjoint : primaryEnd ≤ secondaryStart ∨ secondaryEnd ≤ primaryStart

def Storage.primarySize (s : Storage) : Nat := s.primaryEnd - s.primaryStart

def Storage.secondarySize (s : Storage) : Nat := s.secondaryEnd - s.secondaryStart

theorem Storage.primary_end (s : Storage) : s.primaryStart + s.primarySize = s.primaryEnd :=
  Nat.add_sub_cancel' (Nat.le_of_lt s.primary_lt)

theorem Storage.secondary_end (s : Storage) : s.secondaryStart + s.secondarySize = s.secondaryEnd :=
  Nat.add_sub_cancel' (Nat.le_of_lt s.secondary_lt)

/-- Ranges inside different sectors do not meet. -/
theorem Storage.apart (s : Storage) {a n b l : Nat} (ha : s.primaryStart ≤ a)
    (hn : a + n ≤ s.primaryEnd) (hb : s.secondaryStart ≤ b) (hl : b + l ≤ s.secondaryEnd) :
    a + n ≤ b ∨ b + l ≤ a := by
  rcases s.disjoint with h | h
  · exact Or.inl (by omega)
  · exact Or.inr (by omega)

/-- The storage of a configured pair of STM32F4 sectors. -/
def KvSectors.storage (c : KvSectors) : Storage where
  primaryStart := sectorBase c.primary
  primaryEnd := sectorEnd c.primary
  secondaryStart := sectorBase c.secondary
  secondaryEnd := sectorEnd c.secondary
  primary_lt := sectorBase_lt_sectorEnd c.primary_lt
  secondary_lt := sectorBase_lt_sectorEnd c.secondary_lt
  disjoint := by
    rcases Nat.lt_or_gt_of_ne c.distinct with h | h
    · exact Or.inl (sectorEnd_le_sectorBase h c.secondary_lt)
    · exact Or.inr (sectorEnd_le_sectorBase h c.primary_lt)

/-! ## Reading and writing bytes -/

/-- What a `const uint8_t *` points to: bytes that may depend on the flash. -/
abbrev Source := Mem → Nat → UInt8

/-- A buffer in RAM. -/
def ramSource (bytes : List UInt8) : Source := fun _ i => byteAt bytes i

/-- A pointer into the flash, read while it is being programmed. -/
def flashSource (a : Nat) : Source := fun mem i => mem (a + i)

/-- `_flash_calculate_crc_` -/
def flashCalculateCrc : List UInt8 → UInt8
  | [] => 0
  | b :: rest => rest.foldl (· ^^^ ·) b

/-- `padded_size`, a `uint8_t`: rounding 255 up gives 0. -/
def paddedSize (size : Nat) : Nat := if size % 2 = 0 then size else (size + 1) % 256

/-- The loop of `_flash_write_data_` from index `i` on, `n` half-words to go. -/
def writeLoop (data : Source) (size : Nat) : Nat → Nat → Nat → FlashDev → FlashDev
  | 0, _, _, dev => dev
  | n + 1, i, addr, dev =>
    let lo := data dev.mem i
    let hi := if i + 1 < size then data dev.mem (i + 1) else 0xFF
    writeLoop data size n (i + 2) (addr + 2) (flashProgramHalfWord dev addr lo hi)

/-- `_flash_write_data_`.  The index runs in twos up to `padded_size`, which
is even. -/
def flashWriteData (dev : FlashDev) (addr : Nat) (data : Source) (size : Nat) :
    HalStatus × FlashDev :=
  if size = 0 then (.errIo, dev)
  else (.ok, writeLoop data size (paddedSize size / 2) 0 addr dev)

/-! ## Walking the records -/

/-- The loop of `_flash_find_next_free`.  Each round moves six bytes or more,
so fuel of one per byte of the sector never runs out. -/
def flashFindNextFreeFrom (s : Storage) (mem : Mem) : Nat → Nat → Nat
  | 0, ptr => ptr
  | fuel + 1, ptr =>
    if (recordAt mem ptr).magic = flashMagicNumber ∧ ptr < s.primaryEnd then
      flashFindNextFreeFrom s mem fuel (ptr + (recordAt mem ptr).size.toNat + recordSize)
    else ptr

/-- `_flash_find_next_free` -/
def flashFindNextFree (s : Storage) (mem : Mem) : Option Nat :=
  let ptr := flashFindNextFreeFrom s mem (s.primaryEnd - s.primaryStart) s.primaryStart
  if s.primaryEnd ≤ ptr then none else some ptr

/-- The loop of `_flash_find_first_valid_entry_`. -/
def flashFindFirstValidEntryFrom (s : Storage) (mem : Mem) (key : UInt8) : Nat → Nat → Option Nat
  | 0, _ => none
  | fuel + 1, ptr =>
    if ptr < s.primaryEnd ∧ (recordAt mem ptr).magic = flashMagicNumber then
      if (recordAt mem ptr).key = key ∧ (recordAt mem ptr).status = flashValid then some ptr
      else flashFindFirstValidEntryFrom s mem key fuel
        (ptr + (recordAt mem ptr).size.toNat + recordSize)
    else none

/-- `_flash_find_first_valid_entry_` -/
def flashFindFirstValidEntry (s : Storage) (mem : Mem) (key : UInt8) : Option Nat :=
  flashFindFirstValidEntryFrom s mem key (s.primaryEnd - s.primaryStart) s.primaryStart

/-! ## Compaction -/

/-- `total_size`, a `uint8_t`: 250 and more wrap. -/
def totalSize (r : FlashRecord) : Nat := (recordSize + r.size.toNat) % 256

/-- The loop of `_flash_shift_sector_primary_to_secondary_`. -/
def shiftPrimaryToSecondaryLoop (s : Storage) :
    Nat → Nat → Nat → FlashDev → Option (HalStatus × FlashDev)
  | 0, _, _, _ => none
  | fuel + 1, ptrPrimary, ptrSecondary, dev =>
    let rec' := recordAt dev.mem ptrPrimary
    if rec'.magic = flashMagicNumber ∧ ptrPrimary < s.primaryEnd then
      if rec'.status ≠ flashValid then
        shiftPrimaryToSecondaryLoop s fuel (ptrPrimary + totalSize rec') ptrSecondary dev
      else
        match flashWriteData dev ptrSecondary (flashSource ptrPrimary) (totalSize rec') with
        | (.ok, dev') =>
          shiftPrimaryToSecondaryLoop s fuel (ptrPrimary + totalSize rec')
            (ptrSecondary + totalSize rec') dev'
        | (status, dev') => some (status, dev')
    else some (.ok, dev)

/-- `_flash_shift_sector_primary_to_secondary_` -/
def flashShiftSectorPrimaryToSecondary (s : Storage) (dev : FlashDev) :
    Option (HalStatus × FlashDev) :=
  shiftPrimaryToSecondaryLoop s (s.primaryEnd - s.primaryStart + 1) s.primaryStart
    s.secondaryStart dev

/-- The loop of `_flash_shift_sector_secondary_to_primary_`. -/
def shiftSecondaryToPrimaryLoop (s : Storage) :
    Nat → Nat → Nat → FlashDev → Option (HalStatus × FlashDev)
  | 0, _, _, _ => none
  | fuel + 1, ptrPrimary, ptrSecondary, dev =>
    let rec' := recordAt dev.mem ptrSecondary
    if rec'.magic = flashMagicNumber ∧ ptrSecondary < s.secondaryEnd then
      match flashWriteData dev ptrPrimary (flashSource ptrSecondary) (totalSize rec') with
      | (.ok, dev') =>
        shiftSecondaryToPrimaryLoop s fuel (ptrPrimary + totalSize rec')
          (ptrSecondary + totalSize rec') dev'
      | (status, dev') => some (status, dev')
    else some (.ok, dev)

/-- `_flash_shift_sector_secondary_to_primary_` -/
def flashShiftSectorSecondaryToPrimary (s : Storage) (dev : FlashDev) :
    Option (HalStatus × FlashDev) :=
  shiftSecondaryToPrimaryLoop s (s.secondaryEnd - s.secondaryStart + 1) s.primaryStart
    s.secondaryStart dev

/-- `_flash_compact_storage_` -/
def flashCompactStorage (s : Storage) (dev : FlashDev) : Option (HalStatus × FlashDev) :=
  match flashShiftSectorPrimaryToSecondary s dev with
  | some (.ok, dev) =>
    match flashShiftSectorSecondaryToPrimary s
        (flashEraseSector dev s.primaryStart s.primaryEnd) with
    | some (.ok, dev) => some (.ok, flashEraseSector dev s.secondaryStart s.secondaryEnd)
    | failed => failed
  | failed => failed

/-! ## The operations -/

/-- Mark the record at `a` deleted by rewriting its header. -/
def markDeleted (dev : FlashDev) (a : Nat) : HalStatus × FlashDev :=
  flashWriteData dev a (ramSource { recordAt dev.mem a with status := flashDeleted }.bytes)
    recordSize

/-- The header `stm32_flash_save` builds on its stack.  `reserved` is never
assigned there. -/
def newRecord (key : UInt8) (value : List UInt8) (reserved : UInt8) : FlashRecord where
  magic := flashMagicNumber
  key := key
  size := UInt8.ofNat value.length
  status := flashValid
  reserved := reserved
  crc := flashCalculateCrc value

/-- `stm32_flash_save` once it knows where the record goes. -/
def saveAt (s : Storage) (dev : FlashDev) (ptr : Nat) (key : UInt8) (value : List UInt8)
    (reserved : UInt8) : HalStatus × FlashDev :=
  let superseded := match flashFindFirstValidEntry s dev.mem key with
    | none => (HalStatus.ok, dev)
    | some lastRec => markDeleted dev lastRec
  if superseded.1 ≠ .ok then superseded
  else
    let header := flashWriteData superseded.2 ptr
      (ramSource (newRecord key value reserved).bytes) recordSize
    if header.1 ≠ .ok then header
    else flashWriteData header.2 (ptr + recordSize) (ramSource value) value.length

/-- `stm32_flash_save` -/
def stm32FlashSave (s : Storage) (dev : FlashDev) (key : UInt8) (value : List UInt8)
    (reserved : UInt8) : Option (HalStatus × FlashDev) :=
  match flashFindNextFree s dev.mem with
  | some ptr => some (saveAt s dev ptr key value reserved)
  | none =>
    match flashCompactStorage s dev with
    | some (.ok, dev) =>
      match flashFindNextFree s dev.mem with
      | some ptr => some (saveAt s dev ptr key value reserved)
      | none => some (.errIo, dev)
    | failed => failed

/-- What `hal_flash_read` leaves behind: its status, `*size` and the bytes
copied to the buffer. -/
structure ReadResult where
  status : HalStatus
  size : UInt8
  value : List UInt8
  deriving DecidableEq, Repr

/-- `stm32_flash_read` -/
def stm32FlashRead (s : Storage) (mem : Mem) (key : UInt8) : ReadResult :=
  match flashFindFirstValidEntry s mem key with
  | none => ⟨.err, 0, []⟩
  | some lastRec =>
    let size := (recordAt mem lastRec).size
    let value := flashBytes mem (lastRec + recordSize) size.toNat
    if (recordAt mem lastRec).crc ≠ flashCalculateCrc value then ⟨.err, size, value⟩
    else ⟨.ok, size, value⟩

/-- `stm32_flash_delete` -/
def stm32FlashDelete (s : Storage) (dev : FlashDev) (key : UInt8) : HalStatus × FlashDev :=
  match flashFindFirstValidEntry s dev.mem key with
  | none => (.err, dev)
  | some r => markDeleted dev r

/-- `stm32_flash_erase` -/
def stm32FlashErase (s : Storage) (dev : FlashDev) : HalStatus × FlashDev :=
  (.ok, flashEraseSector (flashEraseSector dev s.primaryStart s.primaryEnd)
    s.secondaryStart s.secondaryEnd)

/-- `stm32_flash_needs_compaction` -/
def stm32FlashNeedsCompaction (s : Storage) (mem : Mem) : Bool :=
  (flashFindNextFree s mem).isNone

/-! ## The public layer (`hal_flash.c`) -/

/-- `hal_flash_save`; the list carries its own size, at most 255. -/
def halFlashSave (s : Storage) (dev : FlashDev) (key : UInt8) (value : List UInt8)
    (reserved : UInt8) : Option (HalStatus × FlashDev) :=
  if value.length = 0 then some (.errInvalidArg, dev)
  else stm32FlashSave s dev key value reserved

/-- `hal_flash_read` -/
def halFlashRead (s : Storage) (mem : Mem) (key : UInt8) : ReadResult := stm32FlashRead s mem key

/-- `hal_flash_delete` -/
def halFlashDelete (s : Storage) (dev : FlashDev) (key : UInt8) : HalStatus × FlashDev :=
  stm32FlashDelete s dev key

/-- `hal_flash_erase` -/
def halFlashErase (s : Storage) (dev : FlashDev) : HalStatus × FlashDev := stm32FlashErase s dev

/-- `hal_flash_needs_compaction` -/
def halFlashNeedsCompaction (s : Storage) (mem : Mem) : Bool := stm32FlashNeedsCompaction s mem

end NavHAL.Flash
