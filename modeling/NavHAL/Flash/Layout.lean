import NavHAL.Flash.Store
import NavHAL.Lib.LogMap

/-!
# The records in the primary sector

`Layout s mem rs` says that the primary sector holds exactly the records
`rs`, in order and followed by erased bytes, and that the secondary sector is
erased.  The last record may reach past the sector end, but not a valid one.

Under a layout the walks of `flash.c` are list functions: the free pointer is
the length of the image (`flashFindNextFree_layout`), the first valid entry of a
key is its owner in the log (`flashFindFirstValidEntry_some`), and what is stored
is a lookup (`storedValue_layout`).
-/

namespace NavHAL.Flash

open Memory LogMap

/-! ## Records with their value -/

/-- A record of the log: the header fields that vary, and the value bytes. -/
structure Record where
  key : UInt8
  status : UInt8
  reserved : UInt8
  crc : UInt8
  value : List UInt8
  size_lt : value.length < 256

def Record.header (r : Record) : FlashRecord :=
  ⟨flashMagicNumber, r.key, UInt8.ofNat r.value.length, r.status, r.reserved, r.crc⟩

/-- The bytes of a record as they lie in flash. -/
def Record.encode (r : Record) : List UInt8 := r.header.bytes ++ r.value

def Record.valid (r : Record) : Bool := decide (r.status = flashValid)

def Record.deleted (r : Record) : Record := { r with status := flashDeleted }

/-- The value, when the checksum matches it. -/
def Record.read (r : Record) : Option (List UInt8) :=
  if r.crc = flashCalculateCrc r.value then some r.value else none

/-- Records as entries of a log: a record is live while its status is valid. -/
def recordSpec : EntrySpec Record UInt8 (List UInt8) where
  key := Record.key
  live := Record.valid
  value := Record.read
  kill := Record.deleted
  live_kill := fun r => by simp [Record.valid, Record.deleted, flashDeleted, flashValid]

@[simp] theorem recordSpec_key (r : Record) : recordSpec.key r = r.key := rfl

@[simp] theorem recordSpec_live (r : Record) : recordSpec.live r = r.valid := rfl

@[simp] theorem recordSpec_value (r : Record) : recordSpec.value r = r.read := rfl

@[simp] theorem recordSpec_kill (r : Record) : recordSpec.kill r = r.deleted := rfl

/-- The bytes of a list of records. -/
def image (rs : List Record) : List UInt8 := rs.flatMap Record.encode

@[simp] theorem header_bytes_length (h : FlashRecord) : h.bytes.length = 6 := rfl

theorem encode_length (r : Record) : r.encode.length = 6 + r.value.length := by
  simp [Record.encode]

theorem header_status_iff (r : Record) : r.header.status = flashValid ↔ r.valid = true := by
  simp [Record.header, Record.valid]

theorem header_size_toNat (r : Record) : r.header.size.toNat = r.value.length := by
  simp only [Record.header, UInt8.toNat_ofNat']
  exact Nat.mod_eq_of_lt r.size_lt

theorem image_append (rs ts : List Record) : image (rs ++ ts) = image rs ++ image ts :=
  List.flatMap_append

theorem image_cons (r : Record) (rs : List Record) : image (r :: rs) = r.encode ++ image rs :=
  List.flatMap_cons

@[simp] theorem image_nil : image [] = [] := rfl

theorem image_append_length (rs ts : List Record) :
    (image (rs ++ ts)).length = (image rs).length + (image ts).length := by
  rw [image_append, List.length_append]

theorem image_cons_length (r : Record) (rs : List Record) :
    (image (r :: rs)).length = 6 + r.value.length + (image rs).length := by
  rw [image_cons, List.length_append, encode_length]

theorem image_concat_length (rs : List Record) (r : Record) :
    (image (rs ++ [r])).length = (image rs).length + (6 + r.value.length) := by
  rw [image_append_length, image_cons_length, image_nil, List.length_nil, Nat.add_zero]

/-- Where a pointer to a record goes next. -/
theorem next_record (a : Nat) (pre : List Record) (r : Record) :
    a + (image pre).length + r.header.size.toNat + recordSize = a + (image (pre ++ [r])).length := by
  rw [image_concat_length, header_size_toNat, recordSize]
  omega

/-! ## Fitting a sector -/

/-- From offset `off` on, every header lies below `n`, and so does the whole
of every valid record. -/
def FitsFrom (n : Nat) : Nat → List Record → Prop
  | _, [] => True
  | off, r :: rs => off + 6 ≤ n ∧ (r.valid = true → off + 6 + r.value.length ≤ n) ∧
      FitsFrom n (off + 6 + r.value.length) rs

theorem fitsFrom_append (n off : Nat) (rs ts : List Record) :
    FitsFrom n off (rs ++ ts) ↔ FitsFrom n off rs ∧ FitsFrom n (off + (image rs).length) ts := by
  induction rs generalizing off with
  | nil => simp [FitsFrom]
  | cons r rs ih =>
    simp only [List.cons_append, FitsFrom, ih, image_cons_length, and_assoc]
    rw [show off + 6 + r.value.length + (image rs).length =
      off + (6 + r.value.length + (image rs).length) by omega]

theorem FitsFrom.length_le {n off : Nat} {rs : List Record} (h : FitsFrom n off rs) :
    rs.length ≤ n - off := by
  induction rs generalizing off with
  | nil => simp
  | cons r rs ih =>
    obtain ⟨hhead, _, htail⟩ := h
    have := ih htail
    simp only [List.length_cons]
    omega

/-- Dropping deleted records moves the valid ones down. -/
theorem FitsFrom.compact {n off off' : Nat} {rs : List Record} (h : FitsFrom n off rs)
    (hle : off' ≤ off) : FitsFrom n off' (compact recordSpec rs) := by
  induction rs generalizing off off' with
  | nil => exact trivial
  | cons r rs ih =>
    obtain ⟨hhead, hvalid, htail⟩ := h
    cases hlive : r.valid with
    | false =>
      rw [show LogMap.compact recordSpec (r :: rs) = LogMap.compact recordSpec rs by
        simp [LogMap.compact, hlive]]
      exact ih htail (by omega)
    | true =>
      rw [show LogMap.compact recordSpec (r :: rs) = r :: LogMap.compact recordSpec rs by
        simp [LogMap.compact, hlive]]
      have := hvalid hlive
      exact ⟨by omega, fun _ => by omega, ih htail (by omega)⟩

/-- Records that are all valid lie inside the sector. -/
theorem FitsFrom.image_le {n off : Nat} {rs : List Record} (h : FitsFrom n off rs)
    (hlive : ∀ r ∈ rs, r.valid = true) (hoff : off ≤ n) : off + (image rs).length ≤ n := by
  induction rs generalizing off with
  | nil => simpa using hoff
  | cons r rs ih =>
    obtain ⟨_, hvalid, htail⟩ := h
    have hr := hvalid (hlive r (List.mem_cons_self ..))
    have := ih htail (fun t ht => hlive t (List.mem_cons_of_mem _ ht)) hr
    rw [image_cons_length]
    omega

theorem mem_compact {rs : List Record} {r : Record} :
    r ∈ compact recordSpec rs ↔ r ∈ rs ∧ r.valid = true := by
  simp [compact]

/-! ## The layout -/

structure Layout (s : Storage) (mem : Mem) (rs : List Record) : Prop where
  shows : Shows mem s.primaryStart s.primarySize (image rs)
  fits : FitsFrom s.primarySize 0 rs
  blank : Shows mem s.secondaryStart s.secondarySize []

/-- A layout is about the bytes of the two sectors only. -/
theorem Layout.congr {s : Storage} {mem mem' : Mem} {rs : List Record} (h : Layout s mem rs)
    (hprimary : ∀ x, s.primaryStart ≤ x → x < s.primaryEnd → mem' x = mem x)
    (hsecondary : ∀ x, s.secondaryStart ≤ x → x < s.secondaryEnd → mem' x = mem x) :
    Layout s mem' rs where
  shows := by
    have := s.primary_lt
    refine shows_of_eqOn h.shows fun x hlow hhigh => hprimary x hlow ?_
    rw [Storage.primarySize] at hhigh
    omega
  fits := h.fits
  blank := by
    have := s.secondary_lt
    refine shows_of_eqOn h.blank fun x hlow hhigh => hsecondary x hlow ?_
    rw [Storage.secondarySize] at hhigh
    omega

/-- Erasing both sectors lays out the empty log. -/
theorem layout_erased (s : Storage) (mem : Mem) :
    Layout s (eraseRange (eraseRange mem s.primaryStart s.primaryEnd)
      s.secondaryStart s.secondaryEnd) [] where
  shows := by
    apply shows_of_eqOn (shows_erased mem s.primaryStart s.primaryEnd)
    intro x hlow hhigh
    apply eraseRange_outside
    have hapart := s.apart hlow (show x + 1 ≤ s.primaryEnd by have := s.primary_lt; omega)
      (Nat.le_refl _) (Nat.le_of_eq s.secondary_end)
    rwa [s.secondary_end] at hapart
  fits := trivial
  blank := shows_erased _ _ _

/-- The header of a record whose header lies inside the region. -/
theorem recordAt_of_shows {mem : Mem} {a n : Nat} {pre post : List Record} {r : Record}
    (h : Shows mem a n (image (pre ++ r :: post))) (hin : (image pre).length + 6 ≤ n) :
    recordAt mem (a + (image pre).length) = r.header := by
  rw [image_append, image_cons, ← List.append_assoc] at h
  have hb : ∀ i, i < 6 → mem (a + (image pre).length + i) = byteAt r.encode i := by
    intro i hi
    have hlen : i < r.encode.length := by rw [encode_length]; omega
    rw [h.read hlen (by omega), byteAt_of_lt]
  simp only [recordAt]
  rw [hb 1 (by omega), hb 2 (by omega), hb 3 (by omega), hb 4 (by omega), hb 5 (by omega),
    show mem (a + (image pre).length) = _ from hb 0 (by omega)]
  rfl

/-- The value of a record that lies inside the region. -/
theorem flashBytes_of_shows {mem : Mem} {a n : Nat} {pre post : List Record} {r : Record}
    (h : Shows mem a n (image (pre ++ r :: post)))
    (hin : (image pre).length + 6 + r.value.length ≤ n) :
    flashBytes mem (a + (image pre).length + recordSize) r.value.length = r.value := by
  have hlen : (image pre ++ r.header.bytes).length = (image pre).length + recordSize := by
    rw [List.length_append, header_bytes_length, recordSize]
  rw [image_append, image_cons, Record.encode, List.append_assoc, ← List.append_assoc,
    ← List.append_assoc] at h
  have hvalue := flashBytes_shows _ _ _ h (by rw [hlen, recordSize]; omega)
  rwa [hlen, ← Nat.add_assoc] at hvalue

/-- Past its records a region does not read as a record. -/
theorem no_record_after {mem : Mem} {a n : Nat} {rs : List Record}
    (h : Shows mem a n (image rs)) (hlt : (image rs).length < n) :
    (recordAt mem (a + (image rs).length)).magic ≠ flashMagicNumber := by
  rw [recordAt, h.read_erased (Nat.le_refl _) hlt]
  show (0xFF : UInt8) ≠ 0x1A
  decide

/-! ## The walks -/

section Walks

variable {s : Storage} {mem : Mem} {rs : List Record}

theorem Layout.ptr_lt (h : Layout s mem rs) {pre post : List Record} {r : Record}
    (hsplit : rs = pre ++ r :: post) : s.primaryStart + (image pre).length < s.primaryEnd := by
  have hfits := h.fits
  rw [hsplit, fitsFrom_append] at hfits
  have := hfits.2.1
  simp only [Storage.primarySize] at this
  omega

theorem Layout.header (h : Layout s mem rs) {pre post : List Record} {r : Record}
    (hsplit : rs = pre ++ r :: post) :
    recordAt mem (s.primaryStart + (image pre).length) = r.header := by
  have hfits := h.fits
  rw [hsplit, fitsFrom_append] at hfits
  have hshows := h.shows
  rw [hsplit] at hshows
  exact recordAt_of_shows hshows (by have := hfits.2.1; omega)

/-- At the end of the records both walks stop. -/
theorem Layout.stop (h : Layout s mem rs) :
    ¬ ((recordAt mem (s.primaryStart + (image rs).length)).magic = flashMagicNumber ∧
      s.primaryStart + (image rs).length < s.primaryEnd) := by
  rintro ⟨hmagic, hlt⟩
  exact no_record_after h.shows (by simp only [Storage.primarySize]; omega) hmagic

/-- **A walk over the records**, with fuel of one per byte of the sector: it does what it
does at the end of the records, and at each record what it does at the next one. -/
theorem Layout.walk (h : Layout s mem rs) {β : Type} (walk : Nat → Nat → β)
    (out : List Record → List Record → β)
    (hstop : ∀ fuel, walk fuel (s.primaryStart + (image rs).length) = out rs [])
    (hstep : ∀ pre r post fuel, rs = pre ++ r :: post →
      walk fuel (s.primaryStart + (image (pre ++ [r])).length) = out (pre ++ [r]) post →
      walk (fuel + 1) (s.primaryStart + (image pre).length) = out pre (r :: post)) :
    walk (s.primaryEnd - s.primaryStart) s.primaryStart = out [] rs := by
  have hrun : ∀ (post pre : List Record) (fuel : Nat), rs = pre ++ post → post.length ≤ fuel →
      walk fuel (s.primaryStart + (image pre).length) = out pre post := by
    intro post
    induction post with
    | nil =>
      intro pre fuel hsplit _
      rw [List.append_nil] at hsplit
      subst hsplit
      exact hstop fuel
    | cons r post ih =>
      intro pre fuel hsplit hfuel
      obtain ⟨fuel, rfl⟩ : ∃ f, fuel = f + 1 := ⟨fuel - 1, by simp at hfuel; omega⟩
      exact hstep pre r post fuel hsplit (ih (pre ++ [r]) fuel (by simp [hsplit])
        (by simpa using hfuel))
  have hwalk := hrun rs [] (s.primaryEnd - s.primaryStart) rfl
    (by simpa [Storage.primarySize] using h.fits.length_le)
  rwa [image_nil, List.length_nil, Nat.add_zero] at hwalk

theorem flashFindNextFreeFrom_layout (h : Layout s mem rs) :
    flashFindNextFreeFrom s mem (s.primaryEnd - s.primaryStart) s.primaryStart =
      s.primaryStart + (image rs).length := by
  refine h.walk (flashFindNextFreeFrom s mem) (fun _ _ => s.primaryStart + (image rs).length) ?_ ?_
  · intro fuel
    cases fuel with
    | zero => rfl
    | succ fuel => rw [flashFindNextFreeFrom, if_neg h.stop]
  · intro pre r post fuel hsplit hnext
    rw [flashFindNextFreeFrom, h.header hsplit, if_pos ⟨rfl, h.ptr_lt hsplit⟩, next_record]
    exact hnext

/-- The free pointer: none once the records fill the sector. -/
theorem flashFindNextFree_layout (h : Layout s mem rs) :
    flashFindNextFree s mem =
      if s.primarySize ≤ (image rs).length then none
      else some (s.primaryStart + (image rs).length) := by
  have hlt := s.primary_lt
  have hsize : s.primarySize = s.primaryEnd - s.primaryStart := rfl
  simp only [flashFindNextFree, flashFindNextFreeFrom_layout h]
  by_cases hfull : s.primarySize ≤ (image rs).length
  · rw [if_pos hfull, if_pos (by omega)]
  · rw [if_neg hfull, if_neg (by omega)]

/-- A header matches a key exactly when its record owns it. -/
theorem header_owns (r : Record) (key : UInt8) :
    (r.header.key = key ∧ r.header.status = flashValid) ↔ Owns recordSpec key r = true := by
  rw [owns_iff, and_comm, header_status_iff]
  rfl

/-- The search passes over records that do not own the key. -/
theorem flashFindFirstValidEntryFrom_skip (h : Layout s mem rs) {key : UInt8} (mid : List Record) :
    ∀ (pre post : List Record) (fuel : Nat), rs = pre ++ mid ++ post →
      owner recordSpec mid key = none →
      flashFindFirstValidEntryFrom s mem key (fuel + mid.length)
          (s.primaryStart + (image pre).length) =
        flashFindFirstValidEntryFrom s mem key fuel
          (s.primaryStart + (image (pre ++ mid)).length) := by
  induction mid with
  | nil => simp
  | cons r mid ih =>
    intro pre post fuel hsplit hnone
    have hsplit' : rs = pre ++ r :: (mid ++ post) := by simp [hsplit]
    rw [owner_cons] at hnone
    have hown : ¬ Owns recordSpec key r = true := by
      intro hc
      simp [hc] at hnone
    rw [if_neg hown] at hnone
    have hnext := ih (pre ++ [r]) post fuel (by simp [hsplit]) hnone
    rw [List.length_cons, ← Nat.add_assoc, flashFindFirstValidEntryFrom, h.header hsplit',
      if_pos ⟨h.ptr_lt hsplit', rfl⟩, if_neg (fun hc => hown ((header_owns r key).mp hc)),
      next_record, hnext, List.append_assoc, List.singleton_append]

theorem flashFindFirstValidEntry_none (h : Layout s mem rs) {key : UInt8}
    (hnone : owner recordSpec rs key = none) : flashFindFirstValidEntry s mem key = none := by
  have hfuel : rs.length ≤ s.primaryEnd - s.primaryStart := by
    simpa [Storage.primarySize] using h.fits.length_le
  have hskip := flashFindFirstValidEntryFrom_skip h rs [] []
    (s.primaryEnd - s.primaryStart - rs.length) (by simp) hnone
  rw [Nat.sub_add_cancel hfuel] at hskip
  simp only [image_nil, List.length_nil, Nat.add_zero, List.nil_append] at hskip
  rw [flashFindFirstValidEntry, hskip]
  cases s.primaryEnd - s.primaryStart - rs.length with
  | zero => rfl
  | succ fuel => rw [flashFindFirstValidEntryFrom, if_neg fun hc => h.stop hc.symm]

theorem flashFindFirstValidEntry_some (h : Layout s mem rs) {key : UInt8} {pre post : List Record}
    {r : Record} (hsplit : rs = pre ++ r :: post) (hpre : owner recordSpec pre key = none)
    (hown : Owns recordSpec key r = true) :
    flashFindFirstValidEntry s mem key = some (s.primaryStart + (image pre).length) := by
  have hfuel : rs.length ≤ s.primaryEnd - s.primaryStart := by
    simpa [Storage.primarySize] using h.fits.length_le
  have hlen : pre.length < rs.length := by simp [hsplit]
  obtain ⟨fuel, hf⟩ : ∃ f, s.primaryEnd - s.primaryStart = f + 1 + pre.length :=
    ⟨s.primaryEnd - s.primaryStart - 1 - pre.length, by omega⟩
  have hskip := flashFindFirstValidEntryFrom_skip h pre [] (r :: post) (fuel + 1)
    (by simp [hsplit]) hpre
  simp only [image_nil, List.length_nil, Nat.add_zero, List.nil_append] at hskip
  rw [flashFindFirstValidEntry, hf, hskip, flashFindFirstValidEntryFrom, h.header hsplit,
    if_pos ⟨h.ptr_lt hsplit, rfl⟩, if_pos ((header_owns r key).mpr hown)]

/-! ## Reading -/

/-- A key nobody owns reads as an error of size 0. -/
theorem halFlashRead_none (h : Layout s mem rs) {key : UInt8}
    (hnone : owner recordSpec rs key = none) : halFlashRead s mem key = ⟨.err, 0, []⟩ := by
  rw [halFlashRead, stm32FlashRead, flashFindFirstValidEntry_none h hnone]

/-- An owned key reads as the value of its owner, checked against the checksum. -/
theorem halFlashRead_some (h : Layout s mem rs) {key : UInt8} {r : Record}
    (howner : owner recordSpec rs key = some r) :
    halFlashRead s mem key =
      ⟨if r.crc = flashCalculateCrc r.value then .ok else .err, r.header.size, r.value⟩ := by
  obtain ⟨pre, post, hsplit, hlive, hkey, hpre⟩ := owner_split howner
  have hown : Owns recordSpec key r = true := owns_iff.mpr ⟨hlive, hkey⟩
  have hfits := h.fits
  rw [hsplit, fitsFrom_append] at hfits
  have hin := hfits.2.2.1 hlive
  have hshows := h.shows
  rw [hsplit] at hshows
  have hvalue := flashBytes_of_shows hshows (by omega)
  simp only [halFlashRead, stm32FlashRead, flashFindFirstValidEntry_some h hsplit hpre hown,
    h.header hsplit, header_size_toNat, hvalue]
  by_cases hcrc : r.crc = flashCalculateCrc r.value
  · rw [if_neg (by simp [Record.header, hcrc]), if_pos hcrc]
  · rw [if_pos (by simp [Record.header, hcrc]), if_neg hcrc]

end Walks

/-- The value a read returns, when it returns `HAL_OK`. -/
def storedValue (s : Storage) (mem : Mem) (key : UInt8) : Option (List UInt8) :=
  if (halFlashRead s mem key).status = .ok then some (halFlashRead s mem key).value else none

/-- **Reading is looking the key up in the log.** -/
theorem storedValue_layout {s : Storage} {mem : Mem} {rs : List Record} (h : Layout s mem rs) :
    storedValue s mem = lookup recordSpec rs := by
  funext key
  cases howner : owner recordSpec rs key with
  | none => simp [storedValue, halFlashRead_none h howner, lookup, howner]
  | some r =>
    by_cases hcrc : r.crc = flashCalculateCrc r.value <;>
      simp [storedValue, halFlashRead_some h howner, lookup, howner, Record.read, hcrc]

end NavHAL.Flash
