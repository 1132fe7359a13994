import NavHAL.Flash.Compaction

/-!
# Where the key/value store programs (`flash.c`)

The next record is looked for right after the bytes of the last, but those are written
in whole half-words; and the end of the sector is checked for the free pointer only.

* `RunInside` : every half-word that a run programs has an even address inside its sector;
* `kv_writes_inside` : so it is if every save starts at an even offset and its record
  ends inside, and without a compaction only then.
-/

namespace NavHAL.Flash

open Memory LogMap

/-! ## Operations inside the store -/

/-- A half-word inside `[start, stop)`; an erase programs none. -/
def FlashOp.HalfWordIn (start stop : Nat) : FlashOp → Prop
  | .program addr _ _ => addr % 2 = 0 ∧ start ≤ addr ∧ addr + 2 ≤ stop
  | .erase .. => True

instance (start stop : Nat) : (op : FlashOp) → Decidable (op.HalfWordIn start stop)
  | .program addr _ _ => inferInstanceAs (Decidable (addr % 2 = 0 ∧ start ≤ addr ∧ addr + 2 ≤ stop))
  | .erase .. => isTrue trivial

/-- The call has a save find the sector full. -/
def Compacts (s : Storage) (mem : Mem) : KvCall → Prop
  | .save .. => flashFindNextFree s mem = none
  | .delete _ | .erase | .read _ => False

instance (s : Storage) (mem : Mem) : (call : KvCall) → Decidable (Compacts s mem call)
  | .save .. => inferInstanceAs (Decidable (flashFindNextFree s mem = none))
  | .delete _ | .erase | .read _ => isFalse not_false

/-- The bytes left from the free pointer on are fewer than header and value. -/
def TooSmall (s : Storage) (mem : Mem) : KvCall → Prop
  | .save _ value _ => ∃ ptr ∈ flashFindNextFree s mem,
      s.primaryEnd - ptr < recordSize + value.bytes.length
  | .delete _ | .erase | .read _ => False

instance (s : Storage) (mem : Mem) : (call : KvCall) → Decidable (TooSmall s mem call)
  | .save _ value _ =>
    inferInstanceAs (Decidable (∃ ptr ∈ flashFindNextFree s mem,
      s.primaryEnd - ptr < recordSize + value.bytes.length))
  | .delete _ | .erase | .read _ => isFalse not_false

/-- One call: the half-words it programs lie in the primary sector, or while it compacts
in one of the two, and what does not fit makes it erase the primary sector or fail. -/
def StepInside (s : Storage) (dev : FlashDev) (call : KvCall) (status : HalStatus)
    (dev' : FlashDev) : Prop :=
  (∀ op ∈ dev'.log.drop dev.log.length, op.HalfWordIn s.primaryStart s.primaryEnd ∨
      Compacts s dev.mem call ∧ op.HalfWordIn s.secondaryStart s.secondaryEnd) ∧
    (TooSmall s dev.mem call →
      .erase s.primaryStart s.primaryEnd ∈ dev'.log.drop dev.log.length ∨ status ≠ .ok)

instance (s : Storage) (dev : FlashDev) (call : KvCall) (status : HalStatus) (dev' : FlashDev) :
    Decidable (StepInside s dev call status dev') := by
  unfold StepInside
  infer_instance

/-- Every call of the run returns, and is so. -/
def RunInside (s : Storage) : FlashDev → List KvCall → Prop
  | _, [] => True
  | dev, call :: calls =>
    match kvStep s dev call with
    | some (status, dev') => StepInside s dev call status dev' ∧ RunInside s dev' calls
    | none => False

/-! ## The condition -/

/-- The record starts at an even offset and ends inside the sector, also after the
compaction that it may need. -/
def SaveInside (s : Storage) (mem : Mem) (len : Nat) : Prop :=
  SaveFits s mem len ∧
    (usedBytes (primaryHeaders s mem) < s.primarySize → usedBytes (primaryHeaders s mem) % 2 = 0)

instance (s : Storage) (mem : Mem) (len : Nat) : Decidable (SaveInside s mem len) := by
  unfold SaveInside
  infer_instance

def CallInside (s : Storage) (mem : Mem) : KvCall → Prop
  | .save _ value _ => SaveInside s mem value.bytes.length
  | .delete _ | .erase | .read _ => True

instance (s : Storage) (mem : Mem) : (call : KvCall) → Decidable (CallInside s mem call)
  | .save _ value _ => inferInstanceAs (Decidable (SaveInside s mem value.bytes.length))
  | .delete _ | .erase | .read _ => isTrue trivial

/-- A property of every call of the run, in the state it is made in. -/
def EachCall (s : Storage) (P : Mem → KvCall → Prop) : FlashDev → List KvCall → Prop
  | _, [] => True
  | dev, call :: calls => P dev.mem call ∧
      match kvStep s dev call with
      | some (_, dev') => EachCall s P dev' calls
      | none => True

instance decidableEachCall (s : Storage) (P : Mem → KvCall → Prop)
    [∀ mem call, Decidable (P mem call)] :
    (dev : FlashDev) → (calls : List KvCall) → Decidable (EachCall s P dev calls)
  | _, [] => isTrue trivial
  | dev, call :: calls =>
    have : Decidable (match kvStep s dev call with
        | some (_, dev') => EachCall s P dev' calls
        | none => True) :=
      match kvStep s dev call with
      | some (_, dev') => decidableEachCall s P dev' calls
      | none => isTrue trivial
    inferInstanceAs (Decidable (_ ∧ _))

/-! ## Even offsets -/

/-- From offset `off` on every header stands at an even offset; the last value may be
of an odd size. -/
def AlignedFrom : Nat → List Record → Prop
  | _, [] => True
  | off, r :: rs => off % 2 = 0 ∧ AlignedFrom (off + (6 + r.value.length)) rs

/-- Sectors begin and end at even addresses. -/
structure EvenSectors (s : Storage) : Prop where
  primaryStart : s.primaryStart % 2 = 0
  primaryEnd : s.primaryEnd % 2 = 0
  secondaryStart : s.secondaryStart % 2 = 0
  secondaryEnd : s.secondaryEnd % 2 = 0

/-- What keeps half-words inside: records that lie at even offsets and end in the sector. -/
structure Neat (s : Storage) (mem : Mem) (rs : List Record) : Prop extends LaidOut s mem rs where
  aligned : AlignedFrom 0 rs
  within : (image rs).length ≤ s.primarySize

section

variable {s : Storage} {rs : List Record} {dev : FlashDev}

theorem alignedFrom_append (off : Nat) (rs ts : List Record) :
    AlignedFrom off (rs ++ ts) ↔
      AlignedFrom off rs ∧ AlignedFrom (off + (image rs).length) ts := by
  induction rs generalizing off with
  | nil => simp [AlignedFrom]
  | cons r rs ih =>
    rw [List.cons_append, AlignedFrom, AlignedFrom, ih, image_cons_length, and_assoc,
      Nat.add_assoc off]

theorem AlignedFrom.killOwner {off : Nat} (h : AlignedFrom off rs) (key : UInt8) :
    AlignedFrom off (killOwner recordSpec key rs) := by
  induction rs generalizing off with
  | nil => exact h
  | cons r rs ih =>
    rw [LogMap.killOwner]
    split
    · exact h
    · exact ⟨h.1, ih h.2⟩

/-- Records that end at an even offset have even sizes. -/
theorem AlignedFrom.even {off : Nat} (h : AlignedFrom off rs)
    (hend : (off + (image rs).length) % 2 = 0) : ∀ r ∈ rs, r.value.length % 2 = 0 := by
  induction rs generalizing off with
  | nil => simp
  | cons r rs ih =>
    rw [image_cons_length] at hend
    have hrest := ih h.2 (by rw [← hend]; congr 1; omega)
    intro t ht
    rcases List.mem_cons.mp ht with rfl | hmem
    · have hoff := h.1
      cases rs with
      | nil =>
        rw [image_nil, List.length_nil] at hend
        omega
      | cons u rs =>
        have hnext := h.2.1
        omega
    · exact hrest t hmem

/-- And stand at even offsets wherever they are moved. -/
theorem alignedFrom_of_even {off : Nat} (hoff : off % 2 = 0)
    (h : ∀ r ∈ rs, r.value.length % 2 = 0) : AlignedFrom off rs := by
  induction rs generalizing off with
  | nil => trivial
  | cons r rs ih =>
    have hr := h r (List.mem_cons_self ..)
    exact ⟨hoff, ih (by omega) (fun t ht => h t (List.mem_cons_of_mem _ ht))⟩

theorem image_even (h : ∀ r ∈ rs, r.value.length % 2 = 0) : (image rs).length % 2 = 0 := by
  induction rs with
  | nil => rfl
  | cons r rs ih =>
    have hr := h r (List.mem_cons_self ..)
    have hrest := ih (fun t ht => h t (List.mem_cons_of_mem _ ht))
    rw [image_cons_length]
    omega

/-! ## Where the half-words go -/

/-- The bytes from an even address on, with the one that a half-word adds. -/
theorem halfWords_in {start stop a : Nat} {bytes : List UInt8} (ha : a % 2 = 0) (hstop : stop % 2 = 0)
    (hstart : start ≤ a) (hin : a + bytes.length ≤ stop) :
    ∀ op ∈ halfWords a bytes, op.HalfWordIn start stop := by
  fun_induction halfWords a bytes with
  | case1 => simp
  | case2 a b =>
    intro op hop
    rw [List.mem_singleton.mp hop]
    rw [List.length_singleton] at hin
    exact ⟨ha, hstart, by omega⟩
  | case3 a b c rest ih =>
    rw [List.length_cons, List.length_cons] at hin
    intro op hop
    rcases List.mem_cons.mp hop with rfl | hrest
    · exact ⟨ha, hstart, by omega⟩
    · exact ih (by omega) (by omega) (by omega) op hrest

theorem copyOps_in {start stop a : Nat} (ha : a % 2 = 0) (hstop : stop % 2 = 0)
    (hstart : start ≤ a) (heven : ∀ r ∈ rs, r.value.length % 2 = 0)
    (hin : a + (image rs).length ≤ stop) : ∀ op ∈ copyOps a rs, op.HalfWordIn start stop := by
  induction rs generalizing a with
  | nil => simp [copyOps]
  | cons r rs ih =>
    have hr := heven r (List.mem_cons_self ..)
    have hlen := encode_length r
    rw [image_cons_length] at hin
    intro op hop
    rcases List.mem_append.mp hop with hhead | hrest
    · exact halfWords_in ha hstop hstart (by omega) op hhead
    · exact ih (by omega) (by omega) (fun t ht => heven t (List.mem_cons_of_mem _ ht)) (by omega)
        op hrest

/-- A header is rewritten where it stands. -/
theorem supersedeOps_in {start stop off : Nat} (hstart : start % 2 = 0) (hstop : stop % 2 = 0)
    (h : AlignedFrom off rs) (hfits : FitsFrom (stop - start) off rs) (key : UInt8) :
    ∀ op ∈ supersedeOps key (start + off) rs, op.HalfWordIn start stop := by
  induction rs generalizing off with
  | nil => simp [supersedeOps]
  | cons r rs ih =>
    obtain ⟨hoff, hrest⟩ := h
    obtain ⟨hhead, -, hfits⟩ := hfits
    rw [supersedeOps]
    split
    · exact halfWords_in (by omega) hstop (Nat.le_add_right _ _)
        (by rw [header_bytes_length]; omega)
    · rw [Nat.add_assoc]
      exact ih hrest (by rw [← Nat.add_assoc]; exact hfits)

theorem Neat.supersede_in {mem : Mem} (h : Neat s mem rs) (hs : EvenSectors s) (key : UInt8) :
    ∀ op ∈ supersedeOps key s.primaryStart rs, op.HalfWordIn s.primaryStart s.primaryEnd :=
  supersedeOps_in hs.primaryStart hs.primaryEnd h.aligned h.layout.fits key

theorem Neat.append_in {mem : Mem} (h : Neat s mem rs) (hs : EvenSectors s)
    (hused : (image rs).length % 2 = 0) (key : UInt8) (value : List UInt8) (reserved : UInt8)
    (hroom : (image rs).length + (6 + value.length) ≤ s.primarySize) :
    ∀ op ∈ appendOps s rs key value reserved, op.HalfWordIn s.primaryStart s.primaryEnd := by
  have hend := s.primary_end
  have hstart := hs.primaryStart
  have hheader := header_bytes_length (newRecord key value reserved)
  intro op hop
  rcases List.mem_append.mp hop with hsuper | hnew
  · exact h.supersede_in hs key op hsuper
  rcases List.mem_append.mp hnew with hhead | hvalue
  · exact halfWords_in (by omega) hs.primaryEnd (Nat.le_add_right _ _) (by omega) op hhead
  · rw [valueOps, recordSize] at hvalue
    split at hvalue
    · cases hvalue
    · exact halfWords_in (by omega) hs.primaryEnd (by omega) (by omega) op hvalue

theorem erase_not_mem_halfWords (start stop a : Nat) (bytes : List UInt8) :
    .erase start stop ∉ halfWords a bytes := by
  fun_induction halfWords a bytes with
  | case1 => simp
  | case2 a b => simp
  | case3 a b c rest ih => simpa using ih

theorem erase_not_mem_supersedeOps (start stop : Nat) (key : UInt8) (a : Nat) (rs : List Record) :
    .erase start stop ∉ supersedeOps key a rs := by
  induction rs generalizing a with
  | nil => simp [supersedeOps]
  | cons r rs ih =>
    rw [supersedeOps]
    split
    · exact erase_not_mem_halfWords _ _ _ _
    · exact ih _

/-- A save that finds a free pointer erases nothing. -/
theorem erase_not_mem_appendOps (start stop : Nat) (key : UInt8) (value : List UInt8)
    (reserved : UInt8) : .erase start stop ∉ appendOps s rs key value reserved := by
  intro hmem
  rcases List.mem_append.mp hmem with hsuper | hnew
  · exact erase_not_mem_supersedeOps _ _ _ _ _ hsuper
  rcases List.mem_append.mp hnew with hhead | hvalue
  · exact erase_not_mem_halfWords _ _ _ _ hhead
  · rw [valueOps] at hvalue
    split at hvalue
    · cases hvalue
    · exact erase_not_mem_halfWords _ _ _ _ hvalue

/-- The copies of a full sector, there and back. -/
theorem compactOps_in (hs : EvenSectors s) (heven : ∀ r ∈ rs, r.value.length % 2 = 0)
    (hprimary : (image (compact recordSpec rs)).length ≤ s.primarySize)
    (hsecondary : (image (compact recordSpec rs)).length ≤ s.secondarySize) :
    ∀ op ∈ compactOps s rs, op.HalfWordIn s.primaryStart s.primaryEnd ∨
      op.HalfWordIn s.secondaryStart s.secondaryEnd := by
  have hend := s.primary_end
  have hend' := s.secondary_end
  have hlive : ∀ r ∈ compact recordSpec rs, r.value.length % 2 = 0 :=
    fun r hr => heven r (mem_compact.mp hr).1
  intro op hop
  rcases List.mem_append.mp hop with hout | hrest
  · exact .inr (copyOps_in hs.secondaryStart hs.secondaryEnd (Nat.le_refl _) hlive (by omega) op hout)
  rcases List.mem_cons.mp hrest with rfl | hrest
  · exact .inl trivial
  rcases List.mem_append.mp hrest with hback | hlast
  · exact .inl (copyOps_in hs.primaryStart hs.primaryEnd (Nat.le_refl _) hlive (by omega) op hback)
  · rw [List.mem_singleton.mp hlast]
    exact .inl trivial

/-! ## One call -/

/-- The condition on a save, in terms of the records. -/
theorem saveInside_layout {mem : Mem} (h : Layout s mem rs) (len : Nat) :
    SaveInside s mem len ↔
      SaveFits s mem len ∧ ((image rs).length < s.primarySize → (image rs).length % 2 = 0) := by
  simp only [SaveInside, primaryHeaders_layout h, usedBytes_headers]

theorem Neat.append {mem mem' : Mem} (h : Neat s mem rs) {key : UInt8} {r : Record}
    (hused : (image rs).length % 2 = 0)
    (hroom : (image rs).length + (6 + r.value.length) ≤ s.primarySize)
    (hlaid : LaidOut s mem' (killOwner recordSpec key rs ++ [r])) :
    Neat s mem' (killOwner recordSpec key rs ++ [r]) where
  toLaidOut := hlaid
  aligned := by
    rw [alignedFrom_append, image_killOwner_length, Nat.zero_add]
    exact ⟨h.aligned.killOwner key, hused, trivial⟩
  within := by
    rw [image_concat_length, image_killOwner_length]
    exact hroom

/-- The records of a full sector have even sizes. -/
theorem Neat.full {mem : Mem} (h : Neat s mem rs) (hs : EvenSectors s)
    (hfull : ¬ (image rs).length < s.primarySize) : ∀ r ∈ rs, r.value.length % 2 = 0 := by
  have hwithin := h.within
  have hstart := hs.primaryStart
  have hend := hs.primaryEnd
  have hsize := s.primary_end
  exact h.aligned.even (by omega)

theorem Neat.compacted (h : Neat s dev.mem rs) (hs : EvenSectors s)
    (hfull : ¬ (image rs).length < s.primarySize) (hmov : ∀ r ∈ rs, r.Movable)
    (hsec : (image (compact recordSpec rs)).length ≤ s.secondarySize) :
    Neat s (dev.issueAll (compactOps s rs)).mem (compact recordSpec rs) where
  toLaidOut := h.toLaidOut.compacted hmov hsec
  aligned := alignedFrom_of_even rfl fun r hr => h.full hs hfull r (mem_compact.mp hr).1
  within := by
    have hle := (h.layout.fits.compact (Nat.le_refl 0)).image_le (fun t ht => compact_valid ht)
      (Nat.zero_le _)
    omega

/-- What a call logs. -/
theorem drop_issueAll (dev : FlashDev) (ops : List FlashOp) :
    (dev.issueAll ops).log.drop dev.log.length = ops := by
  rw [FlashDev.issueAll_log, List.drop_left]

/-- A save where the records end. -/
theorem Neat.append_step (h : Neat s dev.mem rs) (hs : EvenSectors s)
    (hlt : (image rs).length < s.primarySize) (hused : (image rs).length % 2 = 0) (key : UInt8)
    (value : SavedValue) (reserved : UInt8)
    (hroom : (image rs).length + (6 + value.bytes.length) ≤ s.primarySize) (status : HalStatus) :
    StepInside s dev (.save key value reserved) status
      (dev.issueAll (appendOps s rs key value.bytes reserved)) := by
  have hfree := flashFindNextFree_layout h.layout
  have hend := s.primary_end
  rw [if_neg (by omega)] at hfree
  rw [StepInside, drop_issueAll]
  refine ⟨fun op hop => .inl (h.append_in hs hused key _ reserved hroom op hop), ?_⟩
  rintro ⟨ptr, hptr, hsmall⟩
  rw [hfree, Option.mem_some_iff] at hptr
  rw [recordSize] at hsmall
  omega

/-- A save that finds the sector full: the copies, and what is appended to them. -/
theorem Neat.compact_step (h : Neat s dev.mem rs) (hs : EvenSectors s)
    (hfull : ¬ (image rs).length < s.primarySize) (hmov : ∀ r ∈ rs, r.Movable)
    (hsec : (image (compact recordSpec rs)).length ≤ s.secondarySize) (key : UInt8)
    (value : SavedValue) (reserved : UInt8) {ops : List FlashOp}
    (hops : ∀ op ∈ ops, op.HalfWordIn s.primaryStart s.primaryEnd) (status : HalStatus) :
    StepInside s dev (.save key value reserved) status
      (dev.issueAll (compactOps s rs ++ ops)) := by
  have hfree := flashFindNextFree_layout h.layout
  have hend := s.primary_end
  rw [if_pos (by omega)] at hfree
  rw [StepInside, drop_issueAll]
  refine ⟨?_, ?_⟩
  · intro op hop
    rcases List.mem_append.mp hop with hcopy | hnew
    · rcases compactOps_in hs (h.full hs hfull) (h.compacted hs hfull hmov hsec).within hsec op
        hcopy with hin | hin
      · exact .inl hin
      · exact .inr ⟨hfree, hin⟩
    · exact .inl (hops op hnew)
  · rintro ⟨ptr, hptr, -⟩
    rw [hfree] at hptr
    cases hptr

theorem Neat.save (h : Neat s dev.mem rs) (hs : EvenSectors s) (key : UInt8) (value : SavedValue)
    (reserved : UInt8) (hinside : SaveInside s dev.mem value.bytes.length) :
    ∃ status, halFlashSave s dev key value.bytes reserved =
        some (status, dev.issueAll (wholeSaveOps s rs key value.bytes reserved)) ∧
      StepInside s dev (.save key value reserved) status
        (dev.issueAll (wholeSaveOps s rs key value.bytes reserved)) ∧
      Neat s (dev.issueAll (wholeSaveOps s rs key value.bytes reserved)).mem
        (recordsAfterSave s rs key value reserved) := by
  obtain ⟨hfits, heven⟩ := (saveInside_layout h.layout _).mp hinside
  obtain ⟨status, hsave, hlaid⟩ := h.toLaidOut.save key value reserved hfits
  have hroom := (saveFits_layout h.layout _).mp hfits
  have hlen := writtenRecord_length key value.bytes reserved value.size_lt
  refine ⟨status, hsave, ?_⟩
  by_cases hlt : (image rs).length < s.primarySize
  · rw [if_pos hlt] at hroom
    simp only [wholeSaveOps, recordsAfterSave, recordsAtSave, if_pos hlt] at hlaid ⊢
    exact ⟨h.append_step hs hlt (heven hlt) key value reserved hroom status,
      h.append (heven hlt) (by rw [hlen]; exact hroom) hlaid⟩
  · rw [if_neg hlt] at hroom
    obtain ⟨hmov, hsec, hlive⟩ := hroom
    have hneat := h.compacted hs hlt hmov hsec
    have hused : (image (compact recordSpec rs)).length % 2 = 0 :=
      image_even fun r hr => h.full hs hlt r (mem_compact.mp hr).1
    simp only [wholeSaveOps, recordsAfterSave, recordsAtSave, if_neg hlt] at hlaid ⊢
    by_cases hlt' : (image (compact recordSpec rs)).length < s.primarySize
    · simp only [if_pos hlt'] at hlaid ⊢
      have hnew := hneat.append_in hs hused key value.bytes reserved (by omega)
      exact ⟨h.compact_step hs hlt hmov hsec key value reserved hnew status,
        hneat.append hused (by rw [hlen]; omega) hlaid⟩
    · simp only [if_neg hlt'] at hlaid ⊢
      exact ⟨h.compact_step hs hlt hmov hsec key value reserved (by simp) status,
        hlaid, hneat.aligned, hneat.within⟩

/-- With a free pointer nothing else is inside: the first half-word of the header tells
the offset, and the bytes that are left the size. -/
theorem Neat.save_only (h : Neat s dev.mem rs) (hs : EvenSectors s)
    (hlt : (image rs).length < s.primarySize) {key : UInt8} {value : SavedValue} {reserved : UInt8}
    (hin : StepInside s dev (.save key value reserved) .ok
      (dev.issueAll (appendOps s rs key value.bytes reserved))) :
    SaveInside s dev.mem value.bytes.length := by
  have hfree := flashFindNextFree_layout h.layout
  have hend := s.primary_end
  have hstart := hs.primaryStart
  rw [if_neg (by omega)] at hfree
  obtain ⟨hops, hsmall⟩ := hin
  rw [drop_issueAll] at hops hsmall
  have hfirst : FlashOp.program (s.primaryStart + (image rs).length) flashMagicNumber key ∈
      appendOps s rs key value.bytes reserved :=
    List.mem_append_right _ (List.mem_append_left _ (List.mem_cons_self ..))
  rw [saveInside_layout h.layout, saveFits_layout h.layout, if_pos hlt]
  refine ⟨Nat.le_of_not_lt ?_, fun _ => ?_⟩
  · intro hbig
    have hleft : s.primaryEnd - (s.primaryStart + (image rs).length) <
        recordSize + value.bytes.length := by
      rw [recordSize]
      omega
    rcases hsmall ⟨_, hfree, hleft⟩ with herase | hfails
    · exact erase_not_mem_appendOps _ _ _ _ _ herase
    · exact hfails rfl
  · rcases hops _ hfirst with ⟨heven, -⟩ | ⟨hfull, -⟩
    · omega
    · rw [Compacts, hfree] at hfull
      cases hfull

theorem Neat.delete (h : Neat s dev.mem rs) (key : UInt8) :
    Neat s (halFlashDelete s dev key).2.mem (killOwner recordSpec key rs) where
  toLaidOut := h.toLaidOut.delete key
  aligned := h.aligned.killOwner key
  within := by
    rw [image_killOwner_length]
    exact h.within

theorem Neat.delete_inside (h : Neat s dev.mem rs) (hs : EvenSectors s) (key : UInt8) :
    StepInside s dev (.delete key) (halFlashDelete s dev key).1 (halFlashDelete s dev key).2 := by
  refine ⟨?_, fun hsmall => hsmall.elim⟩
  rw [halFlashDelete_ops h.layout, drop_issueAll]
  exact fun op hop => .inl (h.supersede_in hs key op hop)

theorem erase_inside (s : Storage) (dev : FlashDev) :
    StepInside s dev .erase (halFlashErase s dev).1 (halFlashErase s dev).2 := by
  have hops : (halFlashErase s dev).2 = dev.issueAll
      [.erase s.primaryStart s.primaryEnd, .erase s.secondaryStart s.secondaryEnd] := rfl
  refine ⟨?_, fun hsmall => hsmall.elim⟩
  rw [hops, drop_issueAll]
  intro op hop
  simp only [List.mem_cons, List.not_mem_nil, or_false] at hop
  rcases hop with rfl | rfl
  · exact .inl trivial
  · exact .inl trivial

theorem neat_nil (s : Storage) {mem : Mem} (h : Layout s mem []) : Neat s mem [] where
  layout := h
  kept := by simp
  aligned := trivial
  within := Nat.zero_le _

/-- One call that meets its condition. -/
theorem Neat.step (h : Neat s dev.mem rs) (hs : EvenSectors s) (call : KvCall)
    (hinside : CallInside s dev.mem call) :
    ∃ status dev' rs', kvStep s dev call = some (status, dev') ∧
      StepInside s dev call status dev' ∧ Neat s dev'.mem rs' := by
  cases call with
  | save key value reserved =>
    obtain ⟨status, hsave, hin, hneat⟩ := h.save hs key value reserved hinside
    exact ⟨status, _, _, hsave, hin, hneat⟩
  | delete key => exact ⟨_, _, _, rfl, h.delete_inside hs key, h.delete key⟩
  | erase => exact ⟨_, _, [], rfl, erase_inside s dev, neat_nil s (layout_erased s dev.mem)⟩
  | read key =>
    refine ⟨_, _, rs, rfl, ⟨?_, fun hsmall => hsmall.elim⟩, h⟩
    rw [List.drop_length]
    simp

/-- One call without a compaction is inside only if it meets its condition. -/
theorem Neat.step_only (h : Neat s dev.mem rs) (hs : EvenSectors s) {call : KvCall}
    (hfree : ¬ Compacts s dev.mem call) {status : HalStatus} {dev' : FlashDev}
    (hstep : kvStep s dev call = some (status, dev')) (hin : StepInside s dev call status dev') :
    CallInside s dev.mem call := by
  cases call with
  | save key value reserved =>
    have hlt : (image rs).length < s.primarySize := by
      have hnext := flashFindNextFree_layout h.layout
      have hend := s.primary_end
      refine Decidable.byContradiction fun hfull => hfree ?_
      rw [if_pos (by omega)] at hnext
      exact hnext
    have hsave : kvStep s dev (.save key value reserved) = _ :=
      h.toLaidOut.save_free hlt key value reserved
    rw [hstep] at hsave
    cases hsave
    exact h.save_only hs hlt hin
  | delete key => trivial
  | erase => trivial
  | read key => trivial

/-! ## Runs -/

theorem Neat.run (hs : EvenSectors s) (calls : List KvCall) :
    ∀ {dev : FlashDev} {rs : List Record}, Neat s dev.mem rs →
      EachCall s (CallInside s) dev calls → RunInside s dev calls := by
  induction calls with
  | nil =>
    intro dev rs _ _
    trivial
  | cons call calls ih =>
    intro dev rs h hinside
    obtain ⟨hcall, hrest⟩ := hinside
    obtain ⟨status, dev', rs', hstep, hin, hneat⟩ := h.step hs call hcall
    rw [hstep] at hrest
    rw [RunInside, hstep]
    exact ⟨hin, ih hneat hrest⟩

/-- By induction on the calls: the first that misses its condition is not inside, and
those before it leave the records at even offsets. -/
theorem Neat.run_only (hs : EvenSectors s) (calls : List KvCall) :
    ∀ {dev : FlashDev} {rs : List Record}, Neat s dev.mem rs →
      EachCall s (fun mem call => ¬ Compacts s mem call) dev calls →
      RunInside s dev calls → EachCall s (CallInside s) dev calls := by
  induction calls with
  | nil =>
    intro dev rs _ _ _
    trivial
  | cons call calls ih =>
    intro dev rs h hfree hrun
    obtain ⟨hcall, hrest⟩ := hfree
    rw [RunInside] at hrun
    rw [EachCall]
    cases hstep : kvStep s dev call with
    | none =>
      rw [hstep] at hrun
      exact hrun.elim
    | some result =>
      obtain ⟨status, dev'⟩ := result
      rw [hstep] at hrun hrest
      have hinside := h.step_only hs hcall hstep hrun.1
      obtain ⟨status₁, dev₁, rs', hstep₁, -, hneat⟩ := h.step hs call hinside
      rw [hstep] at hstep₁
      cases hstep₁
      exact ⟨hinside, ih hneat hrest hrun.2⟩

end

/-! ## From erased sectors -/

theorem KvSectors.evenSectors (c : KvSectors) : EvenSectors c.storage where
  primaryStart := by
    have h : ∀ sector < 8, sectorBase sector % 2 = 0 := by decide
    exact h c.primary c.primary_lt
  primaryEnd := by
    have h : ∀ sector < 8, sectorEnd sector % 2 = 0 := by decide
    exact h c.primary c.primary_lt
  secondaryStart := by
    have h : ∀ sector < 8, sectorBase sector % 2 = 0 := by decide
    exact h c.secondary c.secondary_lt
  secondaryEnd := by
    have h : ∀ sector < 8, sectorEnd sector % 2 = 0 := by decide
    exact h c.secondary c.secondary_lt

/-- From erased sectors every half-word is where it belongs if each save begins at an
even offset and ends inside, with a compaction that it may need of records that move;
in a run that needs none, only then. -/
theorem kv_writes_inside (c : KvSectors) (dev : FlashDev) (calls : List KvCall)
    (herased : Erased c.storage dev.mem) :
    (EachCall c.storage (CallInside c.storage) dev calls → RunInside c.storage dev calls) ∧
      (EachCall c.storage (fun mem call => ¬ Compacts c.storage mem call) dev calls →
        (RunInside c.storage dev calls ↔
          EachCall c.storage (CallInside c.storage) dev calls)) := by
  have hneat : Neat c.storage dev.mem [] := neat_nil _ ⟨herased.1, trivial, herased.2⟩
  have hrun := @Neat.run c.storage c.evenSectors calls dev [] hneat
  exact ⟨hrun, fun hfree => ⟨hneat.run_only c.evenSectors calls hfree, hrun⟩⟩

/-- A value of two bytes, saved twice, and deleted. -/
theorem even_values_inside :
    RunInside bootKvSectors.storage blankDev
      [.save 1 (zeros 2 (by decide) (by decide)) 0, .save 1 (zeros 2 (by decide) (by decide)) 0,
        .delete 1] :=
  (kv_writes_inside bootKvSectors blankDev _ ⟨fun _ _ => rfl, fun _ _ => rfl⟩).1
    (by decide +kernel)

/-- After a value of one byte the header of the next record starts at an odd address. -/
theorem odd_value_misaligns :
    Erased bootKvSectors.storage blankDev.mem ∧
      ¬ RunInside bootKvSectors.storage blankDev
        [.save 1 (zeros 1 (by decide) (by decide)) 0,
          .save 2 (zeros 1 (by decide) (by decide)) 0] := by
  have herased : Erased bootKvSectors.storage blankDev.mem := ⟨fun _ _ => rfl, fun _ _ => rfl⟩
  refine ⟨herased, fun hrun => ?_⟩
  have hneat : Neat bootKvSectors.storage blankDev.mem [] :=
    neat_nil _ ⟨herased.1, trivial, herased.2⟩
  have hinside := hneat.run_only bootKvSectors.evenSectors _ (by decide +kernel) hrun
  exact absurd hinside (by decide +kernel)

end NavHAL.Flash
