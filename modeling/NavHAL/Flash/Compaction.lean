import NavHAL.Flash.Hole
import NavHAL.Flash.FiniteMap

/-!
# What a compaction makes of the log

A compaction of what calls have left in the primary sector, whatever their values and
their sizes up to 255.  `total_size` is a `uint8_t`: a deleted record of 250 bytes
stops the first copy loop where it stands, a valid one of 249 is passed over.

* `CompactsRight` : the compaction ends, the primary sector shows the valid records
  and the secondary one is erased;
* `LaidOut.run` : calls of any size leave a layout, if their records end inside the
  sector and a compaction on the way is right;
* `Arrives` : the first copy loop at the first record it cannot move.
-/

namespace NavHAL.Flash

open Memory LogMap

/-! ## One content and its compaction -/

/-- The bytes of the valid records of the primary sector, in order. -/
def validBytesFrom (s : Storage) (mem : Mem) : Nat → Nat → List UInt8
  | 0, _ => []
  | fuel + 1, ptr =>
    let rec' := recordAt mem ptr
    if rec'.magic = flashMagicNumber ∧ ptr < s.primaryEnd then
      (if rec'.status = flashValid then flashBytes mem ptr (recordSize + rec'.size.toNat)
        else []) ++
        validBytesFrom s mem fuel (ptr + rec'.size.toNat + recordSize)
    else []

def validBytes (s : Storage) (mem : Mem) : List UInt8 :=
  validBytesFrom s mem (s.primaryEnd - s.primaryStart) s.primaryStart

/-- The compaction ends and keeps the valid records, byte for byte, and nothing else. -/
def CompactsRight (s : Storage) (dev : FlashDev) : Prop :=
  ∃ dev', flashCompactStorage s dev = some (.ok, dev') ∧
    Shows dev'.mem s.primaryStart s.primarySize (validBytes s dev.mem) ∧
    Shows dev'.mem s.secondaryStart s.secondarySize []

/-! ## Calls that keep the records in place -/

/-- The record ends inside the primary sector, and a compaction on the way moves
records it can move into a sector that holds them.  The size may be any. -/
def SaveFits (s : Storage) (mem : Mem) (len : Nat) : Prop :=
  let hs := primaryHeaders s mem
  let live := usedBytes (liveHeaders hs)
  if usedBytes hs < s.primarySize then usedBytes hs + (6 + len) ≤ s.primarySize
  else (∀ h ∈ hs, h.Movable) ∧ live ≤ s.secondarySize ∧
    (s.primarySize ≤ live ∨ live + (6 + len) ≤ s.primarySize)

instance (s : Storage) (mem : Mem) (len : Nat) : Decidable (SaveFits s mem len) := by
  unfold SaveFits
  infer_instance

def CallFits (s : Storage) (mem : Mem) : KvCall → Prop
  | .save _ value _ => SaveFits s mem value.bytes.length
  | _ => True

instance (s : Storage) (mem : Mem) : (call : KvCall) → Decidable (CallFits s mem call)
  | .save _ value _ => inferInstanceAs (Decidable (SaveFits s mem value.bytes.length))
  | .delete _ | .erase | .read _ => isTrue trivial

/-- Every call of the run meets the condition in the state it is made in. -/
def CallsFit (s : Storage) : FlashDev → List KvCall → Prop
  | _, [] => True
  | dev, call :: calls => CallFits s dev.mem call ∧
      match kvStep s dev call with
      | some (_, dev') => CallsFit s dev' calls
      | none => True

instance decidableCallsFit (s : Storage) :
    (dev : FlashDev) → (calls : List KvCall) → Decidable (CallsFit s dev calls)
  | _, [] => isTrue trivial
  | dev, call :: calls =>
    have : Decidable (match kvStep s dev call with
        | some (_, dev') => CallsFit s dev' calls
        | none => True) :=
      match kvStep s dev call with
      | some (_, dev') => decidableCallsFit s dev' calls
      | none => isTrue trivial
    inferInstanceAs (Decidable (_ ∧ _))

/-! ## The invariant -/

/-- Records that no power cut has torn lie in the primary sector. -/
structure LaidOut (s : Storage) (mem : Mem) (rs : List Record) : Prop where
  layout : Layout s mem rs
  kept : ∀ r ∈ rs, r.Kept

section

variable {s : Storage} {rs : List Record} {dev : FlashDev}

theorem LaidOut.settled {mem : Mem} (h : LaidOut s mem rs) : Settled s rs := .kept h.kept

theorem erased_255_lt : (List.replicate 255 (0xFF : UInt8)).length < 256 := by
  rw [List.length_replicate]
  decide

/-- The record a save leaves; of a value of 255 bytes nothing is written. -/
def writtenRecord (key : UInt8) (value : List UInt8) (reserved : UInt8) (h : value.length < 256) :
    Record :=
  if value.length = 255 then
    { savedRecord key value reserved h with
      value := List.replicate 255 0xFF
      size_lt := erased_255_lt }
  else savedRecord key value reserved h

theorem writtenRecord_length (key : UInt8) (value : List UInt8) (reserved : UInt8)
    (h : value.length < 256) : (writtenRecord key value reserved h).value.length = value.length := by
  unfold writtenRecord
  split
  · rename_i h255
    rw [List.length_replicate, h255]
  · rfl

theorem writtenRecord_valid (key : UInt8) (value : List UInt8) (reserved : UInt8)
    (h : value.length < 256) : (writtenRecord key value reserved h).valid = true := by
  unfold writtenRecord
  split <;> rfl

/-- A value of 255 bytes: `padded_size` is 0. -/
theorem flashWriteData_255 (dev : FlashDev) (addr : Nat) (data : Source) :
    flashWriteData dev addr data 255 = (.ok, dev) := rfl

/-- A value as it is written: of 255 bytes, whose `padded_size` is 0, nothing is. -/
def valueOps (a : Nat) (value : List UInt8) : List FlashOp :=
  if value.length = 255 then [] else halfWords a value

/-- What a save that knows where to write asks of the flash, whatever its size. -/
def appendOps (s : Storage) (rs : List Record) (key : UInt8) (value : List UInt8)
    (reserved : UInt8) : List FlashOp :=
  supersedeOps key s.primaryStart rs ++
    (halfWords (s.primaryStart + (image rs).length) (newRecord key value reserved).bytes ++
      valueOps (s.primaryStart + (image rs).length + recordSize) value)

theorem saveAt_appendOps (h : Layout s dev.mem rs) (key : UInt8) (value : SavedValue)
    (reserved : UInt8) :
    saveAt s dev (s.primaryStart + (image rs).length) key value.bytes reserved =
      (.ok, dev.issueAll (appendOps s rs key value.bytes reserved)) := by
  have hle := value.size_le
  refine saveAt_written h ?_
  intro d
  by_cases h255 : value.bytes.length = 255
  · rw [valueOps, if_pos h255, h255]
    exact flashWriteData_255 d _ _
  · rw [valueOps, if_neg h255]
    exact flashWriteData_ram value.size_pos (by omega)

theorem layout_header_only (h : Layout s dev.mem rs) (key : UInt8) (value : List UInt8)
    (reserved : UInt8) (hlt : value.length < 256) (h255 : value.length = 255)
    (hroom : (image rs).length + (6 + value.length) ≤ s.primarySize) :
    Layout s (applyOps dev.mem (appendOps s rs key value reserved))
      (killOwner recordSpec key rs ++ [writtenRecord key value reserved hlt]) := by
  have hkilled := layout_supersedeOps h key
  have hlen := image_killOwner_length key rs
  have hsize := writtenRecord_length key value reserved hlt
  have hbytes : (newRecord key value reserved).bytes.length = 6 := rfl
  rw [appendOps, valueOps, if_pos h255, List.append_nil, applyOps_append, applyOps_halfWords,
    ← hlen]
  obtain ⟨hshows, hblank⟩ := shows_appended hkilled
    (show _ + (newRecord key value reserved).bytes.length ≤ _ by omega)
  have hencode : (writtenRecord key value reserved hlt).encode =
      (newRecord key value reserved).bytes ++ List.replicate 255 0xFF := by
    have hnew : (newRecord key value reserved).bytes =
        [flashMagicNumber, key, UInt8.ofNat 255, flashValid, reserved, flashCalculateCrc value] := by
      rw [← h255]
      rfl
    rw [writtenRecord, if_pos h255, hnew, Record.encode, Record.header, List.length_replicate]
    rfl
  refine ⟨?_, ?_, hblank⟩
  · rw [image_append, image_cons, image_nil, List.append_nil, hencode, ← List.append_assoc,
      shows_append_erased]
    exact hshows
  · rw [fitsFrom_append]
    exact ⟨hkilled.fits, by omega, fun _ => by omega, trivial⟩

/-- Whatever its size, a save that knows where to write appends its record. -/
theorem layout_appendOps (h : Layout s dev.mem rs) (key : UInt8) (value : SavedValue)
    (reserved : UInt8)
    (hroom : (image rs).length + (6 + value.bytes.length) ≤ s.primarySize) :
    Layout s (applyOps dev.mem (appendOps s rs key value.bytes reserved))
      (killOwner recordSpec key rs ++
        [writtenRecord key value.bytes reserved value.size_lt]) := by
  have hle := value.size_le
  by_cases h255 : value.bytes.length = 255
  · exact layout_header_only h key value.bytes reserved _ h255 hroom
  · rw [writtenRecord, if_neg h255, appendOps, valueOps, if_neg h255]
    exact layout_saveOps (r := savedRecord key value.bytes reserved (by omega)) h hroom

theorem LaidOut.append {mem mem' : Mem} (h : LaidOut s mem rs) {key : UInt8} {r : Record}
    (hvalid : r.valid = true)
    (hlay : Layout s mem' (killOwner recordSpec key rs ++ [r])) :
    LaidOut s mem' (killOwner recordSpec key rs ++ [r]) where
  layout := hlay
  kept := by
    intro t ht
    rcases List.mem_append.mp ht with hmem | hmem
    · exact kept_killOwner h.kept key t hmem
    · rw [List.mem_singleton.mp hmem]
      exact Or.inl hvalid

/-- The condition on a save, in terms of the records. -/
theorem saveFits_layout {mem : Mem} (h : Layout s mem rs) (len : Nat) :
    SaveFits s mem len ↔
      if (image rs).length < s.primarySize then (image rs).length + (6 + len) ≤ s.primarySize
      else (∀ r ∈ rs, r.Movable) ∧ (image (compact recordSpec rs)).length ≤ s.secondarySize ∧
        (s.primarySize ≤ (image (compact recordSpec rs)).length ∨
          (image (compact recordSpec rs)).length + (6 + len) ≤ s.primarySize) := by
  simp only [SaveFits, primaryHeaders_layout h, liveHeaders_headers, usedBytes_headers,
    List.forall_mem_map, movable_header]

/-- A save into a sector with a free pointer. -/
theorem LaidOut.save_free (h : LaidOut s dev.mem rs) (hlt : (image rs).length < s.primarySize)
    (key : UInt8) (value : SavedValue) (reserved : UInt8) :
    halFlashSave s dev key value.bytes reserved =
      some (.ok, dev.issueAll (appendOps s rs key value.bytes reserved)) := by
  have hpos := value.size_pos
  have hfree := flashFindNextFree_layout h.layout
  rw [if_neg (by omega)] at hfree
  rw [halFlashSave, if_neg (by omega), stm32FlashSave]
  simp only [hfree, saveAt_appendOps h.layout]

theorem LaidOut.compacted (h : LaidOut s dev.mem rs) (hmov : ∀ r ∈ rs, r.Movable)
    (hsec : (image (compact recordSpec rs)).length ≤ s.secondarySize) :
    LaidOut s (dev.issueAll (compactOps s rs)).mem (compact recordSpec rs) where
  layout := by
    rw [FlashDev.issueAll_mem]
    exact (h.settled.compaction h.layout hmov hsec).2
  kept := fun _ hr => Or.inl (compact_valid hr)

/-- A save into a full one, which is compacted first. -/
theorem LaidOut.save_full (h : LaidOut s dev.mem rs) (hfull : ¬ (image rs).length < s.primarySize)
    (hmov : ∀ r ∈ rs, r.Movable)
    (hsec : (image (compact recordSpec rs)).length ≤ s.secondarySize)
    (key : UInt8) (value : SavedValue) (reserved : UInt8) :
    halFlashSave s dev key value.bytes reserved =
      some (if (image (compact recordSpec rs)).length < s.primarySize then .ok else .errIo,
        dev.issueAll (compactOps s rs ++
          if (image (compact recordSpec rs)).length < s.primarySize then
            appendOps s (compact recordSpec rs) key value.bytes reserved
          else [])) := by
  have hpos := value.size_pos
  have hfree := flashFindNextFree_layout h.layout
  have hcompaction := (h.settled.compaction h.layout hmov hsec).1
  have hlaid := h.compacted hmov hsec
  have hfree' := flashFindNextFree_layout hlaid.layout
  rw [if_pos (by omega)] at hfree
  rw [halFlashSave, if_neg (by omega), stm32FlashSave]
  simp only [hfree, hcompaction]
  by_cases hlt : (image (compact recordSpec rs)).length < s.primarySize
  · rw [if_neg (by omega)] at hfree'
    simp only [hfree', saveAt_appendOps hlaid.layout, if_pos hlt, FlashDev.issueAll_append]
  · rw [if_pos (by omega)] at hfree'
    simp only [hfree', if_neg hlt, List.append_nil]

/-- The records that a save leaves. -/
def recordsAfterSave (s : Storage) (rs : List Record) (key : UInt8) (value : SavedValue)
    (reserved : UInt8) : List Record :=
  let before := recordsAtSave s rs
  if (image before).length < s.primarySize then
    killOwner recordSpec key before ++
      [writtenRecord key value.bytes reserved value.size_lt]
  else before

/-- The operations of a save, compaction included. -/
def wholeSaveOps (s : Storage) (rs : List Record) (key : UInt8) (value : List UInt8)
    (reserved : UInt8) : List FlashOp :=
  if (image rs).length < s.primarySize then appendOps s rs key value reserved
  else compactOps s rs ++
    if (image (compact recordSpec rs)).length < s.primarySize then
      appendOps s (compact recordSpec rs) key value reserved
    else []

theorem LaidOut.save (h : LaidOut s dev.mem rs) (key : UInt8) (value : SavedValue)
    (reserved : UInt8) (hfits : SaveFits s dev.mem value.bytes.length) :
    ∃ status, halFlashSave s dev key value.bytes reserved =
        some (status, dev.issueAll (wholeSaveOps s rs key value.bytes reserved)) ∧
      LaidOut s (dev.issueAll (wholeSaveOps s rs key value.bytes reserved)).mem
        (recordsAfterSave s rs key value reserved) := by
  have hroom := (saveFits_layout h.layout _).mp hfits
  by_cases hlt : (image rs).length < s.primarySize
  · rw [if_pos hlt] at hroom
    have hlay := layout_appendOps h.layout key value reserved hroom
    rw [← FlashDev.issueAll_mem] at hlay
    simp only [wholeSaveOps, recordsAfterSave, recordsAtSave, if_pos hlt]
    exact ⟨.ok, h.save_free hlt key value reserved, h.append (writtenRecord_valid _ _ _ _) hlay⟩
  · rw [if_neg hlt] at hroom
    obtain ⟨hmov, hsec, hlive⟩ := hroom
    have hlaid := h.compacted hmov hsec
    simp only [wholeSaveOps, recordsAfterSave, recordsAtSave, if_neg hlt]
    refine ⟨_, h.save_full hlt hmov hsec key value reserved, ?_⟩
    by_cases hlt' : (image (compact recordSpec rs)).length < s.primarySize
    · rw [if_pos hlt', if_pos hlt', FlashDev.issueAll_append]
      have hlay := layout_appendOps hlaid.layout key value reserved (by omega)
      rw [← FlashDev.issueAll_mem] at hlay
      exact hlaid.append (writtenRecord_valid _ _ _ _) hlay
    · rw [if_neg hlt', if_neg hlt', List.append_nil]
      exact hlaid

theorem LaidOut.delete (h : LaidOut s dev.mem rs) (key : UInt8) :
    LaidOut s (halFlashDelete s dev key).2.mem (killOwner recordSpec key rs) where
  layout := by
    rw [halFlashDelete_ops h.layout, FlashDev.issueAll_mem]
    exact layout_supersedeOps h.layout key
  kept := kept_killOwner h.kept key

theorem LaidOut.step (h : LaidOut s dev.mem rs) (call : KvCall) (hfits : CallFits s dev.mem call) :
    ∃ status dev' rs', kvStep s dev call = some (status, dev') ∧ LaidOut s dev'.mem rs' := by
  cases call with
  | save key value reserved =>
    obtain ⟨status, hsave, hlaid⟩ := h.save key value reserved hfits
    exact ⟨status, _, _, hsave, hlaid⟩
  | delete key => exact ⟨_, _, _, rfl, h.delete key⟩
  | erase => exact ⟨_, _, [], rfl, layout_erased s dev.mem, by simp⟩
  | read key => exact ⟨_, _, rs, rfl, h⟩

/-- Calls that meet their condition return, and leave a layout. -/
theorem LaidOut.run (calls : List KvCall) :
    ∀ {dev : FlashDev} {rs : List Record}, LaidOut s dev.mem rs → CallsFit s dev calls →
      ∃ dev' rs', runCalls s dev calls = some dev' ∧ LaidOut s dev'.mem rs' := by
  induction calls with
  | nil =>
    intro dev rs h _
    exact ⟨dev, rs, rfl, h⟩
  | cons call calls ih =>
    intro dev rs h hfit
    obtain ⟨hcall, hrest⟩ := hfit
    obtain ⟨status, dev₁, rs₁, hstep, h₁⟩ := h.step call hcall
    rw [hstep] at hrest
    obtain ⟨dev', rs', hrun, h'⟩ := ih h₁ hrest
    refine ⟨dev', rs', ?_, h'⟩
    rw [runCalls, hstep]
    exact hrun

/-! ## Records that move -/

/-- A record whose bytes lie inside the sector. -/
theorem flashBytes_encode {mem : Mem} {a n : Nat} {pre post : List Record} {r : Record}
    (h : Shows mem a n (image (pre ++ r :: post)))
    (hin : (image pre).length + (6 + r.value.length) ≤ n) :
    flashBytes mem (a + (image pre).length) (6 + r.value.length) = r.encode := by
  rw [image_append, image_cons, ← List.append_assoc] at h
  rw [← encode_length] at hin ⊢
  exact flashBytes_shows _ _ _ h hin

theorem validBytes_layout {mem : Mem} (h : Layout s mem rs) :
    validBytes s mem = image (compact recordSpec rs) := by
  refine h.walk (validBytesFrom s mem) (fun _ post => image (compact recordSpec post)) ?_ ?_
  · intro fuel
    cases fuel with
    | zero => rfl
    | succ fuel =>
      rw [validBytesFrom, if_neg h.stop]
      rfl
  · intro pre r post fuel hsplit hnext
    rw [validBytesFrom, h.header hsplit, if_pos ⟨rfl, h.ptr_lt hsplit⟩, next_record, hnext]
    by_cases hlive : r.valid = true
    · have hfits := h.fits
      have hshows := h.shows
      rw [hsplit] at hfits hshows
      have hin := ((fitsFrom_append _ _ _ _).mp hfits).2.2.1 hlive
      have hbytes := flashBytes_encode hshows (by omega)
      rw [if_pos ((header_status_iff r).mpr hlive), header_size_toNat, compact_cons_valid post hlive, image_cons, recordSize,
        hbytes]
    · rw [if_neg (mt (header_status_iff r).mp hlive), compact_cons_invalid post hlive, List.nil_append]

theorem LaidOut.compactsRight (h : LaidOut s dev.mem rs) (hmov : ∀ r ∈ rs, r.Movable)
    (hroom : (image (compact recordSpec rs)).length ≤ s.secondarySize) : CompactsRight s dev := by
  obtain ⟨hcompaction, hlay⟩ := h.settled.compaction h.layout hmov hroom
  rw [← FlashDev.issueAll_mem] at hlay
  refine ⟨_, hcompaction, ?_, hlay.blank⟩
  rw [validBytes_layout h.layout]
  exact hlay.shows

/-! ## Records that do not move -/

theorem first_unmovable (h : ¬ ∀ r ∈ rs, r.Movable) :
    ∃ pre r post, rs = pre ++ r :: post ∧ (∀ t ∈ pre, t.Movable) ∧ ¬ r.Movable := by
  induction rs with
  | nil => exact absurd (by simp) h
  | cons r rs ih =>
    by_cases hr : r.Movable
    · have hrest : ¬ ∀ t ∈ rs, t.Movable := by
        intro hall
        exact h fun t ht => (List.mem_cons.mp ht).elim (fun heq => heq ▸ hr) (hall t)
      obtain ⟨pre, t, post, rfl, hpre, ht⟩ := ih hrest
      refine ⟨r :: pre, t, post, rfl, ?_, ht⟩
      intro u hu
      exact (List.mem_cons.mp hu).elim (fun heq => heq ▸ hr) (hpre u)
    · exact ⟨[], r, rs, rfl, by simp, hr⟩

/-- The lengths up to 250 that wrap. -/
theorem unmovable_cases {r : Record} (hkept : r.Kept) (h : ¬ r.Movable)
    (hle : r.value.length ≤ 250) :
    r.valid = true ∧ r.value.length = 249 ∨ r.valid = true ∧ r.value.length = 250 ∨
      r.valid = false ∧ r.value.length = 250 := by
  rcases hkept with hvalid | hdeleted
  · have hnot : r.status ≠ flashDeleted := by
      intro hc
      simp [Record.valid, hc, flashDeleted, flashValid] at hvalid
    have hbig : ¬ 6 + r.value.length ≤ 254 := fun hle => h ⟨fun _ => hle, fun hc => absurd hc hnot⟩
    rcases Nat.lt_or_ge r.value.length 250 with hlt | hge
    · exact Or.inl ⟨hvalid, by omega⟩
    · exact Or.inr (Or.inl ⟨hvalid, by omega⟩)
  · have hdead : r.valid = false := by
      simp [Record.valid, hdeleted, flashDeleted, flashValid]
    have hbig : ¬ 6 + r.value.length ≤ 255 := by
      intro hle
      exact h ⟨fun hc => absurd hc (by simp [hdead]), fun _ => hle⟩
    exact Or.inr (Or.inr ⟨hdead, by omega⟩)

theorem totalSize_250 {r : Record} (h : r.value.length = 250) : totalSize r.header = 0 := by
  rw [totalSize, header_size_toNat, h]
  rfl

theorem totalSize_249 {r : Record} (h : r.value.length = 249) : totalSize r.header = 255 := by
  rw [totalSize, header_size_toNat, h]
  rfl

/-- A step of 0 over a record that is not copied: the loop never ends. -/
theorem shiftPrimaryToSecondaryLoop_stuck {ptr ptrSecondary : Nat} (hlt : ptr < s.primaryEnd)
    (hmagic : (recordAt dev.mem ptr).magic = flashMagicNumber)
    (hstatus : (recordAt dev.mem ptr).status ≠ flashValid)
    (htotal : totalSize (recordAt dev.mem ptr) = 0) (fuel : Nat) :
    shiftPrimaryToSecondaryLoop s fuel ptr ptrSecondary dev = none := by
  induction fuel with
  | zero => rfl
  | succ fuel ih =>
    rw [shiftPrimaryToSecondaryLoop]
    simp only [htotal, Nat.add_zero]
    rw [if_pos ⟨hmagic, hlt⟩, if_pos hstatus]
    exact ih

/-! ### What the loops leave alone -/

theorem writeLoop_below (data : Source) (size n : Nat) :
    ∀ (i addr : Nat) (dev : FlashDev) (x : Nat), x < addr →
      (writeLoop data size n i addr dev).mem x = dev.mem x := by
  induction n with
  | zero => intro i addr dev x _; rfl
  | succ n ih =>
    intro i addr dev x hx
    rw [writeLoop, ih _ _ _ x (by omega)]
    exact overlay_below _ _ hx

theorem flashWriteData_below (dev : FlashDev) (addr : Nat) (data : Source) (size : Nat) {x : Nat}
    (hx : x < addr) : (flashWriteData dev addr data size).2.mem x = dev.mem x := by
  rw [flashWriteData]
  split
  · rfl
  · exact writeLoop_below _ _ _ _ _ _ _ hx

/-- The first copy loop writes nothing below its write pointer. -/
theorem shiftPrimaryToSecondaryLoop_below (fuel : Nat) :
    ∀ (ptrPrimary ptrSecondary : Nat) (dev : FlashDev) {status : HalStatus} {dev' : FlashDev},
      shiftPrimaryToSecondaryLoop s fuel ptrPrimary ptrSecondary dev = some (status, dev') →
      ∀ x, x < ptrSecondary → dev'.mem x = dev.mem x := by
  induction fuel with
  | zero =>
    intro ptrPrimary ptrSecondary dev status dev' h
    cases h
  | succ fuel ih =>
    intro ptrPrimary ptrSecondary dev status dev' h x hx
    have hframe := flashWriteData_below dev ptrSecondary (flashSource ptrPrimary)
      (totalSize (recordAt dev.mem ptrPrimary)) hx
    rw [shiftPrimaryToSecondaryLoop] at h
    split at h
    · split at h
      · exact ih _ _ _ h x hx
      · split at h
        · rename_i dev₁ hwrite
          rw [hwrite] at hframe
          rw [ih _ _ _ h x (by omega), hframe]
        · rename_i status₁ dev₁ hne hwrite
          rw [hwrite] at hframe
          cases h
          exact hframe
    · cases h
      rfl

/-! ### Arriving at a record -/

/-- The first copy loop has passed over `pre`, all movable, and stands at `r`. -/
structure Arrives (s : Storage) (dev : FlashDev) (pre : List Record) (r : Record)
    (fuel : Nat) (dev₁ : FlashDev) : Prop where
  loop : flashShiftSectorPrimaryToSecondary s dev =
    shiftPrimaryToSecondaryLoop s (fuel + 1) (s.primaryStart + (image pre).length)
      (s.secondaryStart + (image (compact recordSpec pre)).length) dev₁
  head : recordAt dev₁.mem (s.primaryStart + (image pre).length) = r.header
  lt : s.primaryStart + (image pre).length < s.primaryEnd
  copied : Shows dev₁.mem s.secondaryStart s.secondarySize (image (compact recordSpec pre))

theorem LaidOut.arrives {pre post : List Record} {r : Record}
    (h : LaidOut s dev.mem (pre ++ r :: post)) (hmov : ∀ t ∈ pre, t.Movable)
    (hroom : (image (compact recordSpec pre)).length ≤ s.secondarySize) :
    ∃ fuel dev₁, Arrives s dev pre r fuel dev₁ := by
  have hend := s.secondary_end
  have hlen : pre.length + (r :: post).length ≤ s.primarySize := by
    simpa using h.layout.fits.length_le
  rw [List.length_cons] at hlen
  obtain ⟨fuel, hfuel⟩ : ∃ fuel, s.primaryEnd - s.primaryStart + 1 = fuel + 1 + pre.length :=
    ⟨s.primaryEnd - s.primaryStart - pre.length, by
      simp only [Storage.primarySize] at hlen
      omega⟩
  have hhigh : s.secondaryStart + (image (compact recordSpec pre)).length ≤ s.secondaryEnd := by
    omega
  have hkept : ∀ t ∈ pre, t.Kept ∧ t.Movable := fun t ht =>
    ⟨h.kept t (List.mem_append_left _ ht), hmov t ht⟩
  have hmoves := shiftPrimaryToSecondaryLoop_moves h.layout.fits pre [] (fuel + 1)
    s.secondaryStart dev rfl h.layout.shows (Nat.le_refl _) hhigh hkept
  rw [image_nil, List.length_nil, Nat.add_zero, ← hfuel] at hmoves
  have hshows := shows_primary_copied h.layout.shows (compact recordSpec pre) (Nat.le_refl _) hhigh
  have hoff := ((fitsFrom_append _ _ _ _).mp h.layout.fits).2.1
  refine ⟨fuel, _, hmoves, ?_, h.layout.ptr_lt rfl, ?_⟩
  · rw [FlashDev.issueAll_mem]
    exact recordAt_of_shows hshows (by omega)
  · rw [FlashDev.issueAll_mem]
    exact shows_copied h.layout

section Arrived

variable {pre : List Record} {r : Record} {fuel : Nat} {dev₁ : FlashDev}

/-- A deleted record of 250 bytes: the compaction does not return. -/
theorem Arrives.never_returns (h : Arrives s dev pre r fuel dev₁) (hdead : r.valid = false)
    (hlen : r.value.length = 250) : flashCompactStorage s dev = none := by
  have hstatus : r.header.status ≠ flashValid := by
    rw [ne_eq, header_status_iff, hdead]
    decide
  have hstuck := @shiftPrimaryToSecondaryLoop_stuck s dev₁
    (s.primaryStart + (image pre).length)
    (s.secondaryStart + (image (compact recordSpec pre)).length) h.lt (by rw [h.head]; rfl)
    (by rw [h.head]; exact hstatus) (by rw [h.head]; exact totalSize_250 hlen) (fuel + 1)
  rw [flashCompactStorage, h.loop, hstuck]

/-- A valid record of 250 bytes: the compaction gives up, half done. -/
theorem Arrives.gives_up (h : Arrives s dev pre r fuel dev₁) (hvalid : r.valid = true)
    (hlen : r.value.length = 250) : flashCompactStorage s dev = some (.errIo, dev₁) := by
  have hstatus := (header_status_iff r).mpr hvalid
  have hloop := h.loop
  rw [shiftPrimaryToSecondaryLoop] at hloop
  simp only [h.head, totalSize_250 hlen] at hloop
  rw [if_pos ⟨rfl, h.lt⟩, if_neg (not_not_intro hstatus)] at hloop
  rw [flashCompactStorage, hloop]
  rfl

/-- A valid record of 249 bytes: nothing of it reaches the secondary sector. -/
theorem Arrives.passes_over (h : Arrives s dev pre r fuel dev₁) (hvalid : r.valid = true)
    (hlen : r.value.length = 249)
    (hroom : (image (compact recordSpec pre)).length + 255 ≤ s.secondarySize)
    {status : HalStatus} {dev' : FlashDev}
    (hrun : flashShiftSectorPrimaryToSecondary s dev = some (status, dev')) :
    Shows dev'.mem s.secondaryStart ((image (compact recordSpec pre)).length + 255)
      (image (compact recordSpec pre)) := by
  have hstatus := (header_status_iff r).mpr hvalid
  rw [h.loop, shiftPrimaryToSecondaryLoop] at hrun
  simp only [h.head, totalSize_249 hlen, flashWriteData_255] at hrun
  rw [if_pos ⟨rfl, h.lt⟩, if_neg (not_not_intro hstatus)] at hrun
  intro i hi
  rw [shiftPrimaryToSecondaryLoop_below _ _ _ _ hrun _ (by omega)]
  exact h.copied i (by omega)

/-- So where it was the primary sector is erased. -/
theorem Arrives.loses {post : List Record} (hlay : Layout s dev.mem (pre ++ r :: post))
    (h : Arrives s dev pre r fuel dev₁) (hmov : ∀ t ∈ pre, t.Movable) (hvalid : r.valid = true)
    (hlen : r.value.length = 249)
    (hroom : (image (compact recordSpec (pre ++ r :: post))).length ≤ s.secondarySize) :
    ¬ CompactsRight s dev := by
  rintro ⟨dev', hcompaction, hprimary, -⟩
  have hbytes : image (compact recordSpec (pre ++ r :: post)) =
      image (compact recordSpec pre) ++ image (r :: compact recordSpec post) := by
    rw [← image_append, compact, List.filter_append]
    rw [show (r :: post).filter recordSpec.live = _ from compact_cons_valid post hvalid]
    rfl
  have hsize : (image (r :: compact recordSpec post)).length =
      255 + (image (compact recordSpec post)).length := by
    rw [image_cons_length, hlen]
  have hprim : (image (compact recordSpec pre)).length +
      (image (r :: compact recordSpec post)).length ≤ s.primarySize := by
    rw [← List.length_append, ← hbytes]
    simpa using (hlay.fits.compact (Nat.le_refl 0)).image_le (fun t ht => compact_valid ht)
      (Nat.zero_le _)
  rw [hbytes, List.length_append, hsize] at hroom
  obtain ⟨status, dev₂, hout⟩ : ∃ status dev₂,
      flashShiftSectorPrimaryToSecondary s dev = some (status, dev₂) := by
    cases hout : flashShiftSectorPrimaryToSecondary s dev with
    | none => simp [flashCompactStorage, hout] at hcompaction
    | some out => exact ⟨out.1, out.2, rfl⟩
  have hok : status = .ok := by
    cases status with
    | ok => rfl
    | _ => simp [flashCompactStorage, hout] at hcompaction
  subst hok
  have hshows := h.passes_over hvalid hlen (by omega) hout
  have hback := flashCompactStorage_back hout hshows (by omega) (by omega) (by omega)
    (.inl (by omega)) fun t ht =>
      ⟨compact_valid ht, (hmov t (mem_compact.mp ht).1).1 (compact_valid ht)⟩
  rw [hcompaction] at hback
  cases hback
  have hread := hprimary (image (compact recordSpec pre)).length (by omega)
  have hend := s.primary_end
  have hapart := s.apart (show s.primaryStart ≤ _ from Nat.le_add_right _ _)
    (show s.primaryStart + (image (compact recordSpec pre)).length + 1 ≤ s.primaryEnd by omega)
    (Nat.le_refl _) (Nat.le_of_eq s.secondary_end)
  rw [s.secondary_end] at hapart
  have hmagic : byteAt (image (r :: compact recordSpec post)) 0 = flashMagicNumber := rfl
  rw [validBytes_layout hlay, hbytes, byteAt_append_right _ _ (Nat.le_refl _), Nat.sub_self, hmagic,
    FlashDev.issueAll_mem, applyOps_cons, applyOps_append, applyOps_copyOps, applyOps_cons,
    applyOps_nil, FlashOp.apply, eraseRange_outside _ hapart, overlay_above _ (Nat.le_refl _),
    FlashOp.apply, eraseRange, if_pos ⟨by omega, by omega⟩] at hread
  exact absurd hread (by decide)

end Arrived

/-- Up to 250 bytes a compaction that is right has only records to pass that move. -/
theorem LaidOut.movable_of_compactsRight (h : LaidOut s dev.mem rs)
    (hsizes : ∀ r ∈ rs, r.value.length ≤ 250)
    (hroom : (image (compact recordSpec rs)).length ≤ s.secondarySize)
    (hright : CompactsRight s dev) : ∀ r ∈ rs, r.Movable := by
  by_contra hno
  obtain ⟨pre, r, post, rfl, hpre, hr⟩ := first_unmovable hno
  have hmem : r ∈ pre ++ r :: post := by simp
  have hroom' : (image (compact recordSpec pre)).length ≤ s.secondarySize := by
    rw [compact, List.filter_append, image_append_length] at hroom
    exact Nat.le_trans (Nat.le_add_right _ _) hroom
  obtain ⟨fuel, dev₁, harrives⟩ := h.arrives hpre hroom'
  rcases unmovable_cases (h.kept r hmem) hr (hsizes r hmem) with
    ⟨hvalid, hlen⟩ | ⟨hvalid, hlen⟩ | ⟨hdead, hlen⟩
  · exact harrives.loses h.layout hpre hvalid hlen hroom hright
  · obtain ⟨dev', hcompaction, -⟩ := hright
    rw [harrives.gives_up hvalid hlen] at hcompaction
    cases hcompaction
  · obtain ⟨dev', hcompaction, -⟩ := hright
    rw [harrives.never_returns hdead hlen] at hcompaction
    cases hcompaction

end

/-! ## Every content that calls produce -/

/-- **Compaction after any calls.**  From erased sectors, calls that keep the records in
place leave a content that is compacted right when no size on it wraps; up to 250 bytes,
only then. -/
theorem compaction_keeps_valid (s : Storage) (dev : FlashDev) (calls : List KvCall)
    (herased : Erased s dev.mem) (hfit : CallsFit s dev calls) :
    ∃ dev', runCalls s dev calls = some dev' ∧
      (usedBytes (liveHeaders (primaryHeaders s dev'.mem)) ≤ s.secondarySize →
        ((∀ h ∈ primaryHeaders s dev'.mem, h.Movable) → CompactsRight s dev') ∧
        ((∀ h ∈ primaryHeaders s dev'.mem, h.size.toNat ≤ 250) → CompactsRight s dev' →
          ∀ h ∈ primaryHeaders s dev'.mem, h.Movable)) := by
  have hstart : LaidOut s dev.mem [] := ⟨⟨herased.1, trivial, herased.2⟩, by simp⟩
  obtain ⟨dev', rs, hrun, h⟩ := LaidOut.run calls hstart hfit
  refine ⟨dev', hrun, ?_⟩
  rw [primaryHeaders_layout h.layout, liveHeaders_headers, usedBytes_headers]
  simp only [List.forall_mem_map, movable_header, header_size_toNat]
  intro hroom
  exact ⟨fun hmov => h.compactsRight hmov hroom,
    fun hsizes hright => h.movable_of_compactsRight hsizes hroom hright⟩

/-- A full sector with a deleted record in front of a valid one. -/
def fullTinyCalls : List KvCall :=
  [.save 1 ⟨[0xAB, 0xCD, 0xEF], by decide, by decide⟩ 0,
    .save 2 ⟨[0x11], by decide, by decide⟩ 7, .delete 1]

theorem full_sector_compacts :
    ∃ dev, runCalls tinyStorage blankDev fullTinyCalls = some dev ∧
      CompactsRight tinyStorage dev := by
  obtain ⟨dev, hrun, hright⟩ := compaction_keeps_valid tinyStorage blankDev fullTinyCalls
    ⟨fun _ _ => rfl, fun _ _ => rfl⟩ (by decide)
  have heval : (runCalls tinyStorage blankDev fullTinyCalls).map (fun dev : FlashDev =>
      decide (usedBytes (liveHeaders (primaryHeaders tinyStorage dev.mem)) ≤
          tinyStorage.secondarySize ∧
        ∀ h ∈ primaryHeaders tinyStorage dev.mem, h.Movable)) = some true := by
    decide +kernel
  rw [hrun, Option.map_some, Option.some.injEq, decide_eq_true_eq] at heval
  exact ⟨dev, hrun, (hright heval.1).1 heval.2⟩

/-- A deleted record of 250 bytes: `total_size` is 0, and the first copy loop runs on
whatever fuel it is given. -/
theorem deleted_250_never_compacts :
    ∃ dev, runCalls bootKvSectors.storage blankDev
        [.save 1 (zeros 250 (by decide) (by decide)) 0, .delete 1] = some dev ∧
      (∀ fuel, shiftPrimaryToSecondaryLoop bootKvSectors.storage fuel
        bootKvSectors.storage.primaryStart bootKvSectors.storage.secondaryStart dev = none) ∧
      ¬ CompactsRight bootKvSectors.storage dev := by
  have heval : (runCalls bootKvSectors.storage blankDev
      [.save 1 (zeros 250 (by decide) (by decide)) 0, .delete 1]).map (fun dev =>
        recordAt dev.mem bootKvSectors.storage.primaryStart) =
      some ⟨flashMagicNumber, 1, 250, flashDeleted, 0, 0⟩ := by
    decide +kernel
  obtain ⟨dev, hrun, hhead⟩ := Option.map_eq_some_iff.mp heval
  have hstuck := @shiftPrimaryToSecondaryLoop_stuck bootKvSectors.storage dev
    bootKvSectors.storage.primaryStart bootKvSectors.storage.secondaryStart
    bootKvSectors.storage.primary_lt (by rw [hhead]) (by rw [hhead]; decide) (by rw [hhead]; rfl)
  refine ⟨dev, hrun, hstuck, ?_⟩
  rintro ⟨dev', hcompaction, -⟩
  rw [flashCompactStorage, flashShiftSectorPrimaryToSecondary, hstuck] at hcompaction
  cases hcompaction

end NavHAL.Flash
