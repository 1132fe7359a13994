import NavHAL.Flash.Hole

/-!
# Power cuts during a save

The flash after a cut is the flash before the save with some first operations
of the save carried out.  `PowerFailAtomic` asks at every cut for the
old value or the new one, for all other keys unchanged, and for a store that goes
on as a map.

* `save_powerFailAtomic_iff` : the saves that are atomic, among those within their arithmetic;
* `overwrite_not_powerFailAtomic` : saving over a stored value never is.
-/

namespace NavHAL.Flash

open Memory LogMap

/-! ## The property and its condition -/

/-- What the boot after a cut must find. -/
structure KeepsStore (s : Storage) (before after : Mem) (key : UInt8) (value : List UInt8) :
    Prop where
  saved : storedValue s after key = storedValue s before key ∨ storedValue s after key = some value
  others : ∀ k, k ≠ key → storedValue s after k = storedValue s before k
  later : ∀ calls, StepsOk s { mem := after } calls →
    AgreesAlong s (StoredAs s) { mem := after } (storedValue s after) calls

/-- The save that led from `dev` to `dev'` can be cut after any operation. -/
def PowerFailAtomic (s : Storage) (dev dev' : FlashDev) (key : UInt8) (value : List UInt8) : Prop :=
  ∀ n, KeepsStore s dev.mem (applyOps dev.mem ((dev'.log.drop dev.log.length).take n)) key value

/-- The value as it reads once `j` of its half-words are written. -/
def tornValue (value : List UInt8) (j : Nat) : List UInt8 :=
  value.take (2 * j) ++ List.replicate (value.length - 2 * j) 0xFF

/-- No torn form of the value passes the checksum. -/
def TornSafe (value : List UInt8) : Prop :=
  (flashCalculateCrc (List.replicate value.length 0xFF) = 0xFF →
    List.replicate value.length 0xFF = value) ∧
  ∀ j, flashCalculateCrc (tornValue value j) = flashCalculateCrc value → tornValue value j = value

/-- The key is new, no compaction is due, torn values are noticed, and the
hole of the first half-word is last in the sector or never compacted. -/
def CutSafe (s : Storage) (mem : Mem) (key : UInt8) (value : List UInt8) : Prop :=
  flashFindFirstValidEntry s mem key = none ∧
    usedBytes (primaryHeaders s mem) < s.primarySize ∧ TornSafe value ∧
    (s.primarySize < usedBytes (primaryHeaders s mem) + 268 ∨
      ∃ h ∈ primaryHeaders s mem, 250 ≤ h.size.toNat)

/-! ## Records cut off -/

theorem tornValue_length (value : List UInt8) (j : Nat) :
    (tornValue value j).length = value.length := by
  simp only [tornValue, List.length_append, List.length_take, List.length_replicate]
  omega

/-- The record that reads once `i + 1` half-words of a save are written. -/
def tornRecord (key : UInt8) (value : List UInt8) (reserved : UInt8) (h : value.length < 256) :
    Nat → Record
  | 0 => hole key
  | 1 => ⟨key, flashValid, 0xFF, 0xFF, List.replicate value.length 0xFF, by
      rwa [List.length_replicate]⟩
  | j + 2 => ⟨key, flashValid, reserved, flashCalculateCrc value, tornValue value j, by
      rwa [tornValue_length]⟩

section Torn

variable {s : Storage} {rs : List Record} {key : UInt8} {value : List UInt8} {reserved : UInt8}
  {hlt : value.length < 256}

/-- It is the written half-words followed by erased bytes. -/
theorem tornRecord_encode (key : UInt8) (value : List UInt8) (reserved : UInt8)
    (hlt : value.length < 256) (i : Nat) :
    ∃ k, (tornRecord key value reserved hlt i).encode =
      (savedRecord key value reserved hlt).encode.take (2 * (i + 1)) ++
        List.replicate k 0xFF := by
  match i with
  | 0 =>
    refine ⟨4 + 255, ?_⟩
    rw [tornRecord, hole_encode, ← List.replicate_append_replicate, ← List.append_assoc]
    rfl
  | 1 =>
    refine ⟨2 + value.length, ?_⟩
    rw [← List.replicate_append_replicate, ← List.append_assoc, tornRecord, Record.encode, Record.header,
      List.length_replicate]
    rfl
  | j + 2 =>
    refine ⟨value.length - 2 * j, ?_⟩
    have hsix : 2 * (j + 2 + 1) = 6 + 2 * j := by omega
    rw [tornRecord, Record.encode, Record.header, tornValue_length, Record.encode,
      savedRecord_header, List.take_append, header_bytes_length, hsix, Nat.add_sub_cancel_left,
      List.take_of_length_le (by rw [header_bytes_length]; omega), List.append_assoc]
    rfl

theorem tornRecord_valid (i : Nat) :
    (tornRecord key value reserved hlt (i + 1)).valid = true := by
  cases i with
  | zero => rfl
  | succ j => rfl

theorem tornRecord_length (i : Nat) :
    (tornRecord key value reserved hlt (i + 1)).value.length = value.length := by
  cases i with
  | zero => exact List.length_replicate
  | succ j => exact tornValue_length value j

theorem tornRecord_key (i : Nat) : (tornRecord key value reserved hlt i).key = key := by
  match i with
  | 0 | 1 | j + 2 => rfl

/-- What is read after a cut in the middle of a record. -/
theorem tornRecord_read (hsafe : TornSafe value) (i : Nat) :
    (tornRecord key value reserved hlt (i + 1)).read = none ∨
      (tornRecord key value reserved hlt (i + 1)).read = some value := by
  cases i with
  | zero =>
    rw [tornRecord, Record.read]
    split
    · next hcrc => exact Or.inr (congrArg some (hsafe.1 hcrc.symm))
    · exact Or.inl rfl
  | succ j =>
    rw [tornRecord, Record.read]
    split
    · next hcrc => exact Or.inr (congrArg some (hsafe.2 j hcrc.symm))
    · exact Or.inl rfl

/-- Cutting the record off after `i + 1` half-words lays out its torn form. -/
theorem layout_cut {mem : Mem} (h : Layout s mem rs)
    (hroom : (image rs).length + (6 + value.length) ≤ s.primarySize) (i : Nat) :
    Layout s (applyOps mem ((halfWords (s.primaryStart + (image rs).length)
        (savedRecord key value reserved hlt).encode).take (i + 1)))
      (rs ++ [tornRecord key value reserved hlt i]) := by
  obtain ⟨k, hencode⟩ := tornRecord_encode key value reserved hlt i
  have hlen := encode_length (savedRecord key value reserved hlt)
  have hval : (savedRecord key value reserved hlt).value = value := rfl
  rw [hval] at hlen
  have htake := List.length_take_le (2 * (i + 1)) (savedRecord key value reserved hlt).encode
  have htake' := List.length_take_le' (2 * (i + 1)) (savedRecord key value reserved hlt).encode
  obtain ⟨hshows, hblank⟩ := shows_appended h (show _ +
    ((savedRecord key value reserved hlt).encode.take (2 * (i + 1))).length ≤ _ by omega)
  rw [applyOps_take_halfWords]
  refine ⟨?_, ?_, hblank⟩
  · rw [image_append, image_cons, image_nil, List.append_nil, hencode, ← List.append_assoc,
      shows_append_erased]
    exact hshows
  · rw [fitsFrom_append]
    refine ⟨h.fits, by omega, ?_, trivial⟩
    intro hvalid
    cases i with
    | zero => exact absurd hvalid (by rw [tornRecord, hole_invalid]; decide)
    | succ i =>
      rw [tornRecord_length]
      omega

end Torn

/-! ## Saves that survive every cut -/

theorem Represents.stored {P : Record → Prop} {s : Storage} {mem : Mem} {rs : List Record}
    {m : KvMap} (h : Represents P s mem rs m) : storedValue s mem = m :=
  (storedValue_layout h.layout).trans h.reads

theorem Represents.weaken {P : Record → Prop} {s : Storage} {mem : Mem} {rs : List Record}
    {m : KvMap} (h : Represents P s mem rs m) : Represents (fun _ => True) s mem rs m :=
  ⟨h.layout, h.uniq, fun _ _ => trivial, h.settled, h.reads⟩

section Cuts

variable {s : Storage} {rs : List Record} {m : KvMap} {key : UInt8} {value : List UInt8}
  {reserved : UInt8}

theorem keepsStore_of_represents {before after : Mem} {m' : KvMap}
    (hbefore : storedValue s before = m) (h : Represents (fun _ => True) s after rs m')
    (hsaved : m' key = m key ∨ m' key = some value) (hothers : ∀ k, k ≠ key → m' k = m k) :
    KeepsStore s before after key value where
  saved := by rwa [h.stored, hbefore]
  others := by rwa [h.stored, hbefore]
  later := by
    intro calls hok
    rw [h.stored]
    exact Represents.agreesAlong closed_true (fun h => h.stored) calls h hok

/-- The store after a record was cut off. -/
theorem Represents.cut {mem : Mem} (h : Represents (fun _ => True) s mem rs m)
    (hkept : ∀ r ∈ rs, r.Kept) (hfresh : owner recordSpec rs key = none) (hsafe : TornSafe value)
    (hhole : s.primarySize < (image rs).length + 268 ∨ ∃ r ∈ rs, 250 ≤ r.value.length)
    (hlt : value.length < 256) (hroom : (image rs).length + (6 + value.length) ≤ s.primarySize)
    (i : Nat) :
    ∃ m', Represents (fun _ => True) s
        (applyOps mem ((halfWords (s.primaryStart + (image rs).length)
          (savedRecord key value reserved hlt).encode).take (i + 1)))
        (rs ++ [tornRecord key value reserved hlt i]) m' ∧
      (m' key = none ∨ m' key = some value) ∧ ∀ k, k ≠ key → m' k = m k := by
  have hlay : Layout s _ (rs ++ [tornRecord key value reserved hlt i]) :=
    layout_cut h.layout hroom i
  have hnone : lookup recordSpec rs key = none := by rw [lookup, hfresh, Option.bind_none]
  cases i with
  | zero =>
    have hsame : lookup recordSpec (rs ++ [hole key]) = lookup recordSpec rs :=
      lookup_append_dead rs (hole_invalid key)
    refine ⟨m, ⟨hlay, h.uniq.append_dead (hole_invalid key), fun _ _ => trivial, ?_,
      hsame.trans h.reads⟩, ?_, fun _ _ => rfl⟩
    · rcases hhole with hlast | ⟨r, hr, hbig⟩
      · refine .cutLast rs key rfl hkept ?_
        rw [image_append_length, tornRecord, image_cons_length, hole_value_length, image_nil,
          List.length_nil]
        omega
      · exact .stuck r (List.mem_append_left _ hr) (hkept r hr) hbig
    · rw [← h.reads]
      exact Or.inl hnone
  | succ i =>
    have hvalid : (tornRecord key value reserved hlt (i + 1)).valid = true := tornRecord_valid i
    have hkey : (tornRecord key value reserved hlt (i + 1)).key = key := tornRecord_key (i + 1)
    have hfresh' : owner recordSpec rs
        (recordSpec.key (tornRecord key value reserved hlt (i + 1))) = none := by
      rwa [recordSpec_key, hkey]
    have hlook := lookup_append_live hvalid hfresh'
    rw [recordSpec_key, hkey, h.reads] at hlook
    refine ⟨_, ⟨hlay, h.uniq.append_live hfresh', fun _ _ => trivial, .kept ?_, hlook⟩, ?_, ?_⟩
    · intro r hr
      rcases List.mem_append.mp hr with hmem | hmem
      · exact hkept r hmem
      · rw [List.mem_singleton.mp hmem]
        exact Or.inl hvalid
    · rw [Function.update_self]
      exact tornRecord_read hsafe i
    · intro k hk
      exact Function.update_of_ne hk _ _

end Cuts

/-! ## Saves that do not -/

theorem KeepsStore.not_doomed {s : Storage} {before after : Mem} {key : UInt8}
    {value : List UInt8} (h : KeepsStore s before after key value) :
    ¬ Doomed s { mem := after } (storedValue s after) := by
  rintro ⟨calls, hok, hno⟩
  exact hno (h.later calls hok)

/-- An erased primary sector stores nothing, whatever the secondary holds. -/
theorem storedValue_blank {s : Storage} {mem : Mem}
    (h : Shows mem s.primaryStart s.primarySize []) (key : UInt8) :
    storedValue s mem key = none := by
  have hlt := s.primary_lt
  have hnone : flashFindFirstValidEntry s mem key = none := by
    rw [flashFindFirstValidEntry]
    obtain ⟨fuel, hf⟩ : ∃ f, s.primaryEnd - s.primaryStart = f + 1 :=
      ⟨s.primaryEnd - s.primaryStart - 1, by omega⟩
    have hmagic := no_record_after (show Shows mem _ _ (image []) from h) (by
      simp only [image_nil, List.length_nil, Storage.primarySize]
      omega)
    rw [hf, flashFindFirstValidEntryFrom, if_neg fun hc => hmagic hc.2]
  simp [storedValue, halFlashRead, stm32FlashRead, hnone]

section Iff

variable {s : Storage} {dev dev' : FlashDev} {rs : List Record} {m : KvMap} {key : UInt8}
  {value : SavedValue} {reserved : UInt8}

/-- The record a save of `value` appends. -/
def valueRecord (key : UInt8) (value : SavedValue) (reserved : UInt8) : Record :=
  savedRecord key value.bytes reserved (Nat.lt_succ_of_le value.size_le)

/-- What the cuts of a save range over. -/
theorem powerFailAtomic_cuts (h : Represents Record.Finished s dev.mem rs m)
    (hok : SaveOk s dev.mem value.bytes.length)
    (hret : halFlashSave s dev key value.bytes reserved = some (.ok, dev')) :
    PowerFailAtomic s dev dev' key value.bytes ↔ ∀ n, KeepsStore s dev.mem
      (applyOps dev.mem ((saveCallOps s rs (valueRecord key value reserved)).take n))
      key value.bytes := by
  rw [halFlashSave_ops h.layout h.settled key value reserved hok] at hret
  simp only [Option.some.injEq, Prod.mk.injEq] at hret
  obtain ⟨-, rfl⟩ := hret
  rw [PowerFailAtomic, FlashDev.issueAll_log, List.drop_left]
  rfl

theorem stored_of_owner (h : Represents Record.Finished s dev.mem rs m) {r : Record}
    (howner : owner recordSpec rs key = some r) : storedValue s dev.mem key = some r.value := by
  obtain ⟨pre, post, hsplit, hlive, -, -⟩ := owner_split howner
  have hcrc := (h.all r (by simp [hsplit])).crc_eq hlive
  rw [storedValue_layout h.layout, lookup, howner, Option.bind_some]
  exact if_pos hcrc

/-- **Overwriting.**  Once the old record is marked deleted the key is gone. -/
theorem overwrite_loses (h : Represents Record.Finished s dev.mem rs m)
    (hfree : (image rs).length < s.primarySize) {r : Record}
    (howner : owner recordSpec rs key = some r) :
    ∃ n, ¬ KeepsStore s dev.mem
      (applyOps dev.mem ((saveCallOps s rs (valueRecord key value reserved)).take n))
      key value.bytes := by
  obtain ⟨pre, post, hsplit, hlive, hkey, hpre⟩ := owner_split howner
  have hthree : (supersedeOps key s.primaryStart rs).length = 3 := by
    rw [hsplit, supersedeOps_split hpre (owns_iff.mpr ⟨hlive, hkey⟩), halfWords_length,
      header_bytes_length]
  refine ⟨3, ?_⟩
  intro hkeeps
  have hcut : (saveCallOps s rs (valueRecord key value reserved)).take 3 =
      supersedeOps key s.primaryStart rs := by
    rw [saveCallOps, if_pos hfree, saveOps, ← hthree]
    exact List.take_left
  rw [hcut] at hkeeps
  have hgone : storedValue s (applyOps dev.mem (supersedeOps key s.primaryStart rs)) key = none := by
    rw [storedValue_layout (layout_supersedeOps h.layout key), lookup_killOwner h.uniq,
      Function.update_self]
  rcases hkeeps.saved with hold | hnew
  · rw [hgone, stored_of_owner h howner] at hold
    cases hold
  · rw [hgone] at hnew
    cases hnew

/-- **Compacting a store that holds a value.**  Between the primary erase and
the copy back nothing is readable. -/
theorem compaction_loses (h : Represents Record.Finished s dev.mem rs m)
    (hfull : ¬ (image rs).length < s.primarySize) {r : Record} {k : UInt8}
    (howner : owner recordSpec rs k = some r) :
    ∃ n, ¬ KeepsStore s dev.mem
      (applyOps dev.mem ((saveCallOps s rs (valueRecord key value reserved)).take n))
      key value.bytes := by
  refine ⟨(copyOps s.secondaryStart (compact recordSpec rs) ++
    [FlashOp.erase s.primaryStart s.primaryEnd]).length, ?_⟩
  intro hkeeps
  have hcut : (saveCallOps s rs (valueRecord key value reserved)).take
      (copyOps s.secondaryStart (compact recordSpec rs) ++
        [FlashOp.erase s.primaryStart s.primaryEnd]).length =
      copyOps s.secondaryStart (compact recordSpec rs) ++
        [FlashOp.erase s.primaryStart s.primaryEnd] := by
    obtain ⟨ops, hsplit⟩ : ∃ ops, saveCallOps s rs (valueRecord key value reserved) =
        (copyOps s.secondaryStart (compact recordSpec rs) ++
          [FlashOp.erase s.primaryStart s.primaryEnd]) ++ ops := by
      refine ⟨copyOps s.primaryStart (compact recordSpec rs) ++
        [FlashOp.erase s.secondaryStart s.secondaryEnd] ++
          if (image (compact recordSpec rs)).length < s.primarySize then
            saveOps s (compact recordSpec rs) (valueRecord key value reserved)
          else [], ?_⟩
      rw [saveCallOps, if_neg hfull, compactOps, List.append_assoc, List.append_assoc]
      rfl
    rw [hsplit]
    exact List.take_left
  rw [hcut] at hkeeps
  have hgone : ∀ k, storedValue s (applyOps dev.mem
      (copyOps s.secondaryStart (compact recordSpec rs) ++
        [FlashOp.erase s.primaryStart s.primaryEnd])) k = none := by
    intro k
    rw [applyOps_append]
    exact storedValue_blank (shows_erased _ _ _) k
  have hstored := stored_of_owner h howner
  by_cases hk : k = key
  · subst hk
    rcases hkeeps.saved with hold | hnew
    · rw [hgone, hstored] at hold
      cases hold
    · rw [hgone] at hnew
      cases hnew
  · have hother := hkeeps.others k hk
    rw [hgone, hstored] at hother
    cases hother

/-- Small records stay small when nothing of them is kept too large. -/
theorem small_of_not_big (h : Represents Record.Finished s dev.mem rs m)
    (hbig : ¬ ∃ r ∈ rs, 250 ≤ r.value.length) : Small rs := by
  intro r hr
  refine ⟨(h.all r hr).kept, ?_⟩
  by_contra hlt
  exact hbig ⟨r, hr, by omega⟩

/-- **A hole with room behind it** is left by the first half-word. -/
theorem hole_loses {mem : Mem} {rs : List Record} (hprim : 20 ≤ s.primarySize)
    (hsec : 13 ≤ s.secondarySize) (hlay : Layout s mem rs) (huniq : Uniq recordSpec rs)
    (hsmall : Small rs) (hwide : (image rs).length + 268 ≤ s.primarySize) {before : Mem}
    {hlt : value.bytes.length < 256} :
    ¬ KeepsStore s before (applyOps mem ((halfWords (s.primaryStart + (image rs).length)
        (savedRecord key value.bytes reserved hlt).encode).take 1)) key value.bytes := by
  intro hkeeps
  have hroom : (image rs).length + (6 + value.bytes.length) ≤ s.primarySize := by omega
  exact hkeeps.not_doomed (doomed_of_hole hprim hsec (layout_cut hlay hroom 0) huniq hsmall hwide)

/-! ## The condition is exact -/

theorem cutSafe_layout (h : Layout s dev.mem rs) :
    CutSafe s dev.mem key value.bytes ↔ owner recordSpec rs key = none ∧
      (image rs).length < s.primarySize ∧ TornSafe value.bytes ∧
      (s.primarySize < (image rs).length + 268 ∨ ∃ r ∈ rs, 250 ≤ r.value.length) := by
  have howner : flashFindFirstValidEntry s dev.mem key = none ↔ owner recordSpec rs key = none := by
    constructor
    · intro hnone
      cases howner : owner recordSpec rs key with
      | none => rfl
      | some r =>
        obtain ⟨pre, post, hsplit, hlive, hkey, hpre⟩ := owner_split howner
        rw [flashFindFirstValidEntry_some h hsplit hpre (owns_iff.mpr ⟨hlive, hkey⟩)] at hnone
        cases hnone
    · exact flashFindFirstValidEntry_none h
  have hbig : (∃ h ∈ primaryHeaders s dev.mem, 250 ≤ h.size.toNat) ↔
      ∃ r ∈ rs, 250 ≤ r.value.length := by
    simp only [primaryHeaders_layout h, List.mem_map, exists_exists_and_eq_and, header_size_toNat]
  rw [CutSafe, howner, hbig, primaryHeaders_layout h, usedBytes_headers]

/-- The condition is enough. -/
theorem atomic_of_cutSafe (h : Represents Record.Finished s dev.mem rs m)
    (hok : SaveOk s dev.mem value.bytes.length)
    (hret : halFlashSave s dev key value.bytes reserved = some (.ok, dev'))
    (hsafe : CutSafe s dev.mem key value.bytes) : PowerFailAtomic s dev dev' key value.bytes := by
  obtain ⟨hfresh, hfree, htorn, hhole⟩ := (cutSafe_layout h.layout).mp hsafe
  obtain ⟨-, hroom⟩ := (saveOk_layout h.layout _).mp hok
  rw [if_pos hfree] at hroom
  rw [powerFailAtomic_cuts h hok hret, saveCallOps, if_pos hfree, saveOps,
    supersedeOps_none (show owner recordSpec rs (valueRecord key value reserved).key = none from
      hfresh), List.nil_append]
  have hnone : m key = none := by
    rw [← h.reads, lookup, hfresh, Option.bind_none]
  intro n
  cases n with
  | zero => exact keepsStore_of_represents h.stored h.weaken (Or.inl rfl) fun _ _ => rfl
  | succ i =>
    obtain ⟨m', hrep, hsaved, hothers⟩ := h.weaken.cut
      (fun r hr => (h.all r hr).kept) hfresh htorn hhole (Nat.lt_succ_of_le value.size_le) hroom i
    refine keepsStore_of_represents h.stored hrep ?_ hothers
    rwa [hnone]

/-- Nothing weaker is: a full sector. -/
theorem full_not_atomic (hprim : 268 ≤ s.primarySize) (hsec : 13 ≤ s.secondarySize)
    (h : Represents Record.Finished s dev.mem rs m)
    (hfull : ¬ (image rs).length < s.primarySize) :
    ∃ n, ¬ KeepsStore s dev.mem
      (applyOps dev.mem ((saveCallOps s rs (valueRecord key value reserved)).take n))
      key value.bytes := by
  by_cases hlive : ∃ k r, owner recordSpec rs k = some r
  · obtain ⟨k, r, howner⟩ := hlive
    exact compaction_loses h hfull howner
  · have hempty : compact recordSpec rs = [] := by
      apply Dead.compact
      intro r hr
      cases hvalid : r.valid with
      | false => rfl
      | true =>
        cases howner : owner recordSpec rs r.key with
        | none => exact absurd rfl (owner_eq_none_iff.mp howner r hr hvalid)
        | some t => exact absurd ⟨r.key, t, howner⟩ hlive
    refine ⟨(compactOps s rs).length + 1, ?_⟩
    have hlay := h.layout
    rw [← List.append_nil rs] at hlay
    have hlay' := layout_compactOps hlay
    rw [hempty] at hlay'
    have hcut : applyOps dev.mem ((saveCallOps s rs (valueRecord key value reserved)).take
        ((compactOps s rs).length + 1)) =
        applyOps (applyOps dev.mem (compactOps s rs)) ((halfWords (s.primaryStart +
          (image []).length) (valueRecord key value reserved).encode).take 1) := by
      rw [saveCallOps, if_neg hfull, hempty, image_nil, List.length_nil, if_pos (by omega),
        saveOps, supersedeOps, List.nil_append, List.take_length_add_append, applyOps_append]
      rfl
    rw [hcut]
    exact hole_loses (by omega) hsec hlay' uniq_nil (by simp [Small]) (by
      rw [image_nil, List.length_nil]
      omega)

/-- Nothing weaker is: a torn value that passes for another. -/
theorem torn_not_atomic (h : Represents Record.Finished s dev.mem rs m)
    (hfree : (image rs).length < s.primarySize)
    (hroom : (image rs).length + (6 + value.bytes.length) ≤ s.primarySize)
    (hfresh : owner recordSpec rs key = none)
    (hkeeps : ∀ n, KeepsStore s dev.mem
      (applyOps dev.mem ((saveCallOps s rs (valueRecord key value reserved)).take n))
      key value.bytes) : TornSafe value.bytes := by
  have hlt := Nat.lt_succ_of_le value.size_le
  have hread : ∀ i v, (tornRecord key value.bytes reserved hlt (i + 1)).read = some v →
      v = value.bytes := by
    intro i v hv
    have hcut := (hkeeps (i + 2)).saved
    rw [saveCallOps, if_pos hfree, saveOps,
      supersedeOps_none (show owner recordSpec rs (valueRecord key value reserved).key = none from
        hfresh), List.nil_append] at hcut
    have hlay : Layout s _ (rs ++ [tornRecord key value.bytes reserved hlt (i + 1)]) :=
      layout_cut h.layout hroom (i + 1)
    have hkey : (tornRecord key value.bytes reserved hlt (i + 1)).key = key :=
      tornRecord_key (i + 1)
    have hlook := congrFun (lookup_append_live (S := recordSpec)
      (show recordSpec.live (tornRecord key value.bytes reserved hlt (i + 1)) = true from
        tornRecord_valid i) (l := rs) (by rwa [recordSpec_key, hkey])) key
    rw [recordSpec_key, hkey, Function.update_self, recordSpec_value, hv,
      ← storedValue_layout hlay] at hlook
    rcases hcut with hold | hnew
    · rw [show storedValue s dev.mem key = none by
        rw [storedValue_layout h.layout, lookup, hfresh, Option.bind_none]] at hold
      exact absurd (hlook.symm.trans hold) (by simp)
    · exact Option.some.inj (hlook.symm.trans hnew)
  constructor
  · intro hcrc
    exact hread 0 _ (if_pos hcrc.symm)
  · intro j hcrc
    exact hread (j + 1) _ (if_pos hcrc.symm)

/-- The condition is needed. -/
theorem cutSafe_of_atomic (hprim : 268 ≤ s.primarySize) (hsec : 13 ≤ s.secondarySize)
    (h : Represents Record.Finished s dev.mem rs m) (hok : SaveOk s dev.mem value.bytes.length)
    (hret : halFlashSave s dev key value.bytes reserved = some (.ok, dev'))
    (hatomic : PowerFailAtomic s dev dev' key value.bytes) :
    CutSafe s dev.mem key value.bytes := by
  have hkeeps := (powerFailAtomic_cuts h hok hret).mp hatomic
  obtain ⟨-, hroom⟩ := (saveOk_layout h.layout _).mp hok
  rw [cutSafe_layout h.layout]
  have hfree : (image rs).length < s.primarySize := by
    by_contra hfull
    obtain ⟨n, hno⟩ := full_not_atomic hprim hsec h hfull
    exact hno (hkeeps n)
  rw [if_pos hfree] at hroom
  have hfresh : owner recordSpec rs key = none := by
    cases howner : owner recordSpec rs key with
    | none => rfl
    | some r =>
      obtain ⟨n, hno⟩ := overwrite_loses h hfree howner
      exact absurd (hkeeps n) hno
  refine ⟨hfresh, hfree, torn_not_atomic h hfree hroom hfresh hkeeps, ?_⟩
  by_contra hhole
  rw [not_or] at hhole
  obtain ⟨hwide, hbig⟩ := hhole
  have hone := hkeeps 1
  rw [saveCallOps, if_pos hfree, saveOps,
    supersedeOps_none (show owner recordSpec rs (valueRecord key value reserved).key = none from
      hfresh), List.nil_append] at hone
  exact hole_loses (by omega) hsec h.layout h.uniq (small_of_not_big h hbig) (by omega) hone

end Iff

/-- Sectors of the STM32F4 hold 16 KiB or more. -/
theorem sectorSize_ge {a : Nat} (ha : a < 8) : 0x4000 ≤ sectorEnd a - sectorBase a := by
  have h : ∀ a < 8, 0x4000 ≤ sectorEnd a - sectorBase a := by decide
  exact h a ha

/-- **The atomic saves.**  After any run from erased sectors, a save within
its arithmetic that returns `HAL_OK` survives every cut exactly when the
condition holds. -/
theorem save_powerFailAtomic_iff (c : KvSectors) (dev₀ dev dev' : FlashDev) (calls : List KvCall)
    (key : UInt8) (value : SavedValue) (reserved : UInt8) (herased : Erased c.storage dev₀.mem)
    (hcalls : StepsOk c.storage dev₀ calls) (hrun : runCalls c.storage dev₀ calls = some dev)
    (hok : SaveOk c.storage dev.mem value.bytes.length)
    (hret : halFlashSave c.storage dev key value.bytes reserved = some (.ok, dev')) :
    PowerFailAtomic c.storage dev dev' key value.bytes ↔
      CutSafe c.storage dev.mem key value.bytes := by
  obtain ⟨dev₁, rs, m, hrun', hrep⟩ :=
    Represents.run closed_finished calls (represents_erased herased) hcalls
  rw [hrun] at hrun'
  cases hrun'
  have hprim := sectorSize_ge c.primary_lt
  have hsec := sectorSize_ge c.secondary_lt
  constructor
  · intro hatomic
    refine cutSafe_of_atomic ?_ ?_ hrep hok hret hatomic
    · exact Nat.le_trans (by decide) hprim
    · exact Nat.le_trans (by decide) hsec
  · exact atomic_of_cutSafe hrep hok hret

def bytesOneTwo : SavedValue := ⟨[1, 2], by decide, by decide⟩

theorem tornSafe_oneTwo : TornSafe bytesOneTwo.bytes := by
  constructor
  · intro hcrc
    exact absurd hcrc (by decide)
  · intro j hcrc
    cases j with
    | zero => exact absurd hcrc (by decide)
    | succ j =>
      have hall : 2 ≤ 2 * (j + 1) := by omega
      rw [tornValue, List.take_of_length_le hall,
        show bytesOneTwo.bytes.length - 2 * (j + 1) = 0 from Nat.sub_eq_zero_of_le hall]
      rfl

/-- A new key beside a record too large to be compacted. -/
theorem save_beside_large_atomic :
    ∃ dev dev', runCalls bootKvSectors.storage blankDev
        [.save 1 (zeros 250 (by decide) (by decide)) 0] = some dev ∧
      halFlashSave bootKvSectors.storage dev 2 bytesOneTwo.bytes 0 = some (.ok, dev') ∧
      PowerFailAtomic bootKvSectors.storage dev dev' 2 bytesOneTwo.bytes := by
  have heval : ((runCalls bootKvSectors.storage blankDev
      [.save 1 (zeros 250 (by decide) (by decide)) 0]).bind fun dev =>
        (halFlashSave bootKvSectors.storage dev 2 bytesOneTwo.bytes 0).map fun r =>
          (r.1, decide (SaveOk bootKvSectors.storage dev.mem 2),
            decide (flashFindFirstValidEntry bootKvSectors.storage dev.mem 2 = none),
            decide (usedBytes (primaryHeaders bootKvSectors.storage dev.mem) <
              bootKvSectors.storage.primarySize),
            decide (∃ h ∈ primaryHeaders bootKvSectors.storage dev.mem, 250 ≤ h.size.toNat))) =
      some (.ok, true, true, true, true) := by
    decide +kernel
  obtain ⟨dev, hrun, hsave⟩ := Option.bind_eq_some_iff.mp heval
  obtain ⟨⟨status, dev'⟩, hret, hfacts⟩ := Option.map_eq_some_iff.mp hsave
  simp only [Prod.mk.injEq, decide_eq_true_eq] at hfacts
  obtain ⟨rfl, hok, hfresh, hfree, hbig⟩ := hfacts
  exact ⟨dev, dev', hrun, hret, (save_powerFailAtomic_iff bootKvSectors blankDev dev dev'
    [.save 1 (zeros 250 (by decide) (by decide)) 0] 2 bytesOneTwo 0
    ⟨fun _ _ => rfl, fun _ _ => rfl⟩ (by decide +kernel) hrun hok hret).mpr
    ⟨hfresh, hfree, tornSafe_oneTwo, Or.inr hbig⟩⟩

/-- Saving over a stored value: a cut after the old record is marked deleted
leaves the key unreadable. -/
theorem overwrite_not_powerFailAtomic :
    ∃ dev dev', runCalls bootKvSectors.storage blankDev
        [.save 1 (zeros 4 (by decide) (by decide)) 0] = some dev ∧
      halFlashSave bootKvSectors.storage dev 1 bytesOneTwo.bytes 0 = some (.ok, dev') ∧
      ¬ PowerFailAtomic bootKvSectors.storage dev dev' 1 bytesOneTwo.bytes := by
  have heval : ((runCalls bootKvSectors.storage blankDev
      [.save 1 (zeros 4 (by decide) (by decide)) 0]).bind fun dev =>
        (halFlashSave bootKvSectors.storage dev 1 bytesOneTwo.bytes 0).map fun r =>
          (r.1, storedValue bootKvSectors.storage dev.mem 1,
            storedValue bootKvSectors.storage
              (applyOps dev.mem ((r.2.log.drop dev.log.length).take 3)) 1)) =
      some (.ok, some [0, 0, 0, 0], none) := by
    decide +kernel
  obtain ⟨dev, hrun, hsave⟩ := Option.bind_eq_some_iff.mp heval
  obtain ⟨⟨status, dev'⟩, hret, hfacts⟩ := Option.map_eq_some_iff.mp hsave
  simp only [Prod.mk.injEq] at hfacts
  obtain ⟨rfl, hbefore, hafter⟩ := hfacts
  refine ⟨dev, dev', hrun, hret, ?_⟩
  intro hatomic
  have hsaved := (hatomic 3).saved
  rw [hbefore, hafter] at hsaved
  rcases hsaved with hold | hnew
  · cases hold
  · cases hnew

end NavHAL.Flash
