import NavHAL.Flash.Layout

/-!
# What the writing paths do to a layout

Each path is shown to issue an explicit list of operations: a write is the
half-words of its bytes (`flashWriteData_ops`), each copy loop the half-words
of the records it copies (`copyOps`), a compaction two copies and two erases
(`compactOps`), a save the header rewrite of the superseded record and the
half-words of the new one (`saveOps`).  The memory after any prefix of
these lists is then a matter of overlays.
-/

namespace NavHAL.Flash

open Memory LogMap

/-! ## `_flash_write_data_` -/

/-- The loop writes the bytes it finds, as long as they do not change under
it: the source may be flash, but not the flash being programmed. -/
theorem writeLoop_ops (data : Source) (size addr : Nat) (rest : List UInt8) :
    ∀ (i : Nat) (dev : FlashDev), i + rest.length = size →
      (∀ mem', (∀ x, x < addr ∨ addr + rest.length ≤ x → mem' x = dev.mem x) →
        ∀ j, j < rest.length → data mem' (i + j) = byteAt rest j) →
      writeLoop data size ((rest.length + 1) / 2) i addr dev =
        dev.issueAll (halfWords addr rest) := by
  fun_induction halfWords addr rest with
  | case1 => intro i dev _ _; rfl
  | case2 addr b =>
    intro i dev hsize hdata
    have hlo : data dev.mem i = b := by simpa [byteAt] using hdata dev.mem (fun _ _ => rfl) 0
    simp only [List.length_cons, List.length_nil] at hsize
    simp only [List.length_cons, List.length_nil, writeLoop, hlo]
    rw [if_neg (by omega)]
    rfl
  | case3 addr b c rest ih =>
    intro i dev hsize hdata
    simp only [List.length_cons] at hsize hdata
    have hlo : data dev.mem i = b := by
      simpa [byteAt] using hdata dev.mem (fun _ _ => rfl) 0 (by omega)
    have hhi : data dev.mem (i + 1) = c := by
      simpa [byteAt] using hdata dev.mem (fun _ _ => rfl) 1 (by omega)
    have hnext := ih (i + 2) (flashProgramHalfWord dev addr b c) (by omega) (by
      intro mem' hmem j hj
      have hold := hdata mem' (by
        intro x hx
        rw [hmem x (by omega), flashProgramHalfWord, FlashDev.issue, FlashOp.apply]
        rcases hx with hx | hx
        · exact overlay_below _ _ hx
        · exact overlay_above _ (by simp only [List.length_cons, List.length_nil]; omega))
        (j + 2) (by omega)
      rw [show i + 2 + j = i + (j + 2) by omega, hold]
      simp [byteAt])
    rw [show ((b :: c :: rest).length + 1) / 2 = (rest.length + 1) / 2 + 1 by
      simp only [List.length_cons]; omega]
    simp only [writeLoop, hlo, hhi]
    rw [if_pos (by omega), hnext]
    rfl

theorem paddedSize_half {n : Nat} (h : n ≤ 254) : paddedSize n / 2 = (n + 1) / 2 := by
  unfold paddedSize
  split <;> omega

/-- A write of 1 to 254 bytes issues the half-words of its bytes. -/
theorem flashWriteData_ops {dev : FlashDev} {addr : Nat} {data : Source} {bytes : List UInt8}
    (hpos : 0 < bytes.length) (hle : bytes.length ≤ 254)
    (hdata : ∀ mem', (∀ x, x < addr ∨ addr + bytes.length ≤ x → mem' x = dev.mem x) →
      ∀ j, j < bytes.length → data mem' j = byteAt bytes j) :
    flashWriteData dev addr data bytes.length = (.ok, dev.issueAll (halfWords addr bytes)) := by
  have hloop := writeLoop_ops data bytes.length addr bytes 0 dev (by omega) (by simpa using hdata)
  rw [flashWriteData, if_neg (by omega), paddedSize_half hle, hloop]

theorem flashWriteData_ram {dev : FlashDev} {addr : Nat} {bytes : List UInt8}
    (hpos : 0 < bytes.length) (hle : bytes.length ≤ 254) :
    flashWriteData dev addr (ramSource bytes) bytes.length =
      (.ok, dev.issueAll (halfWords addr bytes)) :=
  flashWriteData_ops hpos hle fun _ _ _ _ => rfl

/-- Copying a record out of a region that the copy does not touch. -/
theorem flashWriteData_copy {dev : FlashDev} {a n addr : Nat} {pre post : List Record} {r : Record}
    (hshows : Shows dev.mem a n (image (pre ++ r :: post)))
    (hin : (image pre).length + 6 + r.value.length ≤ n) (hsmall : 6 + r.value.length ≤ 254)
    (hdisj : addr + (6 + r.value.length) ≤ a ∨ a + n ≤ addr) :
    flashWriteData dev addr (flashSource (a + (image pre).length)) (6 + r.value.length) =
      (.ok, dev.issueAll (halfWords addr r.encode)) := by
  rw [image_append, image_cons, ← List.append_assoc] at hshows
  have hlen := encode_length r
  rw [← hlen]
  apply flashWriteData_ops (by omega) (by omega)
  intro mem' hmem j hj
  rw [flashSource, hmem _ (by omega), hshows.read hj (by omega), byteAt_of_lt]

/-! ## Copying records -/

/-- The half-words of records written back to back from `a` on. -/
def copyOps : Nat → List Record → List FlashOp
  | _, [] => []
  | a, r :: rs => halfWords a r.encode ++ copyOps (a + (6 + r.value.length)) rs

theorem applyOps_copyOps (mem : Mem) (a : Nat) (rs : List Record) :
    applyOps mem (copyOps a rs) = overlay mem a (image rs) := by
  induction rs generalizing mem a with
  | nil => simp [copyOps, overlay_nil]
  | cons r rs ih =>
    rw [copyOps, applyOps_append, applyOps_halfWords, ih, image_cons, overlay_append,
      encode_length]

/-- The record of a save or a delete that was not cut off. -/
def Record.Kept (r : Record) : Prop := r.valid = true ∨ r.status = flashDeleted

/-- The lengths for which `uint8_t` arithmetic does not lose a record: the
rounded total of a valid one, and the total of a deleted one, stay below 256. -/
def Record.Movable (r : Record) : Prop :=
  (r.valid = true → 6 + r.value.length ≤ 254) ∧
    (r.status = flashDeleted → 6 + r.value.length ≤ 255)

theorem totalSize_header {r : Record} (hkept : r.Kept) (h : r.Movable) :
    totalSize r.header = 6 + r.value.length := by
  have hle : 6 + r.value.length ≤ 255 := by
    rcases hkept with hvalid | hdeleted
    · have := h.1 hvalid
      omega
    · exact h.2 hdeleted
  rw [totalSize, header_size_toNat, recordSize]
  omega

/-- What a save leaves that was cut off after its first half-word. -/
def hole (key : UInt8) : Record :=
  ⟨key, 0xFF, 0xFF, 0xFF, List.replicate 255 0xFF, by rw [List.length_replicate]; decide⟩

theorem hole_value_length (key : UInt8) : (hole key).value.length = 255 :=
  List.length_replicate

theorem hole_encode (key : UInt8) :
    (hole key).encode =
      [flashMagicNumber, key, 0xFF, 0xFF, 0xFF, 0xFF] ++ List.replicate 255 0xFF := by
  rw [Record.encode, Record.header, hole_value_length, FlashRecord.bytes, hole]
  rfl

/-- Where the first copy loop ends: after the last record, or at a hole. -/
inductive Stops : List Record → Prop
  | done : Stops []
  | cut (key : UInt8) (rest : List Record) : Stops (hole key :: rest)

theorem compact_cons_valid {r : Record} (rs : List Record) (h : r.valid = true) :
    compact recordSpec (r :: rs) = r :: compact recordSpec rs := by
  simp [compact, h]

theorem compact_cons_invalid {r : Record} (rs : List Record) (h : ¬ r.valid = true) :
    compact recordSpec (r :: rs) = compact recordSpec rs := by
  simp [compact, h]

/-- The first copy loop ends there.  At a hole `total_size` is 5, which is
the offset of a byte that is no magic number. -/
theorem shiftPrimaryToSecondaryLoop_stop {s : Storage} {pre tail : List Record}
    (hstop : Stops tail) (hfits : FitsFrom s.primarySize 0 (pre ++ tail)) {fuel : Nat}
    {ptrSecondary : Nat} {dev : FlashDev}
    (hshows : Shows dev.mem s.primaryStart s.primarySize (image (pre ++ tail)))
    (hfuel : tail.length < fuel) :
    shiftPrimaryToSecondaryLoop s fuel (s.primaryStart + (image pre).length) ptrSecondary dev =
      some (.ok, dev) := by
  obtain ⟨fuel, rfl⟩ : ∃ f, fuel = f + 1 := ⟨fuel - 1, by omega⟩
  cases hstop with
  | done =>
    rw [List.append_nil] at hshows
    rw [shiftPrimaryToSecondaryLoop]
    rw [if_neg (fun hc => no_record_after hshows (by
      have := hc.2
      simp only [Storage.primarySize]
      omega) hc.1)]
  | cut key rest =>
    obtain ⟨fuel, rfl⟩ : ∃ f, fuel = f + 1 := ⟨fuel - 1, by simp at hfuel; omega⟩
    have hin := ((fitsFrom_append _ _ _ _).mp hfits).2.1
    have hsize : s.primarySize = s.primaryEnd - s.primaryStart := rfl
    have hhead := recordAt_of_shows hshows (by omega)
    have htotal : totalSize (hole key).header = 5 := by
      rw [totalSize, header_size_toNat, hole_value_length]
      rfl
    have hstatus : (hole key).header.status ≠ flashValid := show (0xFF : UInt8) ≠ 0x01 by decide
    have hcrc := congrArg FlashRecord.crc hhead
    simp only [recordAt] at hcrc
    rw [shiftPrimaryToSecondaryLoop]
    simp only [hhead, htotal]
    rw [if_pos ⟨rfl, by omega⟩, if_pos hstatus,
      shiftPrimaryToSecondaryLoop]
    simp only [recordAt, hcrc]
    exact if_neg fun hc => absurd hc.1 (show (0xFF : UInt8) ≠ 0x1A by decide)

/-- The first copy loop passes over records it can move, and copies the valid ones. -/
theorem shiftPrimaryToSecondaryLoop_moves {s : Storage} {rs tail : List Record}
    (hfits : FitsFrom s.primarySize 0 (rs ++ tail)) (post : List Record) :
    ∀ (pre : List Record) (fuel ptrSecondary : Nat) (dev : FlashDev), rs = pre ++ post →
      Shows dev.mem s.primaryStart s.primarySize (image (rs ++ tail)) →
      s.secondaryStart ≤ ptrSecondary →
      ptrSecondary + (image (compact recordSpec post)).length ≤ s.secondaryEnd →
      (∀ r ∈ post, r.Kept ∧ r.Movable) →
      shiftPrimaryToSecondaryLoop s (fuel + post.length) (s.primaryStart + (image pre).length)
          ptrSecondary dev =
        shiftPrimaryToSecondaryLoop s fuel (s.primaryStart + (image rs).length)
          (ptrSecondary + (image (compact recordSpec post)).length)
          (dev.issueAll (copyOps ptrSecondary (compact recordSpec post))) := by
  induction post with
  | nil =>
    intro pre fuel ptrSecondary dev hsplit _ _ _ _
    rw [List.append_nil] at hsplit
    subst hsplit
    rfl
  | cons r post ih =>
    intro pre fuel ptrSecondary dev hsplit hshows hlow hhigh hmov
    have hr := hmov r (List.mem_cons_self ..)
    have hrest : ∀ t ∈ post, t.Kept ∧ t.Movable := fun t ht => hmov t (List.mem_cons_of_mem _ ht)
    have hsplit' : rs = (pre ++ [r]) ++ post := by simp [hsplit]
    have hsplit'' : rs ++ tail = pre ++ r :: (post ++ tail) := by simp [hsplit]
    have hin := hfits
    rw [hsplit'', fitsFrom_append] at hin
    obtain ⟨hoff, hvalid, _⟩ := hin.2
    have hshows' := hshows
    rw [hsplit''] at hshows'
    have hhead := recordAt_of_shows hshows' (by omega)
    have hnext : s.primaryStart + (image (pre ++ [r])).length =
        s.primaryStart + (image pre).length + (6 + r.value.length) := by
      rw [image_concat_length, Nat.add_assoc]
    rw [List.length_cons, ← Nat.add_assoc, shiftPrimaryToSecondaryLoop]
    simp only [hhead, totalSize_header hr.1 hr.2]
    rw [if_pos ⟨rfl, by simp only [Storage.primarySize] at hoff; omega⟩]
    by_cases hlive : r.valid = true
    · rw [compact_cons_valid post hlive, image_cons_length] at hhigh
      have hapart := s.apart (Nat.le_refl _) (Nat.le_of_eq s.primary_end) hlow
        (show ptrSecondary + (6 + r.value.length) ≤ s.secondaryEnd by omega)
      have hcopy : flashWriteData dev ptrSecondary
          (flashSource (s.primaryStart + (image pre).length)) (6 + r.value.length) =
          (.ok, dev.issueAll (halfWords ptrSecondary r.encode)) :=
        flashWriteData_copy hshows' (by have := hvalid hlive; omega) (hr.2.1 hlive) hapart.symm
      have hframe : Shows (dev.issueAll (halfWords ptrSecondary r.encode)).mem s.primaryStart
          s.primarySize (image (rs ++ tail)) := by
        rw [FlashDev.issueAll_mem, applyOps_halfWords]
        apply hshows.frame
        rw [encode_length]
        exact hapart.symm
      have hstep := ih (pre ++ [r]) fuel (ptrSecondary + (6 + r.value.length))
        (dev.issueAll (halfWords ptrSecondary r.encode)) hsplit' hframe (by omega) (by omega) hrest
      rw [if_neg (not_not_intro ((header_status_iff r).mpr hlive)), hcopy,
        compact_cons_valid post hlive, copyOps, FlashDev.issueAll_append, image_cons_length,
        ← Nat.add_assoc ptrSecondary (6 + r.value.length), ← hnext]
      exact hstep
    · rw [compact_cons_invalid post hlive] at hhigh ⊢
      rw [if_pos (mt (header_status_iff r).mp hlive), ← hnext]
      exact ih (pre ++ [r]) fuel _ _ hsplit' hshows hlow hhigh hrest

/-- What the first copy loop has read is not what it writes. -/
theorem shows_primary_copied {s : Storage} {mem : Mem} {img : List UInt8} {a : Nat}
    (h : Shows mem s.primaryStart s.primarySize img) (ts : List Record)
    (hlow : s.secondaryStart ≤ a) (hhigh : a + (image ts).length ≤ s.secondaryEnd) :
    Shows (applyOps mem (copyOps a ts)) s.primaryStart s.primarySize img := by
  rw [applyOps_copyOps]
  exact h.frame (s.apart (Nat.le_refl _) (Nat.le_of_eq s.primary_end) hlow hhigh).symm

/-- **First copy loop.**  It copies the valid records to the secondary sector. -/
theorem shiftPrimaryToSecondaryLoop_ops {s : Storage} {rs tail : List Record} (hstop : Stops tail)
    {fuel : Nat} {dev : FlashDev} (h : Layout s dev.mem (rs ++ tail))
    (hroom : (image (compact recordSpec rs)).length ≤ s.secondarySize)
    (hmov : ∀ r ∈ rs, r.Kept ∧ r.Movable) (hfuel : rs.length + tail.length < fuel) :
    shiftPrimaryToSecondaryLoop s fuel s.primaryStart s.secondaryStart dev =
      some (.ok, dev.issueAll (copyOps s.secondaryStart (compact recordSpec rs))) := by
  have hend := s.secondary_end
  have hhigh : s.secondaryStart + (image (compact recordSpec rs)).length ≤ s.secondaryEnd := by omega
  obtain ⟨rest, hrest⟩ : ∃ rest, fuel = rest + rs.length := ⟨fuel - rs.length, by omega⟩
  have hmoves := shiftPrimaryToSecondaryLoop_moves h.fits rs [] rest s.secondaryStart dev rfl h.shows
    (Nat.le_refl _) hhigh hmov
  rw [image_nil, List.length_nil, Nat.add_zero] at hmoves
  rw [hrest, hmoves]
  apply shiftPrimaryToSecondaryLoop_stop hstop h.fits _ (by omega)
  rw [FlashDev.issueAll_mem]
  exact shows_primary_copied h.shows _ (Nat.le_refl _) hhigh

/-- **Second copy loop.**  It copies everything back, up to the first byte that is not
a record's; `n` bytes from the start of the sector matter. -/
theorem shiftSecondaryToPrimaryLoop_ops {s : Storage} {rs : List Record} {n : Nat}
    (hprim : (image rs).length ≤ s.primarySize) (hsec : (image rs).length ≤ n)
    (hn : n ≤ s.secondarySize) (hend : (image rs).length < n ∨ n = s.secondarySize)
    (post : List Record) :
    ∀ (pre : List Record) (fuel : Nat) (dev : FlashDev), rs = pre ++ post →
      Shows dev.mem s.secondaryStart n (image rs) →
      (∀ r ∈ post, r.valid = true ∧ 6 + r.value.length ≤ 254) → post.length < fuel →
      shiftSecondaryToPrimaryLoop s fuel (s.primaryStart + (image pre).length)
          (s.secondaryStart + (image pre).length) dev =
        some (.ok, dev.issueAll (copyOps (s.primaryStart + (image pre).length) post)) := by
  induction post with
  | nil =>
    intro pre fuel dev hsplit hshows _ hfuel
    obtain ⟨fuel, rfl⟩ : ∃ f, fuel = f + 1 := ⟨fuel - 1, by simp at hfuel; omega⟩
    rw [List.append_nil] at hsplit
    subst hsplit
    have hsize : s.secondarySize = s.secondaryEnd - s.secondaryStart := rfl
    rw [shiftSecondaryToPrimaryLoop, if_neg (fun hc => no_record_after hshows (by
      have := hc.2
      omega) hc.1)]
    rfl
  | cons r post ih =>
    intro pre fuel dev hsplit hshows hsmall hfuel
    obtain ⟨fuel, rfl⟩ : ∃ f, fuel = f + 1 := ⟨fuel - 1, by simp at hfuel; omega⟩
    have hr := hsmall r (List.mem_cons_self ..)
    have hsplit' : rs = (pre ++ [r]) ++ post := by simp [hsplit]
    have hlen : (image rs).length =
        (image pre).length + (6 + r.value.length + (image post).length) := by
      rw [hsplit, image_append_length, image_cons_length]
    have hshows' := hshows
    rw [hsplit] at hshows'
    have hhead := recordAt_of_shows hshows' (by omega)
    have hpend := s.primary_end
    have hsend := s.secondary_end
    have htotal : totalSize r.header = 6 + r.value.length :=
      totalSize_header (Or.inl hr.1) ⟨fun _ => hr.2, fun _ => by omega⟩
    have hdisj : s.primaryStart + (image pre).length + (6 + r.value.length) ≤ s.secondaryStart ∨
        s.secondaryStart + n ≤ s.primaryStart + (image pre).length :=
      s.apart (Nat.le_add_right _ _) (by omega) (Nat.le_refl _) (by omega)
    have hcopy : flashWriteData dev (s.primaryStart + (image pre).length)
        (flashSource (s.secondaryStart + (image pre).length)) (6 + r.value.length) =
        (.ok, dev.issueAll (halfWords (s.primaryStart + (image pre).length) r.encode)) :=
      flashWriteData_copy hshows' (by omega) hr.2 hdisj
    have hstep := ih (pre ++ [r]) fuel
      (dev.issueAll (halfWords (s.primaryStart + (image pre).length) r.encode)) hsplit' (by
        rw [FlashDev.issueAll_mem, applyOps_halfWords]
        apply hshows.frame
        rw [encode_length]
        exact hdisj)
      (fun t ht => hsmall t (List.mem_cons_of_mem _ ht)) (by simpa using hfuel)
    rw [image_concat_length, ← Nat.add_assoc s.primaryStart, ← Nat.add_assoc s.secondaryStart]
      at hstep
    rw [shiftSecondaryToPrimaryLoop]
    simp only [hhead, htotal]
    rw [if_pos ⟨rfl, by omega⟩, hcopy, copyOps, FlashDev.issueAll_append]
    exact hstep

/-! ## Compaction -/

/-- What a compaction of `rs` asks of the flash. -/
def compactOps (s : Storage) (rs : List Record) : List FlashOp :=
  copyOps s.secondaryStart (compact recordSpec rs) ++
    .erase s.primaryStart s.primaryEnd :: (copyOps s.primaryStart (compact recordSpec rs) ++
      [.erase s.secondaryStart s.secondaryEnd])

section Compaction

variable {s : Storage} {rs tail : List Record}

theorem compact_valid {r : Record} (h : r ∈ compact recordSpec rs) : r.valid = true :=
  (mem_compact.mp h).2

/-- After the first copy the secondary sector shows the valid records. -/
theorem shows_copied {mem : Mem} (h : Layout s mem (rs ++ tail)) :
    Shows (applyOps mem (copyOps s.secondaryStart (compact recordSpec rs)))
      s.secondaryStart s.secondarySize (image (compact recordSpec rs)) := by
  rw [applyOps_copyOps]
  simpa using h.blank.append (image (compact recordSpec rs))

theorem length_le_image (ts : List Record) : ts.length ≤ (image ts).length := by
  induction ts with
  | nil => simp
  | cons t ts ih => rw [image_cons_length, List.length_cons]; omega

/-- Once the first copy is done, what the secondary sector shows goes back. -/
theorem flashCompactStorage_back {dev dev₁ : FlashDev} {ts : List Record} {n : Nat}
    (hout : flashShiftSectorPrimaryToSecondary s dev = some (.ok, dev₁))
    (hshows : Shows dev₁.mem s.secondaryStart n (image ts))
    (hprim : (image ts).length ≤ s.primarySize) (hsec : (image ts).length ≤ n)
    (hn : n ≤ s.secondarySize) (hend : (image ts).length < n ∨ n = s.secondarySize)
    (hts : ∀ t ∈ ts, t.valid = true ∧ 6 + t.value.length ≤ 254) :
    flashCompactStorage s dev = some (.ok, dev₁.issueAll
      (.erase s.primaryStart s.primaryEnd :: (copyOps s.primaryStart ts ++
        [.erase s.secondaryStart s.secondaryEnd]))) := by
  have hs := s.secondary_end
  have hcount := length_le_image ts
  have hkept : Shows (flashEraseSector dev₁ s.primaryStart s.primaryEnd).mem s.secondaryStart n
      (image ts) := by
    apply shows_of_eqOn hshows
    intro x hlow hhigh
    apply eraseRange_outside
    have hapart := s.apart (Nat.le_refl _) (Nat.le_of_eq s.primary_end) hlow
      (show x + 1 ≤ s.secondaryEnd by omega)
    rw [s.primary_end] at hapart
    exact hapart.symm
  have hback := shiftSecondaryToPrimaryLoop_ops hprim hsec hn hend ts []
    (s.secondaryEnd - s.secondaryStart + 1) _ rfl hkept hts (by omega)
  simp only [image_nil, List.length_nil, Nat.add_zero] at hback
  rw [flashCompactStorage, hout]
  simp only [flashShiftSectorSecondaryToPrimary, hback]
  simp only [FlashDev.issueAll_append, FlashDev.issueAll_cons, FlashDev.issueAll_nil,
    flashEraseSector]

/-- The compaction ends and issues exactly `compactOps` of the records it reaches. -/
theorem flashCompactStorage_ops {dev : FlashDev} (h : Layout s dev.mem (rs ++ tail))
    (hstop : Stops tail) (hmov : ∀ r ∈ rs, r.Kept ∧ r.Movable)
    (hroom : (image (compact recordSpec rs)).length ≤ s.secondarySize) :
    flashCompactStorage s dev = some (.ok, dev.issueAll (compactOps s rs)) := by
  have hp := s.primary_lt
  have hpsize : s.primarySize = s.primaryEnd - s.primaryStart := rfl
  have hlen : rs.length + tail.length ≤ s.primarySize := by simpa using h.fits.length_le
  have hfits := ((fitsFrom_append _ _ _ _).mp h.fits).1.compact (Nat.le_refl 0)
  have hprim : (image (compact recordSpec rs)).length ≤ s.primarySize := by
    simpa using hfits.image_le (fun r hr => compact_valid hr) (Nat.zero_le _)
  have hout := @shiftPrimaryToSecondaryLoop_ops s rs tail hstop (s.primaryEnd - s.primaryStart + 1)
    dev h hroom hmov (by omega)
  have hshows := shows_copied h
  rw [← FlashDev.issueAll_mem] at hshows
  rw [compactOps, FlashDev.issueAll_append]
  exact flashCompactStorage_back hout hshows hprim hroom (Nat.le_refl _) (.inr rfl)
    fun r hr => ⟨compact_valid hr, (hmov r (mem_compact.mp hr).1).2.1 (compact_valid hr)⟩

/-- **Compaction keeps the valid records it reaches and drops all others.** -/
theorem layout_compactOps {mem : Mem} (h : Layout s mem (rs ++ tail)) :
    Layout s (applyOps mem (compactOps s rs)) (compact recordSpec rs) := by
  have hfits := ((fitsFrom_append _ _ _ _).mp h.fits).1.compact (Nat.le_refl 0)
  have hempty : Shows _ s.primaryStart s.primarySize [] :=
    shows_erased (applyOps mem (copyOps s.secondaryStart (compact recordSpec rs))) _ _
  have hback := hempty.append (image (compact recordSpec rs))
  simp only [List.length_nil, Nat.add_zero, List.nil_append] at hback
  simp only [compactOps, applyOps_append, applyOps_cons, applyOps_nil, FlashOp.apply]
  rw [applyOps_copyOps _ s.primaryStart]
  refine ⟨shows_of_eqOn hback ?_, hfits, shows_erased _ _ _⟩
  intro x hlow hhigh
  apply eraseRange_outside
  have hapart := s.apart hlow (show x + 1 ≤ s.primaryEnd by rw [s.primary_end] at hhigh; omega)
    (Nat.le_refl _) (Nat.le_of_eq s.secondary_end)
  rwa [s.secondary_end] at hapart

end Compaction

/-! ## Marking a record deleted -/

/-- The header rewrite that marks the owner of `key` deleted, for records laid
out from `a` on. -/
def supersedeOps (key : UInt8) : Nat → List Record → List FlashOp
  | _, [] => []
  | a, r :: rs =>
    if Owns recordSpec key r then halfWords a r.deleted.header.bytes
    else supersedeOps key (a + (6 + r.value.length)) rs

theorem supersedeOps_none {key : UInt8} {rs : List Record} (h : owner recordSpec rs key = none)
    (a : Nat) : supersedeOps key a rs = [] := by
  induction rs generalizing a with
  | nil => rfl
  | cons r rs ih =>
    rw [owner_cons] at h
    cases hown : Owns recordSpec key r with
    | true => simp [hown] at h
    | false =>
      rw [hown] at h
      simp [supersedeOps, hown, ih h]

theorem supersedeOps_split {key : UInt8} {pre post : List Record} {r : Record}
    (hpre : owner recordSpec pre key = none) (hown : Owns recordSpec key r = true) (a : Nat) :
    supersedeOps key a (pre ++ r :: post) =
      halfWords (a + (image pre).length) r.deleted.header.bytes := by
  induction pre generalizing a with
  | nil => simp [supersedeOps, hown]
  | cons t pre ih =>
    rw [owner_cons] at hpre
    cases ht : Owns recordSpec key t with
    | true => simp [ht] at hpre
    | false =>
      rw [ht] at hpre
      rw [List.cons_append, supersedeOps, ht, if_neg (by simp), ih hpre, image_cons_length,
        Nat.add_assoc]

theorem markDeleted_ops {dev : FlashDev} {a : Nat} {r : Record}
    (hhead : recordAt dev.mem a = r.header) :
    markDeleted dev a = (.ok, dev.issueAll (halfWords a r.deleted.header.bytes)) := by
  rw [markDeleted, hhead]
  exact flashWriteData_ram (by simp) (by simp)

/-- Deleting only clears bits of the header. -/
theorem deleted_clears (r : Record) (i : Nat) :
    byteAt r.header.bytes i &&& byteAt r.deleted.header.bytes i =
      byteAt r.deleted.header.bytes i := by
  have hzero : r.status &&& flashDeleted = flashDeleted := UInt8.and_zero
  match i with
  | 0 | 1 | 2 | 4 | 5 => exact UInt8.and_self
  | 3 => exact hzero
  | i + 6 => simp [byteAt, FlashRecord.bytes]

theorem deleted_encode (r : Record) : r.deleted.encode = r.deleted.header.bytes ++ r.value := rfl

theorem image_killOwner_length (key : UInt8) (rs : List Record) :
    (image (killOwner recordSpec key rs)).length = (image rs).length := by
  induction rs with
  | nil => rfl
  | cons r rs ih =>
    rw [killOwner]
    split
    · rw [image_cons_length, image_cons_length]; rfl
    · rw [image_cons_length, image_cons_length, ih]

theorem fitsFrom_deleted {n off : Nat} {pre post : List Record} {r : Record}
    (h : FitsFrom n off (pre ++ r :: post)) : FitsFrom n off (pre ++ r.deleted :: post) := by
  rw [fitsFrom_append] at h ⊢
  obtain ⟨hpre, hoff, _, hpost⟩ := h
  refine ⟨hpre, hoff, ?_, hpost⟩
  intro hvalid
  exact absurd hvalid (by simp [Record.valid, Record.deleted, flashDeleted, flashValid])

/-- **Marking the owner of a key deleted kills it in the log.** -/
theorem layout_supersedeOps {s : Storage} {mem : Mem} {rs : List Record} (h : Layout s mem rs)
    (key : UInt8) :
    Layout s (applyOps mem (supersedeOps key s.primaryStart rs)) (killOwner recordSpec key rs) := by
  cases howner : owner recordSpec rs key with
  | none => rwa [supersedeOps_none howner, killOwner_of_none howner]
  | some r =>
    obtain ⟨pre, post, hsplit, hlive, hkey, hpre⟩ := owner_split howner
    have hown : Owns recordSpec key r = true := owns_iff.mpr ⟨hlive, hkey⟩
    have hshows := h.shows
    have hfits := h.fits
    rw [hsplit] at hshows hfits
    have hin := (fitsFrom_append _ _ _ _).mp hfits
    have hoff := hin.2.1
    rw [hsplit, supersedeOps_split hpre hown, killOwner_split hpre hown, applyOps_halfWords]
    refine ⟨?_, fitsFrom_deleted hfits, ?_⟩
    · rw [image_append, image_cons, Record.encode, List.append_assoc, ← List.append_assoc]
        at hshows
      have hover := hshows.overwrite r.deleted.header.bytes rfl (deleted_clears r)
      rwa [List.append_assoc, ← List.append_assoc r.deleted.header.bytes, ← deleted_encode,
        ← image_cons, ← image_append] at hover
    · apply h.blank.frame
      rw [header_bytes_length]
      have hend := s.primary_end
      exact s.apart (Nat.le_add_right _ _) (by omega) (Nat.le_refl _) (Nat.le_of_eq s.secondary_end)

/-! ## Saving -/

/-- The record a save appends. -/
def savedRecord (key : UInt8) (value : List UInt8) (reserved : UInt8) (h : value.length < 256) :
    Record :=
  ⟨key, flashValid, reserved, flashCalculateCrc value, value, h⟩

theorem savedRecord_header (key : UInt8) (value : List UInt8) (reserved : UInt8)
    (h : value.length < 256) :
    (savedRecord key value reserved h).header = newRecord key value reserved := rfl

/-- The header is three half-words, so header and value are written as one run. -/
theorem halfWords_encode (a : Nat) (r : Record) :
    halfWords a r.encode = halfWords a r.header.bytes ++ halfWords (a + 6) r.value := rfl

/-- What a save that needs no compaction asks of the flash. -/
def saveOps (s : Storage) (rs : List Record) (r : Record) : List FlashOp :=
  supersedeOps r.key s.primaryStart rs ++
    halfWords (s.primaryStart + (image rs).length) r.encode

/-- A save marks the old record deleted, writes the header and then the value. -/
theorem saveAt_written {s : Storage} {dev : FlashDev} {rs : List Record} (h : Layout s dev.mem rs)
    {key : UInt8} {value : List UInt8} {reserved : UInt8} {ops : List FlashOp}
    (hvalue : ∀ d : FlashDev,
      flashWriteData d (s.primaryStart + (image rs).length + recordSize) (ramSource value)
        value.length = (.ok, d.issueAll ops)) :
    saveAt s dev (s.primaryStart + (image rs).length) key value reserved =
      (.ok, dev.issueAll (supersedeOps key s.primaryStart rs ++
        (halfWords (s.primaryStart + (image rs).length) (newRecord key value reserved).bytes ++
          ops))) := by
  have hrest : ∀ d : FlashDev,
      flashWriteData d (s.primaryStart + (image rs).length)
          (ramSource (newRecord key value reserved).bytes) recordSize =
        (.ok, d.issueAll (halfWords (s.primaryStart + (image rs).length)
          (newRecord key value reserved).bytes)) := fun d =>
    flashWriteData_ram (by simp) (by simp)
  rw [FlashDev.issueAll_append, FlashDev.issueAll_append]
  cases howner : owner recordSpec rs key with
  | none =>
    simp only [saveAt, flashFindFirstValidEntry_none h howner, hrest, hvalue]
    simp [supersedeOps_none howner]
  | some r =>
    obtain ⟨pre, post, hsplit, hlive, hkey, hpre⟩ := owner_split howner
    have hown : Owns recordSpec key r = true := owns_iff.mpr ⟨hlive, hkey⟩
    have hsuper : supersedeOps key s.primaryStart (pre ++ r :: post) = _ :=
      supersedeOps_split hpre hown s.primaryStart
    rw [← hsplit] at hsuper
    simp only [saveAt, flashFindFirstValidEntry_some h hsplit hpre hown,
      markDeleted_ops (h.header hsplit), hrest, hvalue]
    simp [hsuper]

theorem saveAt_ops {s : Storage} {dev : FlashDev} {rs : List Record} (h : Layout s dev.mem rs)
    {key : UInt8} {value : List UInt8} {reserved : UInt8} (hpos : 0 < value.length)
    (hle : value.length ≤ 254) :
    saveAt s dev (s.primaryStart + (image rs).length) key value reserved =
      (.ok, dev.issueAll (saveOps s rs (savedRecord key value reserved (by omega)))) := by
  have hvalue : ∀ d : FlashDev,
      flashWriteData d (s.primaryStart + (image rs).length + recordSize) (ramSource value)
          value.length =
        (.ok, d.issueAll (halfWords (s.primaryStart + (image rs).length + 6) value)) := fun d =>
    flashWriteData_ram hpos hle
  rw [saveOps, halfWords_encode, savedRecord_header]
  exact saveAt_written h hvalue

/-- Bytes written at the free pointer become part of the image. -/
theorem shows_appended {s : Storage} {mem : Mem} {rs : List Record} (h : Layout s mem rs)
    {bytes : List UInt8} (hroom : (image rs).length + bytes.length ≤ s.primarySize) :
    Shows (overlay mem (s.primaryStart + (image rs).length) bytes) s.primaryStart s.primarySize
        (image rs ++ bytes) ∧
      Shows (overlay mem (s.primaryStart + (image rs).length) bytes) s.secondaryStart
        s.secondarySize [] := by
  refine ⟨h.shows.append bytes, h.blank.frame ?_⟩
  have hend := s.primary_end
  exact s.apart (Nat.le_add_right _ _) (by omega) (Nat.le_refl _) (Nat.le_of_eq s.secondary_end)

theorem layout_appended {s : Storage} {mem : Mem} {rs : List Record} (h : Layout s mem rs)
    {r : Record} (hroom : (image rs).length + (6 + r.value.length) ≤ s.primarySize) :
    Layout s (overlay mem (s.primaryStart + (image rs).length) r.encode) (rs ++ [r]) := by
  have hlen := encode_length r
  obtain ⟨hshows, hblank⟩ := shows_appended h (show _ + r.encode.length ≤ _ by omega)
  refine ⟨?_, ?_, hblank⟩
  · rwa [image_append, image_cons, image_nil, List.append_nil]
  · rw [fitsFrom_append]
    exact ⟨h.fits, by omega, fun _ => by omega, trivial⟩

/-- **A save kills the superseded record and appends the new one.** -/
theorem layout_saveOps {s : Storage} {mem : Mem} {rs : List Record} (h : Layout s mem rs)
    {r : Record} (hroom : (image rs).length + (6 + r.value.length) ≤ s.primarySize) :
    Layout s (applyOps mem (saveOps s rs r)) (killOwner recordSpec r.key rs ++ [r]) := by
  have hkilled := layout_supersedeOps h r.key
  have hlen := image_killOwner_length r.key rs
  rw [saveOps, applyOps_append, applyOps_halfWords, ← hlen]
  exact layout_appended hkilled (by omega)

end NavHAL.Flash
