import NavHAL.Flash.Write
import NavHAL.Flash.Calls

/-!
# The invariant of the store

`Represents P s mem rs m` ties the flash to a list of records and to the map
they stand for.  Every call that meets its condition keeps it
(`Represents.step`), so whole runs do (`Represents.agreesAlong`).

The records are all of a kind `P` that saves and deletes stay within.  After
a power cut the log may hold a record that no save finished; `Settled` says
that a compaction copes with it.
-/

namespace NavHAL.Flash

open Memory LogMap

/-! ## The condition on a layout -/

section Condition

variable {s : Storage} {mem : Mem} {rs : List Record}

theorem primaryHeaders_layout (h : Layout s mem rs) :
    primaryHeaders s mem = rs.map Record.header := by
  refine h.walk (primaryHeadersFrom s mem) (fun _ post => post.map Record.header) ?_ ?_
  · intro fuel
    cases fuel with
    | zero => rfl
    | succ fuel => rw [primaryHeadersFrom, if_neg h.stop, List.map_nil]
  · intro pre r post fuel hsplit hnext
    rw [primaryHeadersFrom, h.header hsplit, if_pos ⟨rfl, h.ptr_lt hsplit⟩, next_record, hnext,
      List.map_cons]

theorem usedBytes_headers (rs : List Record) :
    usedBytes (rs.map Record.header) = (image rs).length := by
  induction rs with
  | nil => rfl
  | cons r rs ih =>
    rw [List.map_cons, usedBytes, ih, header_size_toNat, image_cons_length]

theorem liveHeaders_headers (rs : List Record) :
    liveHeaders (rs.map Record.header) = (compact recordSpec rs).map Record.header := by
  rw [liveHeaders, List.filter_map]
  rfl

theorem movable_header (r : Record) : r.header.Movable ↔ r.Movable := by
  rw [FlashRecord.Movable, Record.Movable, header_size_toNat]
  simp [Record.header, Record.valid]

/-- What `SaveOk` says about the records. -/
theorem saveOk_layout (h : Layout s mem rs) (len : Nat) :
    SaveOk s mem len ↔ len ≤ 254 ∧
      if (image rs).length < s.primarySize then (image rs).length + (6 + len) ≤ s.primarySize
      else (∀ r ∈ rs, r.Movable) ∧ (image (compact recordSpec rs)).length ≤ s.secondarySize ∧
        (s.primarySize ≤ (image (compact recordSpec rs)).length ∨
          (image (compact recordSpec rs)).length + (6 + len) ≤ s.primarySize) := by
  simp only [SaveOk, primaryHeaders_layout h, liveHeaders_headers, usedBytes_headers,
    List.forall_mem_map, movable_header]

end Condition

/-! ## Logs a compaction copes with -/

/-- No record was cut off, or one was and a compaction comes before the next
save, or no compaction comes at all. -/
inductive Settled (s : Storage) (rs : List Record) : Prop
  | kept (hkept : ∀ r ∈ rs, r.Kept)
  | cutLast (pre : List Record) (key : UInt8) (hsplit : rs = pre ++ [hole key])
      (hkept : ∀ r ∈ pre, r.Kept) (hfull : s.primarySize < (image rs).length + 7)
  | stuck (r : Record) (hmem : r ∈ rs) (hkept : r.Kept) (hbig : 250 ≤ r.value.length)

theorem hole_invalid (key : UInt8) : (hole key).valid = false := rfl

theorem kept_deleted (r : Record) : r.deleted.Kept := Or.inr rfl

theorem kept_killOwner {rs : List Record} (h : ∀ r ∈ rs, r.Kept) (key : UInt8) :
    ∀ r ∈ killOwner recordSpec key rs, r.Kept := by
  intro r hr
  rcases mem_killOwner hr with hmem | ⟨t, _, rfl⟩
  · exact h r hmem
  · exact kept_deleted t

theorem not_movable_of_big {r : Record} (hkept : r.Kept) (hbig : 250 ≤ r.value.length) :
    ¬ r.Movable := by
  rintro ⟨hvalid, hdeleted⟩
  rcases hkept with h | h
  · have := hvalid h
    omega
  · have := hdeleted h
    omega

section Settling

variable {s : Storage} {rs : List Record}

theorem Settled.killOwner (h : Settled s rs) (key : UInt8) :
    Settled s (killOwner recordSpec key rs) := by
  cases h with
  | kept hkept => exact .kept (kept_killOwner hkept key)
  | cutLast pre k hsplit hkept hfull =>
    refine .cutLast (LogMap.killOwner recordSpec key pre) k ?_ (kept_killOwner hkept key) ?_
    · rw [hsplit]
      apply killOwner_append_dead
      intro r hr
      rw [List.mem_singleton.mp hr]
      exact hole_invalid k
    · rwa [image_killOwner_length]
  | stuck r hmem hkept hbig =>
    rcases killOwner_mem hmem key with hr | hr
    · exact .stuck r hr hkept hbig
    · exact .stuck _ hr (kept_deleted r) hbig

/-- A record is only appended to a log with room for it. -/
theorem Settled.append (h : Settled s rs) {r : Record} (hvalid : r.valid = true)
    (hpos : 0 < r.value.length)
    (hroom : (image rs).length + (6 + r.value.length) ≤ s.primarySize) : Settled s (rs ++ [r]) := by
  cases h with
  | kept hkept =>
    apply Settled.kept
    intro t ht
    rcases List.mem_append.mp ht with hmem | hmem
    · exact hkept t hmem
    · rw [List.mem_singleton.mp hmem]
      exact Or.inl hvalid
  | cutLast pre k hsplit hkept hfull => exact absurd hfull (by omega)
  | stuck t hmem hkept hbig => exact .stuck t (List.mem_append_left _ hmem) hkept hbig

theorem settled_compact (s : Storage) (rs : List Record) : Settled s (compact recordSpec rs) :=
  .kept fun _ hr => Or.inl (compact_valid hr)

/-- Where the compaction of a settled log stops. -/
theorem Settled.split (h : Settled s rs) (hmov : ∀ r ∈ rs, r.Movable) :
    ∃ pre tail, rs = pre ++ tail ∧ Stops tail ∧ (∀ r ∈ pre, r.Kept ∧ r.Movable) ∧
      compact recordSpec rs = compact recordSpec pre := by
  cases h with
  | kept hkept => exact ⟨rs, [], by simp, .done, fun r hr => ⟨hkept r hr, hmov r hr⟩, rfl⟩
  | cutLast pre k hsplit hkept hfull =>
    refine ⟨pre, [hole k], hsplit, .cut k [], ?_, ?_⟩
    · intro r hr
      exact ⟨hkept r hr, hmov r (by rw [hsplit]; exact List.mem_append_left _ hr)⟩
    · rw [hsplit, compact, List.filter_append]
      exact List.append_nil _
  | stuck r hmem hkept hbig => exact absurd (hmov r hmem) (not_movable_of_big hkept hbig)

theorem Settled.compaction (h : Settled s rs) {dev : FlashDev} (hlay : Layout s dev.mem rs)
    (hmov : ∀ r ∈ rs, r.Movable)
    (hroom : (image (compact recordSpec rs)).length ≤ s.secondarySize) :
    flashCompactStorage s dev = some (.ok, dev.issueAll (compactOps s rs)) ∧
      Layout s (applyOps dev.mem (compactOps s rs)) (compact recordSpec rs) := by
  obtain ⟨pre, tail, hsplit, hstop, hpre, hcompact⟩ := h.split hmov
  have hops : compactOps s rs = compactOps s pre := by rw [compactOps, hcompact, compactOps]
  rw [hsplit] at hlay
  rw [hcompact] at hroom ⊢
  rw [hops]
  exact ⟨flashCompactStorage_ops hlay hstop hpre hroom, layout_compactOps hlay⟩

end Settling

/-! ## The invariant -/

/-- A kind of record that saves write and deletes keep. -/
structure Closed (P : Record → Prop) : Prop where
  deleted : ∀ r, P r → P r.deleted
  saved : ∀ key value reserved h, P (savedRecord key value reserved h)

/-- The records `rs`, all of kind `P`, lie in the primary sector, one valid
record a key, and read as `m`. -/
structure Represents (P : Record → Prop) (s : Storage) (mem : Mem) (rs : List Record)
    (m : KvMap) : Prop where
  layout : Layout s mem rs
  uniq : Uniq recordSpec rs
  all : ∀ r ∈ rs, P r
  settled : Settled s rs
  reads : lookup recordSpec rs = m

section Invariant

variable {P : Record → Prop} {s : Storage} {rs : List Record} {m : KvMap}

theorem represents_erased {mem : Mem} (h : Erased s mem) : Represents P s mem [] emptyMap where
  layout := ⟨h.1, trivial, h.2⟩
  uniq := uniq_nil
  all := by simp
  settled := .kept (by simp)
  reads := rfl

theorem Closed.killOwner (hP : Closed P) (h : ∀ r ∈ rs, P r) (key : UInt8) :
    ∀ r ∈ killOwner recordSpec key rs, P r := by
  intro r hr
  rcases mem_killOwner hr with hmem | ⟨t, ht, rfl⟩
  · exact h r hmem
  · exact hP.deleted t (h t ht)

/-! ### Delete and erase -/

theorem halFlashDelete_ops {dev : FlashDev} (h : Layout s dev.mem rs) (key : UInt8) :
    (halFlashDelete s dev key).2 = dev.issueAll (supersedeOps key s.primaryStart rs) := by
  cases howner : owner recordSpec rs key with
  | none =>
    simp [halFlashDelete, stm32FlashDelete, flashFindFirstValidEntry_none h howner,
      supersedeOps_none howner]
  | some r =>
    obtain ⟨pre, post, hsplit, hlive, hkey, hpre⟩ := owner_split howner
    have hown : Owns recordSpec key r = true := owns_iff.mpr ⟨hlive, hkey⟩
    simp only [halFlashDelete, stm32FlashDelete, flashFindFirstValidEntry_some h hsplit hpre hown,
      markDeleted_ops (h.header hsplit)]
    rw [hsplit, supersedeOps_split hpre hown]

theorem Represents.delete {dev : FlashDev} (hP : Closed P) (h : Represents P s dev.mem rs m)
    (key : UInt8) :
    Represents P s (halFlashDelete s dev key).2.mem (killOwner recordSpec key rs)
      (Function.update m key none) where
  layout := by
    rw [halFlashDelete_ops h.layout, FlashDev.issueAll_mem]
    exact layout_supersedeOps h.layout key
  uniq := h.uniq.killOwner key
  all := hP.killOwner h.all key
  settled := h.settled.killOwner key
  reads := by rw [lookup_killOwner h.uniq, h.reads]

theorem represents_erase (s : Storage) (dev : FlashDev) :
    Represents P s (halFlashErase s dev).2.mem [] emptyMap :=
  represents_erased ⟨(layout_erased s dev.mem).shows, (layout_erased s dev.mem).blank⟩

/-! ### Save -/

/-- What a whole save asks of the flash, compaction included. -/
def saveCallOps (s : Storage) (rs : List Record) (r : Record) : List FlashOp :=
  if (image rs).length < s.primarySize then saveOps s rs r
  else compactOps s rs ++
    if (image (compact recordSpec rs)).length < s.primarySize then
      saveOps s (compact recordSpec rs) r
    else []

/-- The records before the new one is appended. -/
def recordsAtSave (s : Storage) (rs : List Record) : List Record :=
  if (image rs).length < s.primarySize then rs else compact recordSpec rs

/-- A save with room for its record. -/
theorem halFlashSave_free {dev : FlashDev} (h : Layout s dev.mem rs) (key : UInt8)
    (value : SavedValue) (reserved : UInt8) (hlen : value.bytes.length ≤ 254)
    (hfree : (image rs).length < s.primarySize) :
    halFlashSave s dev key value.bytes reserved =
      some (.ok, dev.issueAll (saveOps s rs (savedRecord key value.bytes reserved
        (Nat.lt_succ_of_le value.size_le)))) := by
  have hpos := value.size_pos
  have hp := flashFindNextFree_layout h
  rw [if_neg (by omega)] at hp
  rw [halFlashSave, if_neg (by omega), stm32FlashSave]
  simp only [hp, saveAt_ops h hpos hlen]

/-- A save into a full sector, once the compaction is known. -/
theorem halFlashSave_full {dev : FlashDev} {ops : List FlashOp} {rs' : List Record}
    (h : Layout s dev.mem rs) (hfull : ¬ (image rs).length < s.primarySize)
    (hcompaction : flashCompactStorage s dev = some (.ok, dev.issueAll ops))
    (hlay : Layout s (applyOps dev.mem ops) rs') (key : UInt8) (value : SavedValue)
    (reserved : UInt8) (hlen : value.bytes.length ≤ 254) :
    halFlashSave s dev key value.bytes reserved =
      some (if (image rs').length < s.primarySize then .ok else .errIo,
        dev.issueAll (ops ++ if (image rs').length < s.primarySize then
          saveOps s rs' (savedRecord key value.bytes reserved (Nat.lt_succ_of_le value.size_le))
          else [])) := by
  have hpos := value.size_pos
  rw [← FlashDev.issueAll_mem] at hlay
  have hp := flashFindNextFree_layout h
  have hp' := flashFindNextFree_layout hlay
  rw [if_pos (by omega)] at hp
  rw [halFlashSave, if_neg (by omega), stm32FlashSave]
  simp only [hp, hcompaction]
  by_cases hfree : (image rs').length < s.primarySize
  · rw [if_neg (by omega)] at hp'
    simp only [hp', saveAt_ops hlay hpos hlen, if_pos hfree, FlashDev.issueAll_append]
  · rw [if_pos (by omega)] at hp'
    simp only [hp', if_neg hfree, List.append_nil]

/-- A save that meets its condition returns, and fails only when the valid
records alone fill the sector. -/
theorem halFlashSave_ops {dev : FlashDev} (h : Layout s dev.mem rs) (hset : Settled s rs)
    (key : UInt8) (value : SavedValue) (reserved : UInt8)
    (hok : SaveOk s dev.mem value.bytes.length) :
    halFlashSave s dev key value.bytes reserved =
      some (if (image (recordsAtSave s rs)).length < s.primarySize then .ok else .errIo,
        dev.issueAll (saveCallOps s rs (savedRecord key value.bytes reserved
          (Nat.lt_succ_of_le value.size_le)))) := by
  obtain ⟨hlen, hroom⟩ := (saveOk_layout h _).mp hok
  by_cases hfree : (image rs).length < s.primarySize
  · simp only [halFlashSave_free h key value reserved hlen hfree, recordsAtSave, saveCallOps,
      if_pos hfree]
  · rw [if_neg hfree] at hroom
    obtain ⟨hmov, hsec, -⟩ := hroom
    obtain ⟨hcompaction, hlay⟩ := hset.compaction h hmov hsec
    simp only [halFlashSave_full h hfree hcompaction hlay key value reserved hlen, recordsAtSave,
      saveCallOps, if_neg hfree]

theorem Represents.compact {dev : FlashDev} (h : Represents P s dev.mem rs m)
    (hmov : ∀ r ∈ rs, r.Movable)
    (hroom : (image (compact recordSpec rs)).length ≤ s.secondarySize) :
    Represents P s (applyOps dev.mem (compactOps s rs)) (compact recordSpec rs) m where
  layout := (h.settled.compaction h.layout hmov hroom).2
  uniq := h.uniq.compact
  all := fun r hr => h.all r (mem_compact.mp hr).1
  settled := settled_compact s rs
  reads := by rw [lookup_compact, h.reads]

theorem Represents.append {mem : Mem} (hP : Closed P) (h : Represents P s mem rs m) {key : UInt8}
    {value : List UInt8} {reserved : UInt8} (hpos : 0 < value.length) (hlt : value.length < 256)
    (hroom : (image rs).length + (6 + value.length) ≤ s.primarySize) :
    Represents P s (applyOps mem (saveOps s rs (savedRecord key value reserved hlt)))
      (killOwner recordSpec key rs ++ [savedRecord key value reserved hlt])
      (Function.update m key (some value)) := by
  have hfresh : owner recordSpec (killOwner recordSpec key rs) key = none := by
    rw [owner_killOwner h.uniq, if_pos rfl]
  refine ⟨layout_saveOps h.layout hroom, (h.uniq.killOwner key).append_live hfresh, ?_, ?_, ?_⟩
  · intro r hr
    rcases List.mem_append.mp hr with hmem | hmem
    · exact hP.killOwner h.all key r hmem
    · rw [List.mem_singleton.mp hmem]
      exact hP.saved key value reserved hlt
  · apply (h.settled.killOwner key).append rfl hpos
    rwa [image_killOwner_length]
  · rw [lookup_append_live rfl hfresh, lookup_killOwner h.uniq, h.reads]
    simp [savedRecord, Record.read]

/-- **A save is an update of the map, or no change when it fails.** -/
theorem Represents.save {dev : FlashDev} (hP : Closed P) (h : Represents P s dev.mem rs m)
    (key : UInt8) (value : SavedValue) (reserved : UInt8)
    (hok : SaveOk s dev.mem value.bytes.length) :
    ∃ status dev' rs', halFlashSave s dev key value.bytes reserved = some (status, dev') ∧
      Represents P s dev'.mem rs' (mapStep m (.save key value reserved) status) := by
  have hlt := Nat.lt_succ_of_le value.size_le
  obtain ⟨hlen, hroom⟩ := (saveOk_layout h.layout _).mp hok
  have hops := halFlashSave_ops h.layout h.settled key value reserved hok
  refine ⟨_, _, ?_, hops, ?_⟩
  · exact if (image (recordsAtSave s rs)).length < s.primarySize then
      killOwner recordSpec key (recordsAtSave s rs) ++ [savedRecord key value.bytes reserved hlt]
      else recordsAtSave s rs
  · rw [FlashDev.issueAll_mem]
    by_cases hfree : (image rs).length < s.primarySize
    · rw [if_pos hfree] at hroom
      simp only [recordsAtSave, saveCallOps, if_pos hfree]
      exact h.append hP value.size_pos hlt hroom
    · rw [if_neg hfree] at hroom
      obtain ⟨hmov, hsec, hfull⟩ := hroom
      have hcompact := h.compact hmov hsec
      simp only [recordsAtSave, saveCallOps, if_neg hfree, applyOps_append]
      by_cases hfree' : (image (LogMap.compact recordSpec rs)).length < s.primarySize
      · simp only [if_pos hfree']
        exact hcompact.append hP value.size_pos hlt (by omega)
      · simp only [if_neg hfree', applyOps_nil]
        exact hcompact

/-! ### Runs -/

/-- One call that meets its condition keeps the invariant. -/
theorem Represents.step {dev : FlashDev} (hP : Closed P) (h : Represents P s dev.mem rs m)
    (call : KvCall) (hok : CallOk s dev.mem call) :
    ∃ status dev' rs', kvStep s dev call = some (status, dev') ∧
      Represents P s dev'.mem rs' (mapStep m call status) := by
  cases call with
  | save key value reserved => exact h.save hP key value reserved hok
  | delete key => exact ⟨_, _, _, rfl, h.delete hP key⟩
  | erase => exact ⟨_, _, _, rfl, represents_erase s dev⟩
  | read key => exact ⟨_, _, _, rfl, h⟩

theorem Represents.agreesAlong (hP : Closed P) {reads : Mem → KvMap → Prop}
    (hreads : ∀ {mem rs m}, Represents P s mem rs m → reads mem m) (calls : List KvCall) :
    ∀ {dev : FlashDev} {rs : List Record} {m : KvMap}, Represents P s dev.mem rs m →
      StepsOk s dev calls → AgreesAlong s reads dev m calls := by
  induction calls with
  | nil =>
    intro dev rs m h _
    exact hreads h
  | cons call calls ih =>
    intro dev rs m h hok
    obtain ⟨hcall, hrest⟩ := hok
    obtain ⟨status, dev', rs', hstep, h'⟩ := h.step hP call hcall
    rw [hstep] at hrest
    exact ⟨hreads h, status, dev', hstep, ih h' hrest⟩

theorem Represents.run (hP : Closed P) (calls : List KvCall) :
    ∀ {dev : FlashDev} {rs : List Record} {m : KvMap}, Represents P s dev.mem rs m →
      StepsOk s dev calls →
      ∃ dev' rs' m', runCalls s dev calls = some dev' ∧ Represents P s dev'.mem rs' m' := by
  induction calls with
  | nil =>
    intro dev rs m h _
    exact ⟨dev, rs, m, rfl, h⟩
  | cons call calls ih =>
    intro dev rs m h hok
    obtain ⟨hcall, hrest⟩ := hok
    obtain ⟨status, dev', rs', hstep, h'⟩ := h.step hP call hcall
    rw [hstep] at hrest
    obtain ⟨dev'', rs'', m'', hrun, h''⟩ := ih h' hrest
    refine ⟨dev'', rs'', m'', ?_, h''⟩
    rw [runCalls, hstep]
    exact hrun

end Invariant

/-! ## Records of finished calls -/

/-- Deleted, or valid with a checksum that matches. -/
def Record.Finished (r : Record) : Prop :=
  r.valid = true ∧ r.crc = flashCalculateCrc r.value ∨ r.status = flashDeleted

theorem closed_finished : Closed Record.Finished where
  deleted := fun _ _ => Or.inr rfl
  saved := fun _ _ _ _ => Or.inl ⟨rfl, rfl⟩

theorem closed_true : Closed fun _ => True := ⟨fun _ _ => trivial, fun _ _ _ _ => trivial⟩

theorem Record.Finished.kept {r : Record} (h : r.Finished) : r.Kept := h.imp And.left id

theorem Record.Finished.crc_eq {r : Record} (h : r.Finished) (hvalid : r.valid = true) :
    r.crc = flashCalculateCrc r.value := by
  rcases h with ⟨-, hcrc⟩ | hdeleted
  · exact hcrc
  · exact absurd hvalid (by simp [Record.valid, hdeleted, flashDeleted, flashValid])

/-- When every record is finished, reads are exact. -/
theorem Represents.readsAs {s : Storage} {mem : Mem} {rs : List Record} {m : KvMap}
    (h : Represents Record.Finished s mem rs m) : ReadsAs s mem m := by
  intro key
  rw [← h.reads, lookup]
  cases howner : owner recordSpec rs key with
  | none =>
    rw [halFlashRead_none h.layout howner]
    exact ⟨by simp, rfl⟩
  | some r =>
    obtain ⟨pre, post, hsplit, hlive, -, -⟩ := owner_split howner
    have hcrc := (h.all r (by simp [hsplit])).crc_eq hlive
    have hread : recordSpec.value r = some r.value := by simp [Record.read, hcrc]
    rw [halFlashRead_some h.layout howner, Option.bind_some, hread]
    exact ⟨if_pos hcrc, header_size_toNat r, rfl⟩

end NavHAL.Flash
