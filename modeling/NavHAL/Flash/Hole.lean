import NavHAL.Flash.Invariant

/-!
# What a hole in the log does later

A save cut off after its first half-word leaves a header without a size,
which reads as 255: a hole.  Records may be written behind it, and the next
compaction stops at the hole and drops them.  So from a log with a hole and room behind
it, some sequence of calls, each within its own condition, loses a value
(`doomed_of_hole`): delete every key, fill the sector to the last byte with
one live record, and save once more.
-/

namespace NavHAL.Flash

open Memory LogMap

/-- The map is what reads with `HAL_OK` return. -/
def StoredAs (s : Storage) (mem : Mem) (m : KvMap) : Prop := storedValue s mem = m

/-- Some calls within their conditions do not agree with the map. -/
def Doomed (s : Storage) (dev : FlashDev) (m : KvMap) : Prop :=
  ∃ calls, StepsOk s dev calls ∧ ¬ AgreesAlong s (StoredAs s) dev m calls

section Doom

variable {s : Storage} {dev dev' : FlashDev} {m : KvMap}

theorem doomed_of_wrong (h : storedValue s dev.mem ≠ m) : Doomed s dev m := ⟨[], trivial, h⟩

theorem Doomed.step (call : KvCall) {status : HalStatus} (hok : CallOk s dev.mem call)
    (hstep : kvStep s dev call = some (status, dev'))
    (h : Doomed s dev' (mapStep m call status)) : Doomed s dev m := by
  obtain ⟨calls, hcalls, hno⟩ := h
  refine ⟨call :: calls, ⟨hok, ?_⟩, ?_⟩
  · rw [hstep]
    exact hcalls
  · rintro ⟨-, status', dev'', hstep', hagrees⟩
    rw [hstep] at hstep'
    cases hstep'
    exact hno hagrees

/-! ## Dead logs -/

/-- `n` bytes of zero. -/
def zeros (n : Nat) (hpos : 0 < n) (hle : n ≤ 255) : SavedValue where
  bytes := List.replicate n 0
  size_pos := by rwa [List.length_replicate]
  size_le := by rwa [List.length_replicate]

theorem zeros_length (n : Nat) (hpos : 0 < n) (hle : n ≤ 255) :
    (zeros n hpos hle).bytes.length = n := List.length_replicate

/-- The record that saving `zeros n` under `key` appends. -/
def zerosRecord (key : UInt8) (n : Nat) (hpos : 0 < n) (hle : n ≤ 255) : Record :=
  savedRecord key (zeros n hpos hle).bytes 0 (Nat.lt_succ_of_le (zeros n hpos hle).size_le)

theorem zerosRecord_length (key : UInt8) (n : Nat) (hpos : 0 < n) (hle : n ≤ 255) :
    (zerosRecord key n hpos hle).value.length = n := zeros_length n hpos hle

theorem killed_length (r : Record) : (recordSpec.kill r).value.length = r.value.length := rfl

def Dead (rs : List Record) : Prop := ∀ r ∈ rs, r.valid = false

theorem Dead.owner {rs : List Record} (h : Dead rs) (key : UInt8) :
    owner recordSpec rs key = none := by
  rw [owner_eq_none_iff]
  intro r hr hlive
  exact absurd hlive (by simp [h r hr])

theorem Dead.compact {rs : List Record} (h : Dead rs) : compact recordSpec rs = [] := by
  rw [LogMap.compact, List.filter_eq_nil_iff]
  intro r hr
  simp [h r hr]

theorem Dead.hole {pre rest : List Record} (key : UInt8) (h : Dead (pre ++ rest)) :
    Dead (pre ++ hole key :: rest) := by
  intro r hr
  rcases List.mem_append.mp hr with hpre | hmem
  · exact h r (List.mem_append_left _ hpre)
  · rcases List.mem_cons.mp hmem with rfl | hrest
    · exact hole_invalid key
    · exact h r (List.mem_append_right _ hrest)

/-- Saving into a dead log appends the record. -/
theorem save_dead {rs : List Record} (h : Layout s dev.mem rs) (hdead : Dead rs) (key : UInt8)
    {n : Nat} (hpos : 0 < n) (hle : n ≤ 254)
    (hroom : (image rs).length + (6 + n) ≤ s.primarySize) :
    ∃ dev', CallOk s dev.mem (.save key (zeros n hpos (by omega)) 0) ∧
      kvStep s dev (.save key (zeros n hpos (by omega)) 0) = some (.ok, dev') ∧
      Layout s dev'.mem (rs ++ [zerosRecord key n hpos (by omega)]) := by
  have hlen := zeros_length n hpos (by omega)
  have hfree : (image rs).length < s.primarySize := by omega
  refine ⟨_, ?_, halFlashSave_free h key _ 0 (by omega) hfree, ?_⟩
  · rw [CallOk, saveOk_layout h, if_pos hfree, hlen]
    exact ⟨hle, hroom⟩
  · have hlay := layout_saveOps (r := zerosRecord key n hpos (by omega)) h (by
      rwa [zerosRecord_length])
    rw [killOwner_of_none (hdead.owner _)] at hlay
    rw [FlashDev.issueAll_mem]
    exact hlay

/-! ## From a hole to a lost value -/

/-- Records a compaction can move once they are deleted. -/
def Small (rs : List Record) : Prop := ∀ r ∈ rs, r.Kept ∧ r.value.length ≤ 249

variable {key : UInt8} {pre rest : List Record}

theorem movable_hole (key : UInt8) : (hole key).Movable := by
  constructor
  · intro h
    exact absurd h (by rw [hole_invalid]; decide)
  · intro h
    exact absurd h (show (0xFF : UInt8) ≠ 0x00 by decide)

theorem small_movable {r : Record} (hsmall : r.value.length ≤ 249) (hdead : r.valid = false) :
    r.Movable := by
  constructor
  · intro h
    exact absurd h (by simp [hdead])
  · intro _
    omega

/-- The last step: the compaction drops the one live record. -/
theorem doomed_full {last : Record} (hprim : 20 ≤ s.primarySize) (hsec : 13 ≤ s.secondarySize)
    (hlay : Layout s dev.mem (pre ++ hole key :: (rest ++ [last]))) (hdead : Dead (pre ++ rest))
    (hsmall : Small (pre ++ rest)) (hlast : last.valid = true) (hlen : last.value.length ≤ 7)
    (hfull : s.primarySize ≤ (image (pre ++ hole key :: (rest ++ [last]))).length)
    (hm : m 0 ≠ none) : Doomed s dev m := by
  have hpre : Dead pre := fun r hr => hdead r (List.mem_append_left _ hr)
  have hcompact : compact recordSpec (pre ++ hole key :: (rest ++ [last])) = [last] := by
    rw [← List.cons_append, ← List.append_assoc, LogMap.compact, List.filter_append]
    rw [show (pre ++ hole key :: rest).filter recordSpec.live = [] from (hdead.hole key).compact]
    simp [hlast]
  have hlive : (image [last]).length = 6 + last.value.length := by
    rw [image_cons_length, image_nil, List.length_nil, Nat.add_zero]
  have hmov : ∀ r ∈ pre, r.Kept ∧ r.Movable := by
    intro r hr
    obtain ⟨hkept, hle⟩ := hsmall r (List.mem_append_left _ hr)
    exact ⟨hkept, small_movable hle (hpre r hr)⟩
  have hok : SaveOk s dev.mem (zeros 1 (by decide) (by decide)).bytes.length := by
    rw [saveOk_layout hlay, if_neg (by omega), hcompact, hlive, zeros_length]
    refine ⟨by omega, ?_, by omega, Or.inr (by omega)⟩
    intro r hr
    rcases List.mem_append.mp hr with hmem | hmem
    · exact (hmov r hmem).2
    · rcases List.mem_cons.mp hmem with rfl | hmem
      · exact movable_hole key
      · rcases List.mem_append.mp hmem with hmem | hmem
        · exact small_movable (hsmall r (List.mem_append_right _ hmem)).2
            (hdead r (List.mem_append_right _ hmem))
        · rw [List.mem_singleton.mp hmem]
          exact ⟨fun _ => by omega, fun _ => by omega⟩
  have hcompaction := flashCompactStorage_ops hlay (.cut key _) hmov (by
    rw [hpre.compact, image_nil, List.length_nil]
    omega)
  have hempty := layout_compactOps hlay
  rw [hpre.compact] at hempty
  have hsave := halFlashSave_full hlay (by omega) hcompaction hempty 1
    (zeros 1 (by decide) (by decide)) 0 (by rw [zeros_length]; omega)
  rw [image_nil, List.length_nil, if_pos (by omega), if_pos (by omega)] at hsave
  refine Doomed.step (.save 1 (zeros 1 (by decide) (by decide)) 0) hok hsave
    (doomed_of_wrong ?_)
  have hnew := layout_saveOps (r := zerosRecord 1 1 (by decide) (by decide)) hempty (by
    rw [zerosRecord_length, image_nil, List.length_nil]
    omega)
  rw [FlashDev.issueAll_mem, applyOps_append]
  intro hwrong
  have hzero := congrFun hwrong 0
  have hread := congrFun (storedValue_layout hnew) 0
  have hlost : lookup recordSpec (killOwner recordSpec 1 [] ++
      [zerosRecord 1 1 (by decide) (by decide)]) 0 = none := rfl
  have hkeep : mapStep m (.save 1 (zeros 1 (by decide) (by decide)) 0) .ok 0 = m 0 := by
    rw [mapStep, Function.update_of_ne (show (0 : UInt8) ≠ 1 by decide)]
  apply hm
  rw [← hkeep, ← hzero, ← hlost]
  exact hread

/-- Filling the room behind the hole, one dead record at a time, up to the last byte. -/
theorem doomed_of_dead (hprim : 20 ≤ s.primarySize) (hsec : 13 ≤ s.secondarySize) (n : Nat) :
    ∀ (rest : List Record) (dev : FlashDev) (m : KvMap),
      Layout s dev.mem (pre ++ hole key :: rest) → Dead (pre ++ rest) → Small (pre ++ rest) →
      (image (pre ++ hole key :: rest)).length + n = s.primarySize → 7 ≤ n → Doomed s dev m := by
  induction n using Nat.strongRecOn with
  | _ n ih =>
    intro rest dev m hlay hdead hsmall hroom hseven
    by_cases hlast : n ≤ 13
    · obtain ⟨dev', hok, hstep, hlay'⟩ :=
        save_dead hlay (hdead.hole key) 0 (show 0 < n - 6 by omega) (by omega) (by omega)
      refine Doomed.step _ hok hstep ?_
      rw [List.append_assoc, List.cons_append] at hlay'
      refine doomed_full hprim hsec hlay' hdead hsmall rfl ?_ ?_ ?_
      · rw [zerosRecord_length]
        omega
      · rw [← List.cons_append, ← List.append_assoc, image_append_length, image_cons_length,
          zerosRecord_length, image_nil, List.length_nil]
        omega
      · simp [mapStep]
    · obtain ⟨dev', hok, hstep, hlay'⟩ :=
        save_dead hlay (hdead.hole key) 0 (show 0 < 1 by omega) (by omega) (by omega)
      refine Doomed.step _ hok hstep (Doomed.step (.delete 0) trivial rfl ?_)
      have hkilled := layout_supersedeOps hlay' 0
      rw [killOwner_split ((hdead.hole key).owner 0) (owns_iff.mpr ⟨rfl, rfl⟩),
        ← FlashDev.issueAll_mem, ← halFlashDelete_ops hlay', List.append_assoc,
        List.cons_append] at hkilled
      refine ih (n - 7) (by omega) _ _ _ hkilled ?_ ?_ ?_ (by omega)
      · intro r hr
        rw [← List.append_assoc] at hr
        rcases List.mem_append.mp hr with hmem | hmem
        · exact hdead r hmem
        · rw [List.mem_singleton.mp hmem]
          rfl
      · intro r hr
        rw [← List.append_assoc] at hr
        rcases List.mem_append.mp hr with hmem | hmem
        · exact hsmall r hmem
        · rw [List.mem_singleton.mp hmem]
          refine ⟨kept_deleted _, ?_⟩
          rw [killed_length, zerosRecord_length]
          omega
      · rw [← List.cons_append, ← List.append_assoc, image_append_length, image_cons_length,
          killed_length, zerosRecord_length, image_nil, List.length_nil]
        omega

/-- Deleting the keys `ks` and then filling the sector. -/
theorem doomed_of_owners (hprim : 20 ≤ s.primarySize) (hsec : 13 ≤ s.secondarySize)
    (ks : List UInt8) :
    ∀ (pre : List Record) (dev : FlashDev) (m : KvMap), Layout s dev.mem (pre ++ [hole key]) →
      Uniq recordSpec pre → Small pre → (∀ k, k ∉ ks → owner recordSpec pre k = none) →
      (image (pre ++ [hole key])).length + 7 ≤ s.primarySize → Doomed s dev m := by
  induction ks with
  | nil =>
    intro pre dev m hlay _ hsmall hnone hroom
    have hdead : Dead pre := by
      intro r hr
      cases hvalid : r.valid with
      | false => rfl
      | true =>
        have hno := owner_eq_none_iff.mp (hnone r.key (List.not_mem_nil))
        exact absurd rfl (hno r hr hvalid)
    refine doomed_of_dead hprim hsec (s.primarySize - (image (pre ++ [hole key])).length) [] dev m
      hlay ?_ ?_ (by omega) (by omega)
    · rwa [List.append_nil]
    · rwa [List.append_nil]
  | cons k ks ih =>
    intro pre dev m hlay huniq hsmall hnone hroom
    have hkilled := layout_supersedeOps hlay k
    have hsplit : killOwner recordSpec k (pre ++ [hole key]) =
        killOwner recordSpec k pre ++ [hole key] := by
      apply killOwner_append_dead
      intro r hr
      rw [List.mem_singleton.mp hr]
      exact hole_invalid key
    rw [hsplit, ← FlashDev.issueAll_mem, ← halFlashDelete_ops hlay] at hkilled
    refine Doomed.step (.delete k) trivial rfl
      (ih _ _ _ hkilled (huniq.killOwner k) ?_ ?_ ?_)
    · intro r hr
      rcases mem_killOwner hr with hmem | ⟨t, ht, rfl⟩
      · exact hsmall r hmem
      · exact ⟨kept_deleted t, (hsmall t ht).2⟩
    · intro k' hk'
      rw [owner_killOwner huniq]
      by_cases hk : k' = k
      · rw [if_pos hk]
      · rw [if_neg hk]
        exact hnone k' (by simp [hk, hk'])
    · rwa [image_append_length, image_killOwner_length, ← image_append_length]

/-- **A hole with room behind it loses a value later.** -/
theorem doomed_of_hole (hprim : 20 ≤ s.primarySize) (hsec : 13 ≤ s.secondarySize)
    (hlay : Layout s dev.mem (pre ++ [hole key])) (huniq : Uniq recordSpec pre)
    (hsmall : Small pre) (hroom : (image pre).length + 268 ≤ s.primarySize) : Doomed s dev m := by
  have hall : ∀ k : UInt8, k ∈ (List.range 256).map UInt8.ofNat := by
    intro k
    rw [List.mem_map]
    exact ⟨k.toNat, List.mem_range.mpr k.toNat_lt, by simp⟩
  refine doomed_of_owners hprim hsec _ pre dev m hlay huniq hsmall
    (fun k hk => absurd (hall k) hk) ?_
  rw [image_append_length, image_cons_length, hole_value_length, image_nil, List.length_nil]
  omega

end Doom

end NavHAL.Flash
