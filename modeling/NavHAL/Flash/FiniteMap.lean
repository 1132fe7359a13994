import NavHAL.Flash.Invariant

/-!
# The store as a finite map

* `save_sequences_agree` : runs whose saves meet `SaveOk` read as the map after every call;
* `save_255_loses_value` : a save of 255 bytes is acknowledged and not written.
-/

namespace NavHAL.Flash

open Memory

/-- **Within the bounds of `StepsOk` the store is a finite map.**  From erased
sectors every call returns, and before and after each of them every key reads
as its last successful save. -/
theorem save_sequences_agree (s : Storage) (dev : FlashDev) (calls : List KvCall)
    (herased : Erased s dev.mem) (hok : StepsOk s dev calls) :
    AgreesAlong s (ReadsAs s) dev emptyMap calls :=
  Represents.agreesAlong closed_finished Represents.readsAs calls (represents_erased herased) hok

/-- Two sectors of sixteen bytes: the third save compacts. -/
def tinyStorage : Storage := ⟨0, 16, 16, 32, by decide, by decide, by decide⟩

theorem compacting_run_agrees :
    AgreesAlong tinyStorage (ReadsAs tinyStorage) blankDev emptyMap
      [.save 1 ⟨[0xAB, 0xCD, 0xEF], by decide, by decide⟩ 0, .save 2 ⟨[0x11], by decide, by decide⟩ 7,
        .delete 1, .read 2, .save 2 ⟨[0xA5, 0x5A], by decide, by decide⟩ 0, .erase] :=
  save_sequences_agree tinyStorage blankDev _ ⟨fun _ _ => rfl, fun _ _ => rfl⟩ (by decide)

theorem zeroes_size_pos : 0 < (List.replicate 255 (0 : UInt8)).length := by
  rw [List.length_replicate]
  decide

theorem zeroes_size_le : (List.replicate 255 (0 : UInt8)).length ≤ 255 :=
  Nat.le_of_eq List.length_replicate

def zeroes255 : SavedValue where
  bytes := List.replicate 255 0
  size_pos := zeroes_size_pos
  size_le := zeroes_size_le

/-- A value of 255 bytes is acknowledged and not written: `padded_size` is 0. -/
theorem save_255_loses_value :
    ¬ AgreesAlong bootKvSectors.storage (ReadsAs bootKvSectors.storage) blankDev emptyMap
      [.save 1 zeroes255 0] := by
  rintro ⟨-, status, dev', hstep, hreads⟩
  have hrun : ((kvStep bootKvSectors.storage blankDev (.save 1 zeroes255 0)).map fun r =>
      (r.1, (halFlashRead bootKvSectors.storage r.2.mem 1).status)) = some (.ok, .err) := by
    decide +kernel
  rw [hstep] at hrun
  simp only [Option.map_some, Option.some.injEq, Prod.mk.injEq] at hrun
  obtain ⟨rfl, hread⟩ := hrun
  have hmatch := hreads 1
  simp only [mapStep, Function.update_self] at hmatch
  rw [hmatch.1] at hread
  exact absurd hread (by decide)

end NavHAL.Flash
