import NavHAL.Boot.Image
import NavHAL.Boot.Updater
import NavHAL.Flash.Store

/-!
# The targets of the two stages

Stage-1 serves stage-2's partition and enforces no floor.  Stage-2 serves the
application's and keeps the rollback floor in the key/value store.
-/

namespace NavHAL.Boot

open Bytes Memory Flash

/-! ## The rollback floor (`boot/stage2/main.c`) -/

/-- `KV_KEY_ROLLBACK_FLOOR` -/
def kvKeyRollbackFloor : UInt8 := 0x21

/-- The word in the four bytes of `buf`. -/
def floorOfBytes : List UInt8 → UInt32
  | [b0, b1, b2, b3] => ofLe32 b0 b1 b2 b3
  | _ => 0

/-- `floor_get`: an absent key is a floor of zero. -/
def floorGet (s : Storage) (mem : Mem) : UInt32 :=
  let res := halFlashRead s mem kvKeyRollbackFloor
  if res.status ≠ .ok ∨ res.size ≠ 4 then 0 else floorOfBytes res.value

/-- `floor_ok` -/
def floorOk (s : Storage) (mem : Mem) (version : UInt32) : Bool :=
  decide (floorGet s mem ≤ version)

/-- `floor_set`; `reserved` is the byte the save leaves unassigned. -/
def floorSet (s : Storage) (reserved : UInt8) (dev : FlashDev) (version : UInt32) :
    Option (Bool × FlashDev) :=
  match halFlashSave s dev kvKeyRollbackFloor (le32 version) reserved with
  | some (status, dev) => some (status == .ok, dev)
  | none => none

/-! ## Targets -/

/-- `target` of stage-1. -/
def stage2Target (ed : Ed25519) (bootPubkey : List UInt8) : UpdaterTarget where
  base := bootmapStage2Base
  size := bootmapStage2Size
  maxBody := bootmapStage2Usable
  sectors := [4]
  verify := bootImageIsGood ed bootPubkey
  floorOk := none
  floorSet := none

/-- `app_target` of stage-2. -/
def appTarget (s : Storage) (ed : Ed25519) (bootPubkey : List UInt8) (reserved : UInt8) :
    UpdaterTarget where
  base := bootmapAppBase
  size := bootmapAppSize
  maxBody := bootmapAppUsable
  sectors := [5, 6, 7]
  verify := bootImageIsGood ed bootPubkey
  floorOk := some (floorOk s)
  floorSet := some (floorSet s reserved)

/-! ## Tiling -/

/-- The bytes of a target's partition. -/
def UpdaterTarget.Owns (tgt : UpdaterTarget) (x : Nat) : Prop :=
  tgt.base.toNat ≤ x ∧ x < tgt.base.toNat + tgt.size.toNat

/-- The sectors of a target are exactly those its partition is made of. -/
structure UpdaterTarget.Tiled (tgt : UpdaterTarget) : Prop where
  sectors_lt : ∀ sector ∈ tgt.sectors, sector.toNat < 8
  tiles : ∀ x, tgt.Owns x ↔ ∃ sector ∈ tgt.sectors, InSector sector.toNat x

/-- A partition made of sectors does not wrap. -/
theorem UpdaterTarget.Tiled.stop_lt {tgt : UpdaterTarget} (h : tgt.Tiled)
    (hsize : 0 < tgt.size.toNat) : tgt.base.toNat + tgt.size.toNat < 4294967296 := by
  have hlast : tgt.Owns (tgt.base.toNat + tgt.size.toNat - 1) := ⟨by omega, by omega⟩
  obtain ⟨sector, hmem, -, hbelow⟩ := (h.tiles _).mp hlast
  have hend : ∀ s < 8, sectorEnd s ≤ 0x08080000 := by decide
  have := hend sector.toNat (h.sectors_lt sector hmem)
  omega

theorem stage2Target_tiled (ed : Ed25519) (pk : List UInt8) : (stage2Target ed pk).Tiled where
  sectors_lt := by simp [stage2Target]
  tiles := by
    intro x
    have hbase : bootmapStage2Base.toNat = sectorBase 4 := by decide
    have hstop : sectorBase 4 + bootmapStage2Size.toNat = sectorEnd 4 := by decide
    simp only [UpdaterTarget.Owns, stage2Target, List.mem_singleton, exists_eq_left, InSector,
      hbase, hstop]
    exact Iff.rfl

theorem appTarget_tiled (s : Storage) (ed : Ed25519) (pk : List UInt8) (reserved : UInt8) :
    (appTarget s ed pk reserved).Tiled where
  sectors_lt := by simp [appTarget]
  tiles := by
    intro x
    have hbase : bootmapAppBase.toNat = sectorBase 5 := by decide
    have hstop : sectorBase 5 + bootmapAppSize.toNat = sectorEnd 7 := by decide
    have hfive : sectorEnd 5 = sectorBase 6 ∧ sectorBase 5 < sectorBase 6 := by decide
    have hsix : sectorEnd 6 = sectorBase 7 ∧ sectorBase 6 < sectorBase 7 := by decide
    have hseven := sectorBase_lt_sectorEnd (a := 7) (by decide)
    simp only [UpdaterTarget.Owns, appTarget, List.mem_cons, List.not_mem_nil, or_false,
      exists_eq_or_imp, exists_eq_left, InSector, hbase, hstop]
    rw [show (5 : UInt8).toNat = 5 from rfl, show (6 : UInt8).toNat = 6 from rfl,
      show (7 : UInt8).toNat = 7 from rfl]
    omega

end NavHAL.Boot
