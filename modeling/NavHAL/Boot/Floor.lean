import NavHAL.Boot.Confinement
import NavHAL.Boot.Stage2
import NavHAL.Flash.Invariant

/-!
# The rollback floor over whole runs

A run is any sequence of boots and, in update mode, of frames from a host.
The boot block may hold anything at a boot, and a boot may come at any time.

* `floor_monotone` : while no FLOOR frame asks for less than the floor, the
  floor never falls and no application older than one already run is run;
* `floor_frame_lowers_floor` : a FLOOR frame may ask for less.
-/

namespace NavHAL.Boot

open Bytes Memory Flash

/-! ## Stage-2 as a step system -/

inductive Stage2Mode
  | off
  | updating (erased : Bool)
  | running

/-- `handed` lists the versions stage-2 has handed control to, oldest first. -/
structure Stage2State where
  dev : FlashDev
  boot : BootState
  mode : Stage2Mode := .off
  handed : List UInt32 := []

/-- `reserved` is the byte a save of the floor would leave unassigned. -/
inductive Stage2Step
  | boot (block : BootBlock) (reserved : UInt8)
  | frame (f : Frame) (reserved : UInt8)
  | badFrame

section System

variable (c : KvSectors) (ed : Ed25519) (pk : List UInt8)

/-- One step; `none` when it is not possible, or does not return. -/
def stage2Step (st : Stage2State) : Stage2Step → Option Stage2State
  | .boot block reserved =>
    match stage2Main c.storage ed pk reserved st.dev { block := block } with
    | some (.updateMode _, dev, boot) =>
      some { st with dev := dev, boot := boot, mode := .updating false }
    | some (.jumpTo _, dev, boot) =>
      some { dev := dev, boot := boot, mode := .running
             handed := st.handed ++ [headerVersion st.dev.mem bootmapAppBase] }
    | none => none
  | .frame f reserved =>
    match st.mode with
    | .updating erased =>
      match serveFrame c (appTarget c.storage ed pk reserved)
          { dev := st.dev, boot := st.boot, erased := erased } f with
      | some served =>
        some { st with dev := served.dev, boot := served.boot, mode := .updating served.erased }
      | none => none
    | _ => none
  | .badFrame =>
    match st.mode with
    | .updating _ => some st
    | _ => none

def stage2Run : Stage2State → List Stage2Step → Option Stage2State
  | st, [] => some st
  | st, step :: steps =>
    match stage2Step c ed pk st step with
    | some st => stage2Run st steps
    | none => none

/-- `P` holds of every step of a run and the flash it is taken in. -/
def Along (P : Mem → Stage2Step → Prop) : Stage2State → List Stage2Step → Prop
  | _, [] => True
  | st, step :: steps => P st.dev.mem step ∧
      match stage2Step c ed pk st step with
      | some st => Along P st steps
      | none => True

/-! ## The property and its conditions -/

/-- From any point of the run to any later one the floor does not fall, and no
version is handed control after a higher one. -/
def FloorMonotone (st : Stage2State) (steps : List Stage2Step) : Prop :=
  ∀ steps₁ steps₂ steps₃ st₁ st₂, steps = steps₁ ++ (steps₂ ++ steps₃) →
    stage2Run c ed pk st steps₁ = some st₁ → stage2Run c ed pk st₁ steps₂ = some st₂ →
    floorGet c.storage st₁.dev.mem ≤ floorGet c.storage st₂.dev.mem ∧
      st₂.handed.Pairwise (· ≤ ·)

end System

/-- The store holds the records of finished calls. -/
def StoreSound (s : Storage) (mem : Mem) : Prop :=
  ∃ rs m, Represents Record.Finished s mem rs m

/-- A floor can be saved: four bytes within the store's bounds, and the records
in use do not fill the sector. -/
def StoreWorks (s : Storage) (mem : Mem) : Prop :=
  SaveOk s mem 4 ∧ usedBytes (liveHeaders (primaryHeaders s mem)) < s.primarySize

instance (s : Storage) (mem : Mem) : Decidable (StoreWorks s mem) := by
  unfold StoreWorks
  infer_instance

/-- A FLOOR frame asks for the floor or more. -/
def KeepsFloor (s : Storage) (mem : Mem) : Stage2Step → Prop
  | .frame f _ => f.cmd = recoveryCmdFloor → f.payload.length = 4 →
      floorGet s mem ≤ floorOfBytes f.payload
  | _ => True

instance (s : Storage) (mem : Mem) : (step : Stage2Step) → Decidable (KeepsFloor s mem step)
  | .frame f _ => inferInstanceAs (Decidable (f.cmd = recoveryCmdFloor → f.payload.length = 4 →
      floorGet s mem ≤ floorOfBytes f.payload))
  | .boot .. | .badFrame => isTrue trivial

instance decidableAlong (c : KvSectors) (ed : Ed25519) (pk : List UInt8)
    (P : Mem → Stage2Step → Prop) [∀ mem step, Decidable (P mem step)] :
    (st : Stage2State) → (steps : List Stage2Step) → Decidable (Along c ed pk P st steps)
  | _, [] => isTrue trivial
  | st, step :: steps =>
    have : Decidable (match stage2Step c ed pk st step with
        | some st => Along c ed pk P st steps
        | none => True) :=
      match stage2Step c ed pk st step with
      | some st => decidableAlong c ed pk P st steps
      | none => isTrue trivial
    inferInstanceAs (Decidable (_ ∧ _))

/-! ## The floor in the store -/

section Store

variable {s : Storage} {mem : Mem} {rs : List Record} {m : KvMap}

theorem storeSound_erased (h : Erased s mem) : StoreSound s mem := ⟨_, _, represents_erased h⟩

/-- What `floor_get` makes of a stored value. -/
def floorOfValue : Option (List UInt8) → UInt32
  | some value => floorOfBytes value
  | none => 0

theorem floorOfBytes_short {value : List UInt8} (h : value.length ≠ 4) :
    floorOfBytes value = 0 := by
  unfold floorOfBytes
  split
  · exact absurd rfl h
  · rfl

theorem floorGet_represents (h : Represents Record.Finished s mem rs m) :
    floorGet s mem = floorOfValue (m kvKeyRollbackFloor) := by
  have hread := h.readsAs kvKeyRollbackFloor
  unfold floorGet
  dsimp only
  cases hm : m kvKeyRollbackFloor with
  | none =>
    rw [hm] at hread
    rw [if_pos (Or.inl hread.1)]
    rfl
  | some value =>
    rw [hm] at hread
    obtain ⟨hstatus, hsize, hvalue⟩ := hread
    rw [hvalue]
    by_cases hfour : (halFlashRead s mem kvKeyRollbackFloor).size = 4
    · rw [if_neg (by simp [hstatus, hfour])]
      rfl
    · rw [if_pos (Or.inr hfour)]
      have hlen : value.length ≠ 4 := by
        intro hlen
        apply hfour
        rw [← UInt8.toNat_inj, hsize, hlen]
        rfl
      exact (floorOfBytes_short hlen).symm

/-- A save of the floor into a working store returns true and is read back. -/
theorem floorSet_works {dev : FlashDev} (h : StoreSound s dev.mem) (hworks : StoreWorks s dev.mem)
    (reserved : UInt8) (version : UInt32) :
    ∃ dev', floorSet s reserved dev version = some (true, dev') ∧ StoreSound s dev'.mem ∧
      floorGet s dev'.mem = version := by
  obtain ⟨rs, m, hrep⟩ := h
  obtain ⟨hok, hlive⟩ := hworks
  rw [primaryHeaders_layout hrep.layout, liveHeaders_headers, usedBytes_headers] at hlive
  have hroom : (image (recordsAtSave s rs)).length < s.primarySize := by
    unfold recordsAtSave
    split
    · assumption
    · exact hlive
  have hstatus := halFlashSave_ops hrep.layout hrep.settled kvKeyRollbackFloor
    ⟨le32 version, by simp, by simp⟩ reserved hok
  rw [if_pos hroom] at hstatus
  obtain ⟨status, dev', rs', hsave, hrep'⟩ :=
    hrep.save closed_finished kvKeyRollbackFloor ⟨le32 version, by simp, by simp⟩ reserved hok
  rw [hstatus] at hsave
  cases hsave
  refine ⟨_, ?_, ⟨rs', _, hrep'⟩, ?_⟩
  · rw [floorSet, hstatus]
    rfl
  · rw [floorGet_represents hrep']
    simp only [mapStep, Function.update_self]
    exact ofLe32_bytes version

/-- What changes outside the two sectors is nothing to the store. -/
theorem StoreSound.outside {c : KvSectors} {mem' : Mem} (h : StoreSound c.storage mem)
    (hwithin : ChangesWithin c.Outside mem mem') :
    StoreSound c.storage mem' ∧ floorGet c.storage mem' = floorGet c.storage mem := by
  obtain ⟨rs, m, hrep⟩ := h
  have hrep' : Represents Record.Finished c.storage mem' rs m :=
    { hrep with
      layout := by
        apply hrep.layout.congr
        · intro x hlow hhigh
          exact hwithin x fun hout => hout.1 ⟨hlow, hhigh⟩
        · intro x hlow hhigh
          exact hwithin x fun hout => hout.2 ⟨hlow, hhigh⟩ }
  exact ⟨⟨rs, m, hrep'⟩, by rw [floorGet_represents hrep', floorGet_represents hrep]⟩

end Store

/-! ## One step -/

section Steps

variable {c : KvSectors} {ed : Ed25519} {pk : List UInt8}

theorem eraseSectors_outside (c : KvSectors) (sectors : List UInt8) :
    ∀ dev : FlashDev, ChangesWithin c.Outside dev.mem (eraseSectors c sectors dev).2.2.mem := by
  induction sectors with
  | nil =>
    intro dev
    exact .refl _ _
  | cons sector sectors ih =>
    intro dev
    have hfirst := halFlashRawEraseSector_outside c dev sector
    rw [eraseSectors]
    split
    · next dev₁ herase =>
      rw [herase] at hfirst
      exact hfirst.trans (ih dev₁)
    · next status dev₁ _ herase =>
      rw [herase] at hfirst
      exact hfirst

/-- A frame leaves the store alone, or is a FLOOR frame that saves. -/
theorem serveFrame_store {reserved : UInt8} {st st' : UpdaterState} {f : Frame}
    (h : serveFrame c (appTarget c.storage ed pk reserved) st f = some st') :
    ChangesWithin c.Outside st.dev.mem st'.dev.mem ∨
      ∃ b0 b1 b2 b3 ok, f = ⟨recoveryCmdFloor, [b0, b1, b2, b3]⟩ ∧
        floorSet c.storage reserved st.dev (ofLe32 b0 b1 b2 b3) = some (ok, st'.dev) := by
  have htiled := appTarget_tiled c.storage ed pk reserved
  rcases serveFrame_cases h with ⟨status, code, rfl⟩ | rfl | rfl | rfl | ⟨hcmd, hfloor⟩ | rfl
  · exact Or.inl (.refl _ _)
  · rw [serveErase_dev]
    exact Or.inl (eraseSectors_outside c _ st.dev)
  · rw [serveWrite_dev]
    rcases doWrite_cases (c := c) htiled st f.payload with
      hsame | ⟨addr, data, status, dev, hprogram, -, -, hhigh, hcall⟩
    · rw [hsame]
      exact Or.inl (.refl _ _)
    · have hlen : data.length < UInt32.size := by
        have hstop := htiled.stop_lt (show 0 < bootmapAppSize.toNat by decide)
        show data.length < 4294967296
        omega
      have hwithin := halFlashRawProgram_outside c st.dev addr hlen
      rw [hcall] at hwithin
      rw [hprogram]
      exact Or.inl hwithin
  · rw [serveVerify_dev]
    exact Or.inl (.refl _ _)
  · rcases serveFloor_dev _ st hfloor with hsame | ⟨set, b0, b1, b2, b3, ok, hset, hpayload, hcall⟩
    · rw [hsame]
      exact Or.inl (.refl _ _)
    · cases hset
      obtain ⟨cmd, payload⟩ := f
      exact Or.inr ⟨b0, b1, b2, b3, ok, congrArg₂ Frame.mk hcmd hpayload, hcall⟩
  · rw [serveRun_dev]
    exact Or.inl (.refl _ _)

/-- A step leaves the floor and the list of versions alone, or saves a floor
and may hand over to the version at that floor, or hands over to that version. -/
theorem stage2Step_cases {st st' : Stage2State} {step : Stage2Step}
    (h : stage2Step c ed pk st step = some st') :
    (ChangesWithin c.Outside st.dev.mem st'.dev.mem ∧
      (st'.handed = st.handed ∨
        st'.handed = st.handed ++ [floorGet c.storage st.dev.mem])) ∨
    ∃ reserved version ok, floorSet c.storage reserved st.dev version = some (ok, st'.dev) ∧
      (KeepsFloor c.storage st.dev.mem step → floorGet c.storage st.dev.mem ≤ version) ∧
      (st'.handed = st.handed ∨ st'.handed = st.handed ++ [version]) := by
  cases step with
  | boot block reserved =>
    simp only [stage2Step] at h
    split at h
    · next why dev boot hmain =>
      cases h
      rw [stage2Main_updateMode hmain]
      exact Or.inl ⟨.refl _ _, Or.inl rfl⟩
    · next payload dev boot hmain =>
      cases h
      obtain ⟨-, -, hle, hsaved⟩ := stage2Main_jump hmain
      rcases hsaved with ⟨rfl, hfloor⟩ | ⟨ok, hset⟩
      · rw [← hfloor]
        exact Or.inl ⟨.refl _ _, Or.inr rfl⟩
      · exact Or.inr ⟨reserved, _, ok, hset, fun _ => hle, Or.inr rfl⟩
    · cases h
  | frame f reserved =>
    simp only [stage2Step] at h
    split at h
    · split at h
      · next served hserve =>
        cases h
        rcases serveFrame_store hserve with hout | ⟨b0, b1, b2, b3, ok, hf, hset⟩
        · exact Or.inl ⟨hout, Or.inl rfl⟩
        · refine Or.inr ⟨reserved, _, ok, hset, ?_, Or.inl rfl⟩
          subst hf
          exact fun hkeeps => hkeeps rfl rfl
      · cases h
    · cases h
  | badFrame =>
    simp only [stage2Step] at h
    split at h
    · cases h
      exact Or.inl ⟨.refl _ _, Or.inl rfl⟩
    · cases h

/-! ## Runs -/

/-- The store is sound, and the versions handed control to are in order and
not above the floor. -/
structure FloorInv (c : KvSectors) (st : Stage2State) : Prop where
  store : StoreSound c.storage st.dev.mem
  below : ∀ version ∈ st.handed, version ≤ floorGet c.storage st.dev.mem
  sorted : st.handed.Pairwise (· ≤ ·)

theorem sorted_concat {vs : List UInt32} {v : UInt32} (h : vs.Pairwise (· ≤ ·))
    (hle : ∀ w ∈ vs, w ≤ v) : (vs ++ [v]).Pairwise (· ≤ ·) := by
  rw [List.pairwise_append]
  refine ⟨h, List.pairwise_singleton _ _, ?_⟩
  intro w hw u hu
  rw [List.mem_singleton.mp hu]
  exact hle w hw

/-- To a floor that is no lower, and to a list that may end in that floor. -/
theorem FloorInv.advance {st st' : Stage2State} (h : FloorInv c st)
    (hstore : StoreSound c.storage st'.dev.mem)
    (hle : floorGet c.storage st.dev.mem ≤ floorGet c.storage st'.dev.mem)
    (hhanded : st'.handed = st.handed ∨
      st'.handed = st.handed ++ [floorGet c.storage st'.dev.mem]) : FloorInv c st' := by
  have hbelow : ∀ v ∈ st.handed, v ≤ floorGet c.storage st'.dev.mem :=
    fun v hv => UInt32.le_trans (h.below v hv) hle
  rcases hhanded with heq | heq
  · exact ⟨hstore, by rwa [heq], by rw [heq]; exact h.sorted⟩
  · refine ⟨hstore, ?_, by rw [heq]; exact sorted_concat h.sorted hbelow⟩
    intro v hv
    rw [heq] at hv
    rcases List.mem_append.mp hv with hold | hnew
    · exact hbelow v hold
    · exact UInt32.le_of_eq (List.mem_singleton.mp hnew)

/-- One step keeps the invariant and does not lower the floor. -/
theorem FloorInv.step {st st' : Stage2State} {step : Stage2Step} (h : FloorInv c st)
    (hworks : StoreWorks c.storage st.dev.mem) (hkeeps : KeepsFloor c.storage st.dev.mem step)
    (hstep : stage2Step c ed pk st step = some st') :
    FloorInv c st' ∧ floorGet c.storage st.dev.mem ≤ floorGet c.storage st'.dev.mem := by
  rcases stage2Step_cases hstep with ⟨hout, hhanded⟩ |
    ⟨reserved, version, ok, hset, hraise, hhanded⟩
  · obtain ⟨hstore, hfloor⟩ := h.store.outside hout
    have hle := UInt32.le_of_eq hfloor.symm
    rw [← hfloor] at hhanded
    exact ⟨h.advance hstore hle hhanded, hle⟩
  · obtain ⟨dev', hset', hstore, hfloor⟩ := floorSet_works h.store hworks reserved version
    rw [hset] at hset'
    cases hset'
    have hle := hraise hkeeps
    rw [← hfloor] at hle hhanded
    exact ⟨h.advance hstore hle hhanded, hle⟩

/-- So does a run. -/
theorem FloorInv.run (steps : List Stage2Step) :
    ∀ {st st' : Stage2State}, FloorInv c st →
      Along c ed pk (fun mem _ => StoreWorks c.storage mem) st steps →
      Along c ed pk (KeepsFloor c.storage) st steps →
      stage2Run c ed pk st steps = some st' →
      FloorInv c st' ∧ floorGet c.storage st.dev.mem ≤ floorGet c.storage st'.dev.mem := by
  induction steps with
  | nil =>
    intro st st' h _ _ hrun
    cases hrun
    exact ⟨h, UInt32.le_refl _⟩
  | cons step steps ih =>
    intro st st' h hworks hkeeps hrun
    obtain ⟨hwork, hworks⟩ := hworks
    obtain ⟨hkeep, hkeeps⟩ := hkeeps
    rw [stage2Run] at hrun
    cases hstep : stage2Step c ed pk st step with
    | none =>
      rw [hstep] at hrun
      cases hrun
    | some st₁ =>
      rw [hstep] at hrun hworks hkeeps
      obtain ⟨h₁, hle⟩ := h.step hwork hkeep hstep
      obtain ⟨h₂, hle'⟩ := ih h₁ hworks hkeeps hrun
      exact ⟨h₂, UInt32.le_trans hle hle'⟩

theorem Along.mono {P Q : Mem → Stage2Step → Prop} (himp : ∀ mem step, P mem step → Q mem step)
    (steps : List Stage2Step) :
    ∀ {st : Stage2State}, Along c ed pk P st steps → Along c ed pk Q st steps := by
  induction steps with
  | nil => exact fun _ => trivial
  | cons step steps ih =>
    intro st h
    obtain ⟨hstep, hrest⟩ := h
    refine ⟨himp _ _ hstep, ?_⟩
    cases hnext : stage2Step c ed pk st step with
    | none => trivial
    | some st' =>
      rw [hnext] at hrest
      exact ih hrest

theorem along_append {P : Mem → Stage2Step → Prop} (steps₁ : List Stage2Step)
    {steps₂ : List Stage2Step} :
    ∀ {st : Stage2State}, Along c ed pk P st (steps₁ ++ steps₂) →
      Along c ed pk P st steps₁ ∧
        ∀ st₁, stage2Run c ed pk st steps₁ = some st₁ → Along c ed pk P st₁ steps₂ := by
  induction steps₁ with
  | nil =>
    intro st h
    refine ⟨trivial, ?_⟩
    rintro st₁ ⟨⟩
    exact h
  | cons step steps₁ ih =>
    intro st h
    obtain ⟨hstep, hrest⟩ := h
    simp only [Along, stage2Run]
    cases hnext : stage2Step c ed pk st step with
    | none => exact ⟨⟨hstep, trivial⟩, by simp⟩
    | some st' =>
      rw [hnext] at hrest
      obtain ⟨hfirst, hsecond⟩ := ih hrest
      exact ⟨⟨hstep, hfirst⟩, hsecond⟩

/-- **The floor is monotone while no FLOOR frame asks for less than it.**  Over
every such run on a working store it never falls, and an application older
than one already handed control to is never handed control to. -/
theorem floor_monotone (c : KvSectors) (ed : Ed25519) (pk : List UInt8) (st : Stage2State)
    (steps : List Stage2Step) (hstore : StoreSound c.storage st.dev.mem) (hstart : st.handed = [])
    (hworks : Along c ed pk (fun mem _ => StoreWorks c.storage mem) st steps)
    (hkeeps : Along c ed pk (KeepsFloor c.storage) st steps) :
    FloorMonotone c ed pk st steps := by
  rintro steps₁ steps₂ steps₃ st₁ st₂ rfl hrun₁ hrun₂
  obtain ⟨hworks₁, hworks⟩ := along_append steps₁ hworks
  obtain ⟨hkeeps₁, hkeeps⟩ := along_append steps₁ hkeeps
  have hinv : FloorInv c st := ⟨hstore, by simp [hstart], by simp [hstart]⟩
  obtain ⟨hinv₁, -⟩ := hinv.run steps₁ hworks₁ hkeeps₁ hrun₁
  obtain ⟨hinv₂, hle⟩ := hinv₁.run steps₂ (along_append steps₂ (hworks st₁ hrun₁)).1
    (along_append steps₂ (hkeeps st₁ hrun₁)).1 hrun₂
  exact ⟨hle, hinv₂.sorted⟩

end Steps

/-! ## Two runs -/

/-- A board with an erased store and the old image as its application. -/
def oldImageBoard : Stage2State where
  dev := { mem := overlay (fun _ => 0xFF) bootmapAppBase.toNat oldImage }
  boot := freshBoot

/-- The old image runs, and raises the floor to 1; asked for the loader, stage-2
takes a floor of 3, and at the next boot refuses the image. -/
theorem raising_run_monotone :
    FloorMonotone bootKvSectors echoEd25519 [] oldImageBoard
      [.boot freshBoot.block 0, .boot (blockSeal halBootReqLoader 0) 0,
        .frame ⟨recoveryCmdFloor, [3, 0, 0, 0]⟩ 0, .boot freshBoot.block 0] := by
  have hbelow : ∀ x, x < bootmapAppBase.toNat → oldImageBoard.dev.mem x = 0xFF := by
    intro x hx
    unfold oldImageBoard
    exact overlay_below (fun _ => 0xFF) oldImage hx
  have hprimary : bootKvSectors.storage.primaryStart + bootKvSectors.storage.primarySize ≤
    bootmapAppBase.toNat := by decide
  have hsecondary : bootKvSectors.storage.secondaryStart + bootKvSectors.storage.secondarySize ≤
    bootmapAppBase.toNat := by decide
  have herased : Erased bootKvSectors.storage oldImageBoard.dev.mem := by
    constructor
    · intro i hi
      rw [hbelow _ (by omega), byteAt_nil]
    · intro i hi
      rw [hbelow _ (by omega), byteAt_nil]
  have hboth : Along bootKvSectors echoEd25519 []
      (fun mem step => StoreWorks bootKvSectors.storage mem ∧
        KeepsFloor bootKvSectors.storage mem step) oldImageBoard
      [.boot freshBoot.block 0, .boot (blockSeal halBootReqLoader 0) 0,
        .frame ⟨recoveryCmdFloor, [3, 0, 0, 0]⟩ 0, .boot freshBoot.block 0] := by
    decide +kernel
  exact floor_monotone bootKvSectors echoEd25519 [] oldImageBoard _ (storeSound_erased herased) rfl
    (Along.mono (fun _ _ h => h.1) _ hboth) (Along.mono (fun _ _ h => h.2) _ hboth)

/-- The board comes up without an application, and a host sends two FLOOR frames. -/
theorem floor_frame_lowers_floor :
    StoreSound bootKvSectors.storage blankDev.mem ∧
      Along bootKvSectors echoEd25519 [] (fun mem _ => StoreWorks bootKvSectors.storage mem)
        { dev := blankDev, boot := freshBoot }
        [.boot freshBoot.block 0, .frame ⟨recoveryCmdFloor, [5, 0, 0, 0]⟩ 0,
          .frame ⟨recoveryCmdFloor, [1, 0, 0, 0]⟩ 0] ∧
      ¬ FloorMonotone bootKvSectors echoEd25519 [] { dev := blankDev, boot := freshBoot }
        [.boot freshBoot.block 0, .frame ⟨recoveryCmdFloor, [5, 0, 0, 0]⟩ 0,
          .frame ⟨recoveryCmdFloor, [1, 0, 0, 0]⟩ 0] := by
  refine ⟨storeSound_erased ⟨fun _ _ => rfl, fun _ _ => rfl⟩, by decide +kernel, ?_⟩
  intro hmono
  have hfloors : ((stage2Run bootKvSectors echoEd25519 [] { dev := blankDev, boot := freshBoot }
      [.boot freshBoot.block 0, .frame ⟨recoveryCmdFloor, [5, 0, 0, 0]⟩ 0]).bind fun st₁ =>
        (stage2Run bootKvSectors echoEd25519 [] st₁
          [.frame ⟨recoveryCmdFloor, [1, 0, 0, 0]⟩ 0]).map fun st₂ =>
            (floorGet bootKvSectors.storage st₁.dev.mem,
              floorGet bootKvSectors.storage st₂.dev.mem)) = some (5, 1) := by
    decide +kernel
  simp only [Option.bind_eq_some_iff, Option.map_eq_some_iff, Prod.mk.injEq] at hfloors
  obtain ⟨st₁, hrun₁, st₂, hrun₂, hfive, hone⟩ := hfloors
  have hle := (hmono _ _ [] st₁ st₂ rfl hrun₁ hrun₂).1
  rw [hfive, hone] at hle
  exact absurd hle (by decide)

end NavHAL.Boot
