import NavHAL.Boot.Targets
import NavHAL.Flash.Calls

/-!
# What a session may change

`Confined` says where a session of the frame server has written, and when.
It holds of every session, apart from the bytes that the target's own
`floor_set` changes.

* `session_confined` : every session on a target made of whole sectors is
  confined to its partition and to what `floor_set` changes;
* `floor_frame_leaves_partition` : a FLOOR frame to stage-2 writes outside the
  application's partition.
-/

namespace NavHAL.Boot

open Bytes Memory Flash

/-! ## Confinement -/

def UpdaterEvent.eraseCalls : UpdaterEvent → Option (List (UInt8 × HalStatus))
  | .erase calls => some calls
  | _ => none

/-- The calls of the last ERASE of a session. -/
def lastErase (events : List UpdaterEvent) : Option (List (UInt8 × HalStatus)) :=
  (events.filterMap UpdaterEvent.eraseCalls).getLast?

/-- The calls of an ERASE in which every sector was erased. -/
def UpdaterTarget.allErased (tgt : UpdaterTarget) : List (UInt8 × HalStatus) :=
  tgt.sectors.map fun sector => (sector, .ok)

/-- From `mem` to `mem'` only the partition and `other` changed; every program
lay in the partition, every erase was of a listed sector, and before every
program the last ERASE erased all of them. -/
structure Confined (tgt : UpdaterTarget) (other : Nat → Prop) (mem mem' : Mem)
    (events : List UpdaterEvent) : Prop where
  bytes : ChangesWithin (fun x => tgt.Owns x ∨ other x) mem mem'
  programs : ∀ addr n status, .program addr n status ∈ events →
    tgt.base.toNat ≤ addr.toNat ∧ addr.toNat + n ≤ tgt.base.toNat + tgt.size.toNat
  erases : ∀ calls, .erase calls ∈ events → ∀ call ∈ calls, call.1 ∈ tgt.sectors
  opened : ∀ before after addr n status, events = before ++ .program addr n status :: after →
    lastErase before = some tgt.allErased

/-- A byte that some call of the target's `floor_set` changes. -/
def UpdaterTarget.FloorByte (tgt : UpdaterTarget) (x : Nat) : Prop :=
  ∃ floorSet dev version ok dev', tgt.floorSet = some floorSet ∧
    floorSet dev version = some (ok, dev') ∧ dev'.mem x ≠ dev.mem x

/-- Nothing but `region` changes when the target's `floor_set` is called. -/
def UpdaterTarget.FloorWithin (tgt : UpdaterTarget) (region : Nat → Prop) : Prop :=
  ∀ floorSet, tgt.floorSet = some floorSet → ∀ dev version ok dev',
    floorSet dev version = some (ok, dev') → ChangesWithin region dev.mem dev'.mem

theorem floorWithin_floorByte (tgt : UpdaterTarget) : tgt.FloorWithin tgt.FloorByte := by
  intro floorSet hset dev version ok dev' hcall x hx
  exact Decidable.byContradiction fun hne => hx ⟨floorSet, dev, version, ok, dev', hset, hcall, hne⟩

theorem lastErase_concat (events : List UpdaterEvent) (e : UpdaterEvent) :
    lastErase (events ++ [e]) = e.eraseCalls.or (lastErase events) := by
  unfold lastErase
  rw [List.filterMap_append]
  cases h : e.eraseCalls with
  | none => simp [h]
  | some calls => simp [h]

section Steps

variable {c : KvSectors} {tgt : UpdaterTarget} {other : Nat → Prop} {mem : Mem}

theorem Confined.refl (mem : Mem) : Confined tgt other mem mem [] where
  bytes := .refl _ _
  programs := by simp
  erases := by simp
  opened := by simp

/-- One more event. -/
theorem Confined.emit {mem₁ mem₂ : Mem} {events : List UpdaterEvent} {e : UpdaterEvent}
    (h : Confined tgt other mem mem₁ events)
    (hbytes : ChangesWithin (fun x => tgt.Owns x ∨ other x) mem₁ mem₂)
    (hprogram : ∀ addr n status, e = .program addr n status →
      (tgt.base.toNat ≤ addr.toNat ∧ addr.toNat + n ≤ tgt.base.toNat + tgt.size.toNat) ∧
        lastErase events = some tgt.allErased)
    (herase : ∀ calls, e = .erase calls → ∀ call ∈ calls, call.1 ∈ tgt.sectors) :
    Confined tgt other mem mem₂ (events ++ [e]) where
  bytes := h.bytes.trans hbytes
  programs := by
    intro addr n status hmem
    rcases List.mem_append.mp hmem with hold | hnew
    · exact h.programs addr n status hold
    · exact (hprogram addr n status (List.mem_singleton.mp hnew).symm).1
  erases := by
    intro calls hmem
    rcases List.mem_append.mp hmem with hold | hnew
    · exact h.erases calls hold
    · exact herase calls (List.mem_singleton.mp hnew).symm
  opened := by
    intro before after addr n status hsplit
    rcases List.eq_nil_or_concat after with rfl | ⟨init, last, rfl⟩
    · obtain ⟨rfl, hlast⟩ := List.append_inj' hsplit rfl
      exact (hprogram addr n status (List.singleton_inj.mp hlast)).2
    · rw [List.concat_eq_append, ← List.cons_append, ← List.append_assoc] at hsplit
      exact h.opened before init addr n status (List.append_inj' hsplit rfl).1

/-- The invariant of a session: confined so far, and open for writing only
behind an ERASE that erased everything. -/
structure SessionOk (tgt : UpdaterTarget) (other : Nat → Prop) (mem : Mem) (st : UpdaterState) :
    Prop where
  confined : Confined tgt other mem st.dev.mem st.events
  erased : st.erased = true → lastErase st.events = some tgt.allErased

theorem SessionOk.reply {st : UpdaterState} (h : SessionOk tgt other mem st) (status code : UInt8) :
    SessionOk tgt other mem (st.reply status code) where
  confined := h.confined.emit (.refl _ _) (by simp) (by simp)
  erased := by
    intro herased
    rw [UpdaterState.reply, UpdaterState.emit, lastErase_concat]
    exact h.erased herased

theorem SessionOk.reset {st : UpdaterState} (h : SessionOk tgt other mem st) :
    SessionOk tgt other mem (st.emit .reset) where
  confined := h.confined.emit (.refl _ _) (by simp) (by simp)
  erased := by
    intro herased
    rw [UpdaterState.emit, lastErase_concat]
    exact h.erased herased

/-! ### Erase -/

/-- The erase loop asks for listed sectors only, changes nothing else, and
reports no error only when all of them were erased. -/
theorem eraseSectors_spec (c : KvSectors) (sectors : List UInt8) :
    ∀ dev : FlashDev,
      ((eraseSectors c sectors dev).1 = recoveryErrNone →
        (eraseSectors c sectors dev).2.1 = sectors.map fun sector => (sector, .ok)) ∧
      (∀ call ∈ (eraseSectors c sectors dev).2.1, call.1 ∈ sectors) ∧
      ChangesWithin (fun x => ∃ sector ∈ sectors, InSector sector.toNat x) dev.mem
        (eraseSectors c sectors dev).2.2.mem := by
  induction sectors with
  | nil =>
    intro dev
    exact ⟨fun _ => rfl, by simp [eraseSectors], .refl _ _⟩
  | cons sector sectors ih =>
    intro dev
    have hwithin := halFlashRawEraseSector_within c dev sector
    rw [eraseSectors]
    split
    · next dev₁ herase =>
      rw [herase] at hwithin
      obtain ⟨hall, hlisted, hrest⟩ := ih dev₁
      dsimp only
      refine ⟨?_, ?_, ?_⟩
      · intro herr
        rw [hall herr, List.map_cons]
      · intro call hcall
        rcases List.mem_cons.mp hcall with rfl | hcall
        · exact List.mem_cons_self
        · exact List.mem_cons_of_mem _ (hlisted call hcall)
      · refine (hwithin.mono ?_).trans (hrest.mono ?_)
        · intro x hx
          exact ⟨sector, List.mem_cons_self, hx⟩
        · rintro x ⟨s, hs, hx⟩
          exact ⟨s, List.mem_cons_of_mem _ hs, hx⟩
    · next status dev₁ hstatus herase =>
      rw [herase] at hwithin
      refine ⟨?_, ?_, hwithin.mono ?_⟩
      · intro herr
        cases herr
      · intro call hcall
        rw [List.mem_singleton.mp hcall]
        exact List.mem_cons_self
      · intro x hx
        exact ⟨sector, List.mem_cons_self, hx⟩

theorem SessionOk.erase {st : UpdaterState} (htiled : tgt.Tiled) (h : SessionOk tgt other mem st) :
    SessionOk tgt other mem (serveErase c tgt st) := by
  obtain ⟨hall, hlisted, hwithin⟩ := eraseSectors_spec c tgt.sectors st.dev
  have hconfined := h.confined.emit (e := .erase (eraseSectors c tgt.sectors st.dev).2.1)
    (hwithin.mono fun x hx => Or.inl ((htiled.tiles x).mpr hx)) (by simp)
    (by simpa using hlisted)
  constructor
  · exact hconfined.emit (.refl _ _) (by simp) (by simp)
  · intro herased
    have herr : (eraseSectors c tgt.sectors st.dev).1 = recoveryErrNone := by
      simpa [serveErase] using herased
    simp only [serveErase, UpdaterState.reply, UpdaterState.emit, lastErase_concat]
    exact congrArg some (hall herr)

/-! ### Write -/

/-- A write either leaves the session alone or programs within the partition,
with the session open. -/
theorem doWrite_cases (htiled : tgt.Tiled) (st : UpdaterState) (payload : List UInt8) :
    (doWrite c tgt st payload).2 = st ∨
    ∃ addr data status dev, (doWrite c tgt st payload).2 =
        { st with dev := dev }.emit (.program addr (List.length data) status) ∧
      st.erased = true ∧
      tgt.base.toNat ≤ addr.toNat ∧
      addr.toNat + data.length ≤ tgt.base.toNat + tgt.size.toNat ∧
      halFlashRawProgram c st.dev addr data = (status, dev) := by
  unfold doWrite
  split
  · exact Or.inl rfl
  · next hlen =>
    split
    · exact Or.inl rfl
    · next hopen =>
      split
      · next b0 b1 b2 b3 data =>
        dsimp only
        split
        · exact Or.inl rfl
        · next hrange =>
          right
          have hdata : (UInt32.ofNat data.length).toNat = data.length := by
            simp only [List.length_cons, recoveryMaxPayload] at hlen
            rw [UInt32.toNat_ofNat']
            omega
          rw [not_or, UInt32.not_lt, UInt32.not_lt, UInt32.le_iff_toNat_le,
            UInt32.le_iff_toNat_le, hdata] at hrange
          obtain ⟨hoff, hn⟩ := hrange
          rw [UInt32.toNat_sub_of_le _ _ (UInt32.le_iff_toNat_le.mpr hoff)] at hn
          simp only [List.length_cons] at hlen
          have hstop := htiled.stop_lt (by omega)
          have haddr : (tgt.base + ofLe32 b0 b1 b2 b3).toNat =
              tgt.base.toNat + (ofLe32 b0 b1 b2 b3).toNat := by
            rw [UInt32.toNat_add, Nat.mod_eq_of_lt (by omega)]
          refine ⟨_, data, _, _, rfl, by simpa using hopen, ?_, ?_, rfl⟩
          · rw [haddr]
            exact Nat.le_add_right _ _
          · rw [haddr]
            omega
      · exact Or.inl rfl

theorem SessionOk.write {st : UpdaterState} (htiled : tgt.Tiled) (h : SessionOk tgt other mem st)
    (payload : List UInt8) : SessionOk tgt other mem (serveWrite c tgt st payload) := by
  unfold serveWrite
  dsimp only
  apply SessionOk.reply
  rcases doWrite_cases (c := c) htiled st payload with hsame |
    ⟨addr, data, status, dev, hprogram, hopen, hlow, hhigh, hcall⟩
  · rw [hsame]
    exact h
  · have hwithin := halFlashRawProgram_within c st.dev addr data
    rw [hcall] at hwithin
    rw [hprogram]
    constructor
    · apply h.confined.emit
      · apply hwithin.mono
        rintro x ⟨hx, hx'⟩
        exact Or.inl ⟨by omega, by omega⟩
      · rintro addr' n' status' ⟨⟩
        exact ⟨⟨hlow, hhigh⟩, h.erased hopen⟩
      · simp
    · intro _
      simp only [UpdaterState.emit, lastErase_concat]
      exact h.erased hopen

/-! ### The session -/

theorem SessionOk.verify {st : UpdaterState} (h : SessionOk tgt other mem st) :
    SessionOk tgt other mem (serveVerify tgt st) := by
  unfold serveVerify
  split
  · exact h.reply _ _
  · split
    · split
      · exact h.reply _ _
      · exact h.reply _ _
    · exact h.reply _ _

theorem SessionOk.run {st : UpdaterState} (h : SessionOk tgt other mem st) :
    SessionOk tgt other mem (serveRun tgt st) := by
  unfold serveRun
  split
  · exact h.reply _ _
  · apply SessionOk.reset
    apply SessionOk.reply
    exact ⟨h.confined, h.erased⟩

/-- What changes outside the partition only. -/
theorem SessionOk.elsewhere {st : UpdaterState} {dev : FlashDev} (h : SessionOk tgt other mem st)
    (hwithin : ChangesWithin other st.dev.mem dev.mem) :
    SessionOk tgt other mem { st with dev := dev } where
  confined :=
    { h.confined with bytes := h.confined.bytes.trans (hwithin.mono fun _ hx => Or.inr hx) }
  erased := h.erased

theorem SessionOk.floor {st st' : UpdaterState} {payload : List UInt8}
    (hfloor : tgt.FloorWithin other) (h : SessionOk tgt other mem st)
    (hserve : serveFloor tgt st payload = some st') : SessionOk tgt other mem st' := by
  unfold serveFloor at hserve
  split at hserve
  · cases hserve
    exact h.reply _ _
  · next floorSet b0 b1 b2 b3 hset =>
    split at hserve
    · next dev hcall =>
      cases hserve
      exact (h.elsewhere (hfloor floorSet hset _ _ _ _ hcall)).reply _ _
    · next dev hcall =>
      cases hserve
      exact (h.elsewhere (hfloor floorSet hset _ _ _ _ hcall)).reply _ _
    · cases hserve
  · cases hserve
    exact h.reply _ _

/-- Every frame keeps the invariant. -/
theorem SessionOk.frame {st st' : UpdaterState} {f : Frame} (htiled : tgt.Tiled)
    (hfloor : tgt.FloorWithin other) (h : SessionOk tgt other mem st)
    (hserve : serveFrame c tgt st f = some st') : SessionOk tgt other mem st' := by
  rcases serveFrame_cases hserve with ⟨status, code, rfl⟩ | rfl | rfl | rfl | ⟨-, hset⟩ | rfl
  · exact h.reply _ _
  · exact h.erase htiled
  · exact h.write htiled _
  · exact h.verify
  · exact h.floor hfloor hset
  · exact h.run

end Steps

/-- The invariant holds at the end of every session. -/
theorem sessionOk_updaterServe (c : KvSectors) {tgt : UpdaterTarget} {other : Nat → Prop}
    (s : Input) (dev : FlashDev) (boot : BootState) (htiled : tgt.Tiled)
    (hfloor : tgt.FloorWithin other) :
    SessionOk tgt other dev.mem (updaterServe c tgt s dev boot) := by
  unfold updaterServe
  apply serveFrom_induction
  · intro st h
    exact h.reply _ _
  · intro st f st' _ h hserve
    exact h.frame htiled hfloor hserve
  · exact ⟨.refl _, by simp⟩

/-- **A session is confined.**  Whatever the transport delivers, what the
server programs and erases lies in the target's partition, and it programs
only behind an ERASE of all its sectors.  The only other bytes to change are
those that `floor_set` changes. -/
theorem session_confined (c : KvSectors) (tgt : UpdaterTarget) (s : Input) (dev : FlashDev)
    (boot : BootState) (htiled : tgt.Tiled) :
    Confined tgt tgt.FloorByte dev.mem (updaterServe c tgt s dev boot).dev.mem
      (updaterServe c tgt s dev boot).events :=
  (sessionOk_updaterServe c s dev boot htiled (floorWithin_floorByte tgt)).confined

/-- What a transport delivers when these frames are sent whole. -/
def wire (frames : List Frame) : Input := (frames.flatMap Frame.encode).map some

/-- The boot module of a board whose block was never sealed. -/
def freshBoot : BootState := { block := ⟨0, 0, 0, 0⟩ }

/-- An ERASE and a WRITE to stage-1. -/
theorem stage2_update_confined :
    let tgt := stage2Target echoEd25519 []
    let st := updaterServe bootKvSectors tgt
      (wire [⟨recoveryCmdErase, []⟩, ⟨recoveryCmdWrite, [2, 0, 0, 0, 0xAB, 0xCD]⟩]) blankDev freshBoot
    Confined tgt tgt.FloorByte blankDev.mem st.dev.mem st.events ∧
      st.events = [.erase [(4, .ok)], .reply recoveryAck recoveryErrNone,
        .program 0x08010002 2 .ok, .reply recoveryAck recoveryErrNone] := by
  constructor
  · apply session_confined
    exact stage2Target_tiled _ _
  · decide +kernel

/-- A FLOOR frame to stage-2 writes a record into the key/value store. -/
theorem floor_frame_leaves_partition :
    let tgt := appTarget bootKvSectors.storage echoEd25519 [] 0
    let st := updaterServe bootKvSectors tgt (wire [⟨recoveryCmdFloor, [1, 0, 0, 0]⟩]) blankDev
      freshBoot
    tgt.Tiled ∧ ¬ Confined tgt (fun _ => False) blankDev.mem st.dev.mem st.events := by
  refine ⟨appTarget_tiled _ _ _ _, ?_⟩
  intro hconfined
  have hbyte := hconfined.bytes 0x08008000 (by
    rintro (⟨hlow, -⟩ | hno)
    · exact absurd hlow (by decide)
    · exact hno)
  exact absurd hbyte (by decide +kernel)

end NavHAL.Boot
