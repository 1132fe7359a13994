import NavHAL.Boot.Targets

/-!
# Stage-2's decision and the RUN command

`stage2Main` is the boot decision of `boot/stage2/main.c` up to the jump or
update mode.  A target's `bootAccepts` is the rule it applies to the image,
and `stage2Main_jump` says so.

* `run_agrees_iff` : RUN follows the boot path's rule except on an image that
  verifies and lies below the floor.
-/

namespace NavHAL.Boot

open Bytes Memory Flash

/-! ## The decision -/

/-- `HAL_BOOTMAP_APP_PAYLOAD` -/
def bootmapAppPayload : UInt32 := bootmapAppBase + bootmapHeaderSize

/-- Where stage-2 ends up: update mode, or jumped to. -/
inductive Stage2Outcome
  | updateMode (why : String)
  | jumpTo (payload : UInt32)
  deriving DecidableEq, Repr

/-- `main` of stage-2; `none` when raising the floor does not return. -/
def stage2Main (s : Storage) (ed : Ed25519) (bootPubkey : List UInt8) (reserved : UInt8)
    (dev : FlashDev) (boot : BootState) : Option (Stage2Outcome × FlashDev × BootState) :=
  let boot := (halBootBlockInit boot).2
  if halBootGetRequest boot.block = halBootReqLoader then
    some (.updateMode "requested", dev, (halBootClearRequest boot).2)
  else if bootImageIsGood ed bootPubkey dev.mem bootmapAppBase bootmapAppUsable = false then
    some (.updateMode "app did not verify", dev, boot)
  else
    let version := headerVersion dev.mem bootmapAppBase
    if floorOk s dev.mem version = false then
      some (.updateMode "app is older than the rollback floor", dev, boot)
    else if floorGet s dev.mem < version then
      match floorSet s reserved dev version with
      | some (_, dev) => some (.jumpTo bootmapAppPayload, dev, boot)
      | none => none
    else some (.jumpTo bootmapAppPayload, dev, boot)

/-! ## The rule for the image -/

/-- The image verifies and is not below the target's floor. -/
def UpdaterTarget.bootAccepts (tgt : UpdaterTarget) (mem : Mem) : Bool :=
  tgt.verify mem tgt.base tgt.maxBody &&
    match tgt.floorOk with
    | some floorOk => floorOk mem (headerVersion mem tgt.base)
    | none => true

/-- Where stage-2 jumps, the image was accepted, no loader was asked for, and
the floor is where it was or the save that raised it returned. -/
theorem stage2Main_jump {s : Storage} {ed : Ed25519} {pk : List UInt8} {reserved : UInt8}
    {dev dev' : FlashDev} {boot boot' : BootState} {payload : UInt32}
    (h : stage2Main s ed pk reserved dev boot = some (.jumpTo payload, dev', boot')) :
    halBootGetRequest (halBootBlockInit boot).2.block ≠ halBootReqLoader ∧
      (appTarget s ed pk reserved).bootAccepts dev.mem = true ∧
      floorGet s dev.mem ≤ headerVersion dev.mem bootmapAppBase ∧
      (dev' = dev ∧ floorGet s dev.mem = headerVersion dev.mem bootmapAppBase ∨
        ∃ ok, floorSet s reserved dev (headerVersion dev.mem bootmapAppBase) = some (ok, dev')) := by
  unfold stage2Main at h
  dsimp only at h
  split at h
  · cases h
  · next hrequest =>
    split at h
    · cases h
    · next hgood =>
      split at h
      · cases h
      · next hfloor =>
        have hle : floorGet s dev.mem ≤ headerVersion dev.mem bootmapAppBase := by
          simpa [floorOk] using hfloor
        have haccepts : (appTarget s ed pk reserved).bootAccepts dev.mem = true := by
          simpa [UpdaterTarget.bootAccepts, appTarget] using And.intro hgood hfloor
        refine ⟨hrequest, haccepts, hle, ?_⟩
        split at h
        · split at h
          · next ok dev₁ hset =>
            cases h
            exact Or.inr ⟨ok, hset⟩
          · cases h
        · next hraise =>
          cases h
          exact Or.inl ⟨rfl, UInt32.le_antisymm hle (UInt32.not_lt.mp hraise)⟩

/-- In update mode the flash is as it was. -/
theorem stage2Main_updateMode {s : Storage} {ed : Ed25519} {pk : List UInt8} {reserved : UInt8}
    {dev dev' : FlashDev} {boot boot' : BootState} {why : String}
    (h : stage2Main s ed pk reserved dev boot = some (.updateMode why, dev', boot')) :
    dev' = dev := by
  unfold stage2Main at h
  dsimp only at h
  split at h
  · cases h
    rfl
  · split at h
    · cases h
      rfl
    · split at h
      · cases h
        rfl
      · split at h
        · split at h
          · cases h
          · cases h
        · cases h

/-! ## RUN and VERIFY -/

/-- The server answers a frame with an acknowledgement. -/
def Acknowledged (c : KvSectors) (tgt : UpdaterTarget) (st : UpdaterState) (f : Frame) : Prop :=
  ∃ st' rest, serveFrame c tgt st f = some st' ∧
    st'.events = st.events ++ .reply recoveryAck recoveryErrNone :: rest

/-- RUN does what the next boot's own decision calls for, and what VERIFY
said it would. -/
structure RunAgrees (c : KvSectors) (tgt : UpdaterTarget) (st : UpdaterState)
    (payload : List UInt8) : Prop where
  accepted : tgt.bootAccepts st.dev.mem = true →
    ∃ st', serveFrame c tgt st ⟨recoveryCmdRun, payload⟩ = some st' ∧
      st'.events = st.events ++ [.reply recoveryAck recoveryErrNone, .reset] ∧
      halBootGetAttempts st'.boot.block = 0
  refused : tgt.bootAccepts st.dev.mem = false →
    ∃ st' code, serveFrame c tgt st ⟨recoveryCmdRun, payload⟩ = some st' ∧
      st'.events = st.events ++ [.reply recoveryNak code] ∧
      halBootGetAttempts st'.boot.block = halBootGetAttempts st.boot.block
  verify : Acknowledged c tgt st ⟨recoveryCmdRun, payload⟩ ↔
    Acknowledged c tgt st ⟨recoveryCmdVerify, payload⟩

/-- The image verifies and its version is below the target's floor. -/
def UpdaterTarget.SignedBelowFloor (tgt : UpdaterTarget) (mem : Mem) : Prop :=
  tgt.verify mem tgt.base tgt.maxBody = true ∧
    ∃ floorOk, tgt.floorOk = some floorOk ∧ floorOk mem (headerVersion mem tgt.base) = false

section Run

variable {c : KvSectors} {tgt : UpdaterTarget} {st : UpdaterState}

theorem serveFrame_run (payload : List UInt8) :
    serveFrame c tgt st ⟨recoveryCmdRun, payload⟩ = some (serveRun tgt st) := rfl

theorem serveFrame_verify (payload : List UInt8) :
    serveFrame c tgt st ⟨recoveryCmdVerify, payload⟩ = some (serveVerify tgt st) := rfl

theorem markHealthy_attempts (boot : BootState) :
    halBootGetAttempts (halBootMarkHealthy boot).2.block = 0 := by
  unfold halBootMarkHealthy
  split
  · exact blockSeal_getAttempts _ _
  · next hinvalid => exact if_neg hinvalid

/-- RUN looks at the signature only. -/
theorem acknowledged_run_iff (payload : List UInt8) :
    Acknowledged c tgt st ⟨recoveryCmdRun, payload⟩ ↔
      tgt.verify st.dev.mem tgt.base tgt.maxBody = true := by
  rw [Acknowledged, serveFrame_run]
  simp only [serveRun]
  cases tgt.verify st.dev.mem tgt.base tgt.maxBody with
  | false => simp [UpdaterState.reply, UpdaterState.emit, recoveryNak, recoveryAck]
  | true => simp [UpdaterState.reply, UpdaterState.emit]

/-- VERIFY applies the boot path's rule. -/
theorem acknowledged_verify_iff (payload : List UInt8) :
    Acknowledged c tgt st ⟨recoveryCmdVerify, payload⟩ ↔
      tgt.bootAccepts st.dev.mem = true := by
  rw [Acknowledged, serveFrame_verify]
  simp only [serveVerify, UpdaterTarget.bootAccepts]
  cases tgt.verify st.dev.mem tgt.base tgt.maxBody with
  | false => simp [UpdaterState.reply, UpdaterState.emit, recoveryNak, recoveryAck]
  | true =>
    cases tgt.floorOk with
    | none => simp [UpdaterState.reply, UpdaterState.emit]
    | some floorOk =>
      cases hok : floorOk st.dev.mem (headerVersion st.dev.mem tgt.base) with
      | false => simp [hok, UpdaterState.reply, UpdaterState.emit, recoveryNak, recoveryAck]
      | true => simp [hok, UpdaterState.reply, UpdaterState.emit]

theorem bootAccepts_iff {mem : Mem} :
    tgt.bootAccepts mem = true ↔
      tgt.verify mem tgt.base tgt.maxBody = true ∧ ¬ tgt.SignedBelowFloor mem := by
  unfold UpdaterTarget.bootAccepts UpdaterTarget.SignedBelowFloor
  cases tgt.verify mem tgt.base tgt.maxBody with
  | false => simp
  | true =>
    cases hfloor : tgt.floorOk with
    | none => simp
    | some floorOk => simp

/-- **When RUN agrees with the boot path.**  It fails to exactly on an image
that verifies and lies below the floor. -/
theorem run_agrees_iff (c : KvSectors) (tgt : UpdaterTarget) (st : UpdaterState)
    (payload : List UInt8) :
    RunAgrees c tgt st payload ↔ ¬ tgt.SignedBelowFloor st.dev.mem := by
  constructor
  · intro h hbelow
    have hrun := (acknowledged_run_iff (c := c) payload).mpr hbelow.1
    have haccepts := (acknowledged_verify_iff payload).mp (h.verify.mp hrun)
    exact (bootAccepts_iff.mp haccepts).2 hbelow
  · intro hnot
    have hrule : tgt.bootAccepts st.dev.mem = tgt.verify st.dev.mem tgt.base tgt.maxBody := by
      rw [Bool.eq_iff_iff, bootAccepts_iff]
      exact and_iff_left hnot
    refine ⟨?_, ?_, ?_⟩
    · intro haccepts
      rw [hrule] at haccepts
      refine ⟨_, serveFrame_run payload, ?_, ?_⟩
      · simp [serveRun, haccepts, UpdaterState.reply, UpdaterState.emit]
      · rw [serveRun, if_neg (by simp [haccepts])]
        exact markHealthy_attempts st.boot
    · intro hrefuses
      rw [hrule] at hrefuses
      refine ⟨_, recoveryErrVerify, serveFrame_run payload, ?_, ?_⟩
      · rw [serveRun, if_pos hrefuses]
        rfl
      · rw [serveRun, if_pos hrefuses]
        rfl
    · rw [acknowledged_run_iff, acknowledged_verify_iff, hrule]

end Run

/-! ## A signed image below the floor -/

/-- The application of version 1 with a one-byte body. -/
def oldImage : List UInt8 := (signedHeader echoEd25519 [] 1 [0xAA]).bytes ++ [0xAA]

/-- That image in flash, with the floor at 5 and two attempts on the count. -/
def oldImageState : UpdaterState where
  dev := match floorSet bootKvSectors.storage 0 { mem := fun _ => 0xFF } 5 with
    | some (_, dev) => { dev with mem := overlay dev.mem bootmapAppBase.toNat oldImage }
    | none => { mem := fun _ => 0xFF }
  boot := { block := blockSeal halBootReqNone 2 }

/-- RUN acknowledges it and clears the attempts; the boot path refuses it. -/
theorem run_ignores_floor :
    ¬ RunAgrees bootKvSectors (appTarget bootKvSectors.storage echoEd25519 [] 0) oldImageState
      [] := by
  intro h
  have hrefuses : (appTarget bootKvSectors.storage echoEd25519 [] 0).bootAccepts
      oldImageState.dev.mem = false := by decide +kernel
  obtain ⟨st', code, hserve, -, hattempts⟩ := h.refused hrefuses
  have hcleared : (serveFrame bootKvSectors (appTarget bootKvSectors.storage echoEd25519 [] 0)
      oldImageState ⟨recoveryCmdRun, []⟩).map (fun st => halBootGetAttempts st.boot.block) =
        some 0 := by decide +kernel
  rw [hserve, Option.map_some, hattempts] at hcleared
  exact absurd hcleared (by decide)

end NavHAL.Boot
