import NavHAL.Boot.Watcher

/-!
# Stage-1's decision and the crashloop bound

`stage1Main` is the boot decision of `boot/stage1/main.c` up to the jump or
the recovery session.  A run is a list of boots: what the verifier says on
each, and what the running image does to the boot block before the next warm
reset.

* `jumps_bounded` : without a mark-healthy, stage-1 hands over at most as often
  as attempts are left, and every boot after that enters recovery.
-/

namespace NavHAL.Boot

/-! ## The decision -/

/-- Why stage-1 enters recovery. -/
inductive RecoveryReason
  | requested
  | crashloop
  | unverified
  deriving DecidableEq, Repr

inductive Stage1Outcome
  | recovery (why : RecoveryReason)
  | jump
  deriving DecidableEq, Repr

/-- `main` of stage-1; `verified` is what `boot_image_is_good` says of stage-2. -/
def stage1Main (st : BootState) (verified : Bool) : Stage1Outcome × BootState :=
  let st := (halBootBlockInit st).2
  if halBootGetRequest st.block = halBootReqStage1 then
    (.recovery .requested, (halBootClearRequest st).2)
  else if halBootMaxAttempts ≤ halBootGetAttempts st.block then (.recovery .crashloop, st)
  else if verified = false then (.recovery .unverified, st)
  else (.jump, (halBootAccountAttempt st).2)

/-! ## Runs -/

/-- What a running image may do to the block, `hal_boot_mark_healthy` apart. -/
inductive ImageOp
  | watch (call : WatcherCall)
  | matchReset
  | requestTarget (request : UInt32)
  | blockInit
  | clearRequest
  | accountAttempt

def imageOp (st : BootState) : ImageOp → BootState
  | .watch call => watcherStep st call
  | .matchReset => halBootMatchReset st
  | .requestTarget request => (halBootRequestTarget st request).2
  | .blockInit => (halBootBlockInit st).2
  | .clearRequest => (halBootClearRequest st).2
  | .accountAttempt => (halBootAccountAttempt st).2

/-- One boot, from reset to reset. -/
structure BootCycle where
  verified : Bool
  ops : List ImageOp

/-- The block is in `.noinit`; everything else starts over, in stage-1 and
again in the image it hands over to. -/
def bootOnce (block : BootBlock) (boot : BootCycle) : Stage1Outcome × BootBlock :=
  let decided := stage1Main { block := block } boot.verified
  (decided.1, (boot.ops.foldl imageOp { block := decided.2.block }).block)

def bootBlockAfter (block : BootBlock) (boots : List BootCycle) : BootBlock :=
  boots.foldl (fun block boot => (bootOnce block boot).2) block

def outcomes (block : BootBlock) : List BootCycle → List Stage1Outcome
  | [] => []
  | boot :: boots => (bootOnce block boot).1 :: outcomes (bootOnce block boot).2 boots

/-! ## The attempt count never falls -/

/-- Valid, with at least the attempts of `block`. -/
def AtLeast (block block' : BootBlock) : Prop :=
  block'.valid = true ∧ block.attempts ≤ block'.attempts

theorem AtLeast.trans {a b c : BootBlock} (hab : AtLeast a b) (hbc : AtLeast b c) : AtLeast a c :=
  ⟨hbc.1, UInt32.le_trans hab.2 hbc.2⟩

section Ops

variable {st : BootState}

theorem atLeast_self (h : st.block.valid = true) : AtLeast st.block st.block :=
  ⟨h, UInt32.le_refl _⟩

theorem atLeast_seal (request : UInt32) {attempts : UInt32} (h : st.block.attempts ≤ attempts) :
    AtLeast st.block (st.seal request attempts).block := ⟨blockSeal_valid _ _, h⟩

theorem blockInit_atLeast (h : st.block.valid = true) :
    AtLeast st.block (halBootBlockInit st).2.block := by
  rw [halBootBlockInit, if_pos h]
  exact atLeast_self h

theorem clearRequest_atLeast (h : st.block.valid = true) :
    AtLeast st.block (halBootClearRequest st).2.block := by
  rw [halBootClearRequest, if_pos h]
  exact atLeast_seal _ (UInt32.le_refl _)

theorem accountAttempt_atLeast (h : st.block.valid = true) :
    AtLeast st.block (halBootAccountAttempt st).2.block := by
  rw [halBootAccountAttempt, if_pos h]
  apply atLeast_seal
  split
  · next hlt =>
    rw [UInt32.lt_iff_toNat_lt] at hlt
    rw [UInt32.le_iff_toNat_le, UInt32.toNat_add]
    have hmax : (0xFFFFFFFF : UInt32).toNat = 4294967295 := rfl
    have hone : (1 : UInt32).toNat = 1 := rfl
    omega
  · exact UInt32.le_refl _

theorem requestTarget_atLeast (h : st.block.valid = true) (request : UInt32) :
    AtLeast st.block (halBootRequestTarget st request).2.block := by
  unfold halBootRequestTarget
  split
  · exact atLeast_self h
  · split
    · exact atLeast_self h
    · have hattempts : halBootGetAttempts st.block = st.block.attempts := by
        rw [halBootGetAttempts, if_pos h]
      apply atLeast_seal
      rw [hattempts]
      exact UInt32.le_refl _

theorem request_atLeast (h : st.block.valid = true) :
    AtLeast st.block (halBootRequest st).2.block := by
  unfold halBootRequest
  apply requestTarget_atLeast
  exact h

theorem matchByte_atLeast (h : st.block.valid = true) (b : UInt8) :
    AtLeast st.block (halBootMatchByte st b).block := by
  rw [halBootMatchByte_eq]
  split
  · apply request_atLeast
    exact h
  · exact atLeast_self h

theorem feed_atLeast (data : List UInt8) :
    ∀ {st : BootState}, st.block.valid = true →
      AtLeast st.block (data.foldl halBootMatchByte st).block := by
  induction data with
  | nil =>
    intro st h
    exact atLeast_self h
  | cons b data ih =>
    intro st h
    have hbyte := matchByte_atLeast h b
    exact hbyte.trans (ih hbyte.1)

/-- One operation of the running image. -/
theorem imageOp_atLeast (h : st.block.valid = true) (op : ImageOp) :
    AtLeast st.block (imageOp st op).block := by
  cases op with
  | watch call =>
    cases call with
    | matchByte b => exact matchByte_atLeast h b
    | feed data =>
      cases data with
      | none => exact atLeast_self h
      | some data => exact feed_atLeast data h
    | entryDisable => exact atLeast_self h
    | entryEnable => exact atLeast_self h
  | matchReset => exact atLeast_self h
  | requestTarget request => exact requestTarget_atLeast h request
  | blockInit => exact blockInit_atLeast h
  | clearRequest => exact clearRequest_atLeast h
  | accountAttempt => exact accountAttempt_atLeast h

theorem imageOps_atLeast (ops : List ImageOp) :
    ∀ {st : BootState}, st.block.valid = true → AtLeast st.block (ops.foldl imageOp st).block := by
  induction ops with
  | nil =>
    intro st h
    exact atLeast_self h
  | cons op ops ih =>
    intro st h
    have hop := imageOp_atLeast h op
    exact hop.trans (ih hop.1)

end Ops

/-! ## One boot -/

variable {block : BootBlock}

/-- The decision keeps the count, and a jump adds one below the limit. -/
theorem stage1Main_spec (h : block.valid = true) (verified : Bool) :
    AtLeast block (stage1Main { block := block } verified).2.block ∧
      ((stage1Main { block := block } verified).1 = .jump →
        block.attempts.toNat < halBootMaxAttempts.toNat ∧
          (stage1Main { block := block } verified).2.block.attempts.toNat =
            block.attempts.toNat + 1) := by
  have hinit : (halBootBlockInit { block := block }).2 = { block := block } := by
    rw [halBootBlockInit, if_pos h]
  have hattempts : halBootGetAttempts block = block.attempts := by
    rw [halBootGetAttempts, if_pos h]
  unfold stage1Main
  rw [hinit]
  dsimp only
  split
  · exact ⟨clearRequest_atLeast h, fun hjump => by cases hjump⟩
  · split
    · exact ⟨atLeast_self h, fun hjump => by cases hjump⟩
    · next hfew =>
      split
      · exact ⟨atLeast_self h, fun hjump => by cases hjump⟩
      · refine ⟨accountAttempt_atLeast h, fun _ => ?_⟩
        rw [hattempts, UInt32.le_iff_toNat_le] at hfew
        have hmax : halBootMaxAttempts.toNat = 3 := rfl
        have hlt : block.attempts < 0xFFFFFFFF := by
          rw [UInt32.lt_iff_toNat_lt]
          exact Nat.lt_trans (Nat.lt_of_not_le hfew) (by decide)
        refine ⟨Nat.lt_of_not_le hfew, ?_⟩
        rw [halBootAccountAttempt, if_pos h]
        simp only [BootState.seal, blockSeal, if_pos hlt]
        rw [UInt32.toNat_add]
        have hone : (1 : UInt32).toNat = 1 := rfl
        omega

theorem bootOnce_spec (h : block.valid = true) (boot : BootCycle) :
    AtLeast block (bootOnce block boot).2 ∧
      ((bootOnce block boot).1 = .jump → block.attempts.toNat < halBootMaxAttempts.toNat ∧
        block.attempts.toNat < (bootOnce block boot).2.attempts.toNat) := by
  obtain ⟨hdecided, hjump⟩ := stage1Main_spec h boot.verified
  have hops : AtLeast (stage1Main { block := block } boot.verified).2.block
      (bootOnce block boot).2 := by
    apply imageOps_atLeast
    exact hdecided.1
  refine ⟨hdecided.trans hops, ?_⟩
  intro hout
  obtain ⟨hfew, hcount⟩ := hjump hout
  have hle := UInt32.le_iff_toNat_le.mp hops.2
  refine ⟨hfew, ?_⟩
  rw [hcount] at hle
  exact hle

/-! ## Whole runs -/

theorem run_atLeast (boots : List BootCycle) :
    ∀ {block : BootBlock}, block.valid = true → AtLeast block (bootBlockAfter block boots) := by
  induction boots with
  | nil =>
    intro block h
    exact ⟨h, UInt32.le_refl _⟩
  | cons boot boots ih =>
    intro block h
    have hboot := (bootOnce_spec h boot).1
    exact hboot.trans (ih hboot.1)

theorem count_jumps (boots : List BootCycle) :
    ∀ {block : BootBlock}, block.valid = true →
      (outcomes block boots).count .jump ≤ halBootMaxAttempts.toNat - block.attempts.toNat := by
  induction boots with
  | nil =>
    intro block _
    exact Nat.zero_le _
  | cons boot boots ih =>
    intro block h
    obtain ⟨hboot, hjump⟩ := bootOnce_spec h boot
    have hrest := ih hboot.1
    have hle := UInt32.le_iff_toNat_le.mp hboot.2
    rw [outcomes, List.count_cons]
    split
    · next hout =>
      obtain ⟨hfew, hmore⟩ := hjump (eq_of_beq hout)
      omega
    · omega

theorem outcomes_append (boots boots' : List BootCycle) :
    ∀ block : BootBlock, outcomes block (boots ++ boots') =
      outcomes block boots ++ outcomes (bootBlockAfter block boots) boots' := by
  induction boots with
  | nil =>
    intro block
    rfl
  | cons boot boots ih =>
    intro block
    rw [List.cons_append, outcomes, ih, outcomes]
    rfl

/-- **A crashloop ends in recovery.**  From a valid block, stage-1 jumps at
most as often as attempts are left; once it has, the next boot enters
recovery, whatever came between; and the count never falls. -/
theorem jumps_bounded (block : BootBlock) (hvalid : block.valid = true) (boots : List BootCycle) :
    (outcomes block boots).count .jump ≤ halBootMaxAttempts.toNat - block.attempts.toNat ∧
      ((outcomes block boots).count .jump = halBootMaxAttempts.toNat - block.attempts.toNat →
        ∀ boot, ∃ why, (bootOnce (bootBlockAfter block boots) boot).1 = .recovery why) ∧
      block.attempts ≤ (bootBlockAfter block boots).attempts := by
  refine ⟨count_jumps boots hvalid, ?_, (run_atLeast boots hvalid).2⟩
  intro hspent boot
  have hnext := count_jumps (boots ++ [boot]) hvalid
  rw [outcomes_append, List.count_append, hspent] at hnext
  cases hout : (bootOnce (bootBlockAfter block boots) boot).1 with
  | recovery why => exact ⟨why, rfl⟩
  | jump =>
    have hone : (outcomes (bootBlockAfter block boots) [boot]).count .jump = 1 := by
      rw [outcomes, outcomes, hout]
      rfl
    omega

/-- Four boots of a crashing image, which asks for the loader in between. -/
theorem crashing_image_bounded :
    (outcomes (blockSeal halBootReqNone 1) [⟨true, [.requestTarget halBootReqLoader]⟩,
        ⟨true, [.clearRequest]⟩, ⟨true, []⟩, ⟨true, [.blockInit]⟩]).count .jump ≤ 2 :=
  (jumps_bounded (blockSeal halBootReqNone 1) (blockSeal_valid _ _) _).1

end NavHAL.Boot
