import NavHAL.Status
import NavHAL.Lib.Matcher

/-!
# The boot block and the console watcher (`hal_boot.c`)

The block survives a warm reset; the watcher's position and the entry flag do
not.  What a call does to the outside is kept in `events`: every rewrite of
the block, every `hal_boot_request`, the prepare callback and the reset.  As
on a reset that does not take, `hal_system_reset` returns.
-/

namespace NavHAL.Boot

/-! ## The block -/

def halBootMagic : UInt32 := 0xB007C0DE
def halBootReqNone : UInt32 := 0
def halBootReqLoader : UInt32 := 0x10ADED00
def halBootReqStage1 : UInt32 := 0x10ADED01
def halBootMaxAttempts : UInt32 := 3

/-- `hal_boot_block_t` -/
structure BootBlock where
  magic : UInt32
  request : UInt32
  attempts : UInt32
  check : UInt32
  deriving DecidableEq, Repr

/-- `block_check` -/
def blockCheck (magic request attempts : UInt32) : UInt32 :=
  magic ^^^ request ^^^ attempts ^^^ 0xA5A5A5A5

/-- `block_seal` -/
def blockSeal (request attempts : UInt32) : BootBlock where
  magic := halBootMagic
  request := request
  attempts := attempts
  check := blockCheck halBootMagic request attempts

/-- `hal_boot_block_valid` -/
def BootBlock.valid (block : BootBlock) : Bool :=
  block.magic == halBootMagic &&
    block.check == blockCheck block.magic block.request block.attempts

/-- `hal_boot_get_request` -/
def halBootGetRequest (block : BootBlock) : UInt32 :=
  if block.valid then block.request else halBootReqNone

/-- `hal_boot_get_attempts` -/
def halBootGetAttempts (block : BootBlock) : UInt32 :=
  if block.valid then block.attempts else 0

@[simp] theorem blockSeal_valid (request attempts : UInt32) :
    (blockSeal request attempts).valid = true := by
  simp [BootBlock.valid, blockSeal]

@[simp] theorem blockSeal_getRequest (request attempts : UInt32) :
    halBootGetRequest (blockSeal request attempts) = request := by
  rw [halBootGetRequest, if_pos (blockSeal_valid _ _)]
  rfl

@[simp] theorem blockSeal_getAttempts (request attempts : UInt32) :
    halBootGetAttempts (blockSeal request attempts) = attempts := by
  rw [halBootGetAttempts, if_pos (blockSeal_valid _ _)]
  rfl

/-- Neither of the states uninitialised SRAM is likely to be found in is valid. -/
example : (BootBlock.mk 0 0 0 0).valid = false ∧
    (BootBlock.mk 0xFFFFFFFF 0xFFFFFFFF 0xFFFFFFFF 0xFFFFFFFF).valid = false := by decide

/-! ## The module's state -/

inductive BootEvent
  | request
  | seal (block : BootBlock)
  | prepare
  | reset
  deriving DecidableEq, Repr

/-- `_sboot`, `s_pos`, `s_entry_disabled` and whether `s_prepare` is set. -/
structure BootState where
  block : BootBlock
  pos : Nat := 0
  entryDisabled : Bool := false
  prepare : Bool := false
  events : List BootEvent := []

/-- Rewrite the block. -/
def BootState.seal (st : BootState) (request attempts : UInt32) : BootState :=
  { st with
    block := blockSeal request attempts
    events := st.events ++ [.seal (blockSeal request attempts)] }

/-- `hal_boot_block_init` -/
def halBootBlockInit (st : BootState) : HalStatus × BootState :=
  if st.block.valid then (.ok, st) else (.ok, st.seal halBootReqNone 0)

/-- `hal_boot_clear_request` -/
def halBootClearRequest (st : BootState) : HalStatus × BootState :=
  if st.block.valid then (.ok, st.seal halBootReqNone st.block.attempts)
  else (.errNotInitialized, st)

/-- `hal_boot_account_attempt` -/
def halBootAccountAttempt (st : BootState) : HalStatus × BootState :=
  if st.block.valid then
    let a := st.block.attempts
    (.ok, st.seal st.block.request (if a < 0xFFFFFFFF then a + 1 else a))
  else (.errNotInitialized, st)

/-- `hal_boot_mark_healthy` -/
def halBootMarkHealthy (st : BootState) : HalStatus × BootState :=
  if st.block.valid then (.ok, st.seal st.block.request 0) else (.errNotInitialized, st)

/-! ## Entry policy -/

/-- `hal_boot_entry_disable` -/
def halBootEntryDisable (st : BootState) : BootState := { st with entryDisabled := true }

/-- `hal_boot_entry_enable` -/
def halBootEntryEnable (st : BootState) : BootState := { st with entryDisabled := false }

/-- What follows the seal: the prepare callback when one is set, then the reset. -/
def afterSeal (prepare : Bool) : List BootEvent :=
  (if prepare then [.prepare] else []) ++ [.reset]

/-- `hal_boot_request_target` -/
def halBootRequestTarget (st : BootState) (request : UInt32) : HalStatus × BootState :=
  if st.entryDisabled then (.errBusy, st)
  else if request ≠ halBootReqLoader ∧ request ≠ halBootReqStage1 then (.errInvalidArg, st)
  else
    let st := st.seal request (halBootGetAttempts st.block)
    (.err, { st with events := st.events ++ afterSeal st.prepare })

/-- `hal_boot_request` -/
def halBootRequest (st : BootState) : HalStatus × BootState :=
  halBootRequestTarget { st with events := st.events ++ [.request] } halBootReqLoader

/-! ## The watcher -/

/-- `hal_boot_seq` -/
def halBootSeq : List UInt8 := [0xB0, 0x07, 0xC0, 0xDE, 0xA5, 0x3C, 0x69, 0x96]

/-- `hal_boot_match_reset` -/
def halBootMatchReset (st : BootState) : BootState := { st with pos := 0 }

/-- `hal_boot_match_byte` -/
def halBootMatchByte (st : BootState) (b : UInt8) : BootState :=
  if halBootSeq[st.pos]? = some b then
    if st.pos + 1 = halBootSeq.length then (halBootRequest { st with pos := 0 }).2
    else { st with pos := st.pos + 1 }
  else { st with pos := if halBootSeq[0]? = some b then 1 else 0 }

/-- `hal_boot_feed`; the bytes carry their length, `none` is a null pointer. -/
def halBootFeed (st : BootState) : Option (List UInt8) → BootState
  | none => st
  | some data => data.foldl halBootMatchByte st

/-- The watcher is the general matcher with a request where it fires. -/
theorem halBootMatchByte_eq (st : BootState) (b : UInt8) :
    halBootMatchByte st b =
      if (Matcher.resync halBootSeq st.pos b).2 = true then
        (halBootRequest { st with pos := (Matcher.resync halBootSeq st.pos b).1 }).2
      else { st with pos := (Matcher.resync halBootSeq st.pos b).1 } := by
  unfold halBootMatchByte Matcher.resync
  split
  · split
    · rfl
    · rfl
  · rfl

theorem halBootSeq_nodup : halBootSeq.Nodup := by decide

end NavHAL.Boot
