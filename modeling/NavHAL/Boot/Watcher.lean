import NavHAL.Boot.Block

/-!
# The watcher on whole streams

The bytes of a stream are cut into calls in any way, with the entry flag
switched between them.  `Seen` is all that the outcome may depend on: the
stream so far, the flag, the callback and the block.

* `watcher_exact` : every call does exactly what the occurrences of the sequence
  in the stream call for.
-/

namespace NavHAL.Boot

open Matcher

/-! ## Calls -/

inductive WatcherCall
  | matchByte (b : UInt8)
  | feed (data : Option (List UInt8))
  | entryDisable
  | entryEnable

def watcherStep (st : BootState) : WatcherCall → BootState
  | .matchByte b => halBootMatchByte st b
  | .feed data => halBootFeed st data
  | .entryDisable => halBootEntryDisable st
  | .entryEnable => halBootEntryEnable st

/-- The bytes a call hands over. -/
def WatcherCall.data : WatcherCall → List UInt8
  | .matchByte b => [b]
  | .feed data => data.getD []
  | .entryDisable | .entryEnable => []

def watcherRun (st : BootState) (calls : List WatcherCall) : BootState :=
  calls.foldl watcherStep st

/-! ## What the stream calls for -/

structure Seen where
  stream : List UInt8
  disabled : Bool
  prepare : Bool
  block : BootBlock

/-- The block after a byte: rewritten when it completes the sequence and entry
is enabled. -/
def Seen.byte (seen : Seen) (b : UInt8) : Seen :=
  { seen with
    stream := seen.stream ++ [b]
    block :=
      if halBootSeq <:+ seen.stream ++ [b] ∧ seen.disabled = false then
        blockSeal halBootReqLoader (halBootGetAttempts seen.block)
      else seen.block }

/-- The events of a byte: one request per occurrence, and behind it the seal
and the reset unless entry is disabled. -/
def Seen.byteEvents (seen : Seen) (b : UInt8) : List BootEvent :=
  if halBootSeq <:+ seen.stream ++ [b] then
    if seen.disabled then [.request]
    else .request :: .seal (blockSeal halBootReqLoader (halBootGetAttempts seen.block)) ::
      afterSeal seen.prepare
  else []

def Seen.bytes (seen : Seen) (data : List UInt8) : Seen := data.foldl Seen.byte seen

def Seen.bytesEvents : Seen → List UInt8 → List BootEvent
  | _, [] => []
  | seen, b :: data => seen.byteEvents b ++ (seen.byte b).bytesEvents data

def Seen.call (seen : Seen) : WatcherCall → Seen
  | .matchByte b => seen.byte b
  | .feed data => seen.bytes (data.getD [])
  | .entryDisable => { seen with disabled := true }
  | .entryEnable => { seen with disabled := false }

def Seen.callEvents (seen : Seen) : WatcherCall → List BootEvent
  | .matchByte b => seen.byteEvents b
  | .feed data => seen.bytesEvents (data.getD [])
  | .entryDisable | .entryEnable => []

def Seen.calls (seen : Seen) (calls : List WatcherCall) : Seen := calls.foldl Seen.call seen

/-- What has been seen when the matcher is reset. -/
def Seen.start (st : BootState) : Seen := ⟨[], st.entryDisabled, st.prepare, st.block⟩

/-! ## The state follows what was seen -/

structure Follows (st : BootState) (seen : Seen) : Prop where
  matched : Matched halBootSeq seen.stream st.pos
  disabled : st.entryDisabled = seen.disabled
  prepare : st.prepare = seen.prepare
  block : st.block = seen.block

variable {st : BootState} {seen : Seen}

theorem follows_start (h : st.pos = 0) : Follows st (Seen.start st) where
  matched := by
    rw [h]
    exact matched_nil (by decide)
  disabled := rfl
  prepare := rfl
  block := rfl

/-- `hal_boot_request` while entry is disabled. -/
theorem halBootRequest_disabled (h : st.entryDisabled = true) :
    (halBootRequest st).2 = { st with events := st.events ++ [.request] } := by
  simp [halBootRequest, halBootRequestTarget, h]

/-- `hal_boot_request` while it is not. -/
theorem halBootRequest_enabled (h : st.entryDisabled = false) :
    (halBootRequest st).2 = { st with
      block := blockSeal halBootReqLoader (halBootGetAttempts st.block)
      events := st.events ++ .request ::
        .seal (blockSeal halBootReqLoader (halBootGetAttempts st.block)) ::
          afterSeal st.prepare } := by
  simp [halBootRequest, halBootRequestTarget, h, BootState.seal]

/-- One byte. -/
theorem Follows.byte (h : Follows st seen) (b : UInt8) :
    Follows (halBootMatchByte st b) (seen.byte b) ∧
      (halBootMatchByte st b).events = st.events ++ seen.byteEvents b := by
  obtain ⟨hmatched, hdisabled, hprepare, hblock⟩ := h
  have hstep := hmatched.step halBootSeq_nodup b
  rw [halBootMatchByte_eq]
  by_cases hends : halBootSeq <:+ seen.stream ++ [b]
  · rw [if_pos (hmatched.fires_iff.mpr hends), Seen.byteEvents, if_pos hends]
    cases hentry : seen.disabled with
    | true =>
      have hst : { st with pos := (resync halBootSeq st.pos b).1 }.entryDisabled = true :=
        hdisabled.trans hentry
      rw [halBootRequest_disabled hst]
      exact ⟨⟨hstep, hdisabled, hprepare, by simp [Seen.byte, hentry, hblock]⟩, rfl⟩
    | false =>
      have hst : { st with pos := (resync halBootSeq st.pos b).1 }.entryDisabled = false :=
        hdisabled.trans hentry
      rw [halBootRequest_enabled hst]
      refine ⟨⟨hstep, hdisabled, hprepare, ?_⟩, ?_⟩
      · simp [Seen.byte, hentry, hends, hblock]
      · simp [hblock, hprepare]
  · rw [if_neg (fun hfires => hends (hmatched.fires_iff.mp hfires)), Seen.byteEvents,
      if_neg hends, List.append_nil]
    exact ⟨⟨hstep, hdisabled, hprepare, by simp [Seen.byte, hends, hblock]⟩, rfl⟩

theorem Follows.bytes (data : List UInt8) :
    ∀ {st : BootState} {seen : Seen}, Follows st seen →
      Follows (data.foldl halBootMatchByte st) (seen.bytes data) ∧
        (data.foldl halBootMatchByte st).events = st.events ++ seen.bytesEvents data := by
  induction data with
  | nil =>
    intro st seen h
    exact ⟨h, (List.append_nil _).symm⟩
  | cons b data ih =>
    intro st seen h
    obtain ⟨hnext, hevents⟩ := h.byte b
    obtain ⟨hrest, hrestEvents⟩ := ih hnext
    refine ⟨hrest, ?_⟩
    rw [List.foldl_cons, hrestEvents, hevents, List.append_assoc]
    rfl

/-- One call. -/
theorem Follows.call (h : Follows st seen) (call : WatcherCall) :
    Follows (watcherStep st call) (seen.call call) ∧
      (watcherStep st call).events = st.events ++ seen.callEvents call := by
  cases call with
  | matchByte b => exact h.byte b
  | feed data =>
    cases data with
    | none => exact ⟨h, (List.append_nil _).symm⟩
    | some data => exact Follows.bytes data h
  | entryDisable => exact ⟨⟨h.matched, rfl, h.prepare, h.block⟩, (List.append_nil _).symm⟩
  | entryEnable => exact ⟨⟨h.matched, rfl, h.prepare, h.block⟩, (List.append_nil _).symm⟩

theorem Follows.run (calls : List WatcherCall) :
    ∀ {st : BootState} {seen : Seen}, Follows st seen →
      Follows (watcherRun st calls) (seen.calls calls) := by
  induction calls with
  | nil =>
    intro st seen h
    exact h
  | cons call calls ih =>
    intro st seen h
    exact ih (h.call call).1

/-! ## Counting requests -/

/-- How often the sequence occurs in a stream, overlaps counted. -/
def occurrences (stream : List UInt8) : Nat :=
  ((List.range stream.length).filter fun n => decide (halBootSeq <:+ stream.take (n + 1))).length

theorem occurrences_concat (stream : List UInt8) (b : UInt8) :
    occurrences (stream ++ [b]) =
      occurrences stream + if halBootSeq <:+ stream ++ [b] then 1 else 0 := by
  have hold : (List.range stream.length).filter
      (fun n => decide (halBootSeq <:+ (stream ++ [b]).take (n + 1))) =
      (List.range stream.length).filter fun n => decide (halBootSeq <:+ stream.take (n + 1)) := by
    apply List.filter_congr
    intro n hn
    rw [List.take_append_of_le_length (List.mem_range.mp hn)]
  rw [occurrences, List.length_append, List.length_singleton, List.range_succ, List.filter_append,
    List.length_append, hold, occurrences]
  congr 1
  rw [List.filter_singleton, List.take_of_length_le (by simp)]
  by_cases hends : halBootSeq <:+ stream ++ [b]
  · simp [hends]
  · simp [hends]

theorem byteEvents_count (seen : Seen) (b : UInt8) :
    (seen.byteEvents b).count .request =
      if halBootSeq <:+ seen.stream ++ [b] then 1 else 0 := by
  unfold Seen.byteEvents afterSeal
  split
  · cases seen.disabled with
    | true => rfl
    | false =>
      cases seen.prepare with
      | true => rfl
      | false => rfl
  · rfl

theorem bytesEvents_count (data : List UInt8) :
    ∀ seen : Seen, (seen.bytesEvents data).count .request + occurrences seen.stream =
      occurrences (seen.stream ++ data) := by
  induction data with
  | nil =>
    intro seen
    rw [Seen.bytesEvents, List.count_nil, Nat.zero_add, List.append_nil]
  | cons b data ih =>
    intro seen
    have hrest := ih (seen.byte b)
    rw [show (seen.byte b).stream = seen.stream ++ [b] from rfl, occurrences_concat,
      List.append_assoc, List.singleton_append] at hrest
    rw [Seen.bytesEvents, List.count_append, byteEvents_count, ← hrest]
    omega

theorem bytes_stream (data : List UInt8) :
    ∀ seen : Seen, (seen.bytes data).stream = seen.stream ++ data := by
  induction data with
  | nil =>
    intro seen
    exact (List.append_nil _).symm
  | cons b data ih =>
    intro seen
    rw [Seen.bytes, List.foldl_cons]
    rw [show List.foldl Seen.byte (seen.byte b) data = (seen.byte b).bytes data from rfl, ih,
      List.append_cons]
    rfl

theorem call_stream (seen : Seen) (call : WatcherCall) :
    (seen.call call).stream = seen.stream ++ call.data := by
  cases call with
  | matchByte b => rfl
  | feed data => exact bytes_stream _ seen
  | entryDisable | entryEnable => exact (List.append_nil _).symm

theorem callEvents_count (seen : Seen) (call : WatcherCall) :
    (seen.callEvents call).count .request + occurrences seen.stream =
      occurrences (seen.stream ++ call.data) := by
  cases call with
  | matchByte b =>
    rw [Seen.callEvents, byteEvents_count, WatcherCall.data, occurrences_concat, Nat.add_comm]
  | feed data => exact bytesEvents_count _ seen
  | entryDisable | entryEnable =>
    rw [Seen.callEvents, WatcherCall.data, List.count_nil, List.append_nil, Nat.zero_add]

theorem calls_stream (calls : List WatcherCall) :
    ∀ seen : Seen, (seen.calls calls).stream = seen.stream ++ calls.flatMap WatcherCall.data := by
  induction calls with
  | nil =>
    intro seen
    exact (List.append_nil _).symm
  | cons call calls ih =>
    intro seen
    rw [show seen.calls (call :: calls) = (seen.call call).calls calls from rfl, ih, call_stream,
      List.flatMap_cons, List.append_assoc]

theorem Follows.count (calls : List WatcherCall) :
    ∀ {st : BootState} {seen : Seen}, Follows st seen →
      (watcherRun st calls).events.count .request + occurrences seen.stream =
        st.events.count .request + occurrences (seen.calls calls).stream := by
  induction calls with
  | nil =>
    intro st seen _
    rfl
  | cons call calls ih =>
    intro st seen h
    obtain ⟨hnext, hevents⟩ := h.call call
    have hrest := ih hnext
    have hcall := callEvents_count seen call
    rw [hevents, List.count_append, call_stream] at hrest
    rw [show watcherRun st (call :: calls) = watcherRun (watcherStep st call) calls from rfl,
      show seen.calls (call :: calls) = (seen.call call).calls calls from rfl]
    omega

/-! ## No stream asks for stage-1 -/

/-- The block is the one from the start, or asks for the loader. -/
def Unprivileged (block₀ block : BootBlock) : Prop :=
  block = block₀ ∨ halBootGetRequest block = halBootReqLoader

theorem bytes_unprivileged {block₀ : BootBlock} (data : List UInt8) :
    ∀ seen : Seen, Unprivileged block₀ seen.block → Unprivileged block₀ (seen.bytes data).block := by
  induction data with
  | nil =>
    intro seen h
    exact h
  | cons b data ih =>
    intro seen h
    apply ih
    unfold Seen.byte
    dsimp only
    split
    · exact Or.inr (blockSeal_getRequest _ _)
    · exact h

theorem calls_unprivileged {block₀ : BootBlock} (calls : List WatcherCall) :
    ∀ seen : Seen, Unprivileged block₀ seen.block → Unprivileged block₀ (seen.calls calls).block := by
  induction calls with
  | nil =>
    intro seen h
    exact h
  | cons call calls ih =>
    intro seen h
    apply ih
    cases call with
    | matchByte b => exact bytes_unprivileged [b] seen h
    | feed data => exact bytes_unprivileged _ seen h
    | entryDisable | entryEnable => exact h

/-! ## What a request leaves -/

/-- A block that asks for the loader and holds the attempts of the one before. -/
def AsksLoader (before after : BootBlock) : Prop :=
  halBootGetRequest after = halBootReqLoader ∧ halBootGetAttempts after = halBootGetAttempts before

theorem blockSeal_asksLoader (block : BootBlock) :
    AsksLoader block (blockSeal halBootReqLoader (halBootGetAttempts block)) :=
  ⟨blockSeal_getRequest _ _, blockSeal_getAttempts _ _⟩

/-- A byte changes the request at most, never the attempts. -/
theorem byte_getAttempts (seen : Seen) (b : UInt8) :
    halBootGetAttempts (seen.byte b).block = halBootGetAttempts seen.block := by
  unfold Seen.byte
  dsimp only
  split
  · exact blockSeal_getAttempts _ _
  · rfl

theorem byteEvents_seal {b : UInt8} {block : BootBlock}
    (h : BootEvent.seal block ∈ seen.byteEvents b) : AsksLoader seen.block block := by
  unfold Seen.byteEvents afterSeal at h
  split at h
  · cases hentry : seen.disabled with
    | true => simp [hentry] at h
    | false =>
      have hblock : block = blockSeal halBootReqLoader (halBootGetAttempts seen.block) := by
        cases hprepare : seen.prepare with
        | true => simpa [hentry, hprepare] using h
        | false => simpa [hentry, hprepare] using h
      rw [hblock]
      exact blockSeal_asksLoader _
  · exact absurd h List.not_mem_nil

theorem bytesEvents_seal {block : BootBlock} (data : List UInt8) :
    ∀ {seen : Seen}, BootEvent.seal block ∈ seen.bytesEvents data → AsksLoader seen.block block := by
  induction data with
  | nil =>
    intro seen h
    exact absurd h List.not_mem_nil
  | cons b data ih =>
    intro seen h
    rcases List.mem_append.mp h with hbyte | hrest
    · exact byteEvents_seal hbyte
    · obtain ⟨hrequest, hattempts⟩ := ih hrest
      exact ⟨hrequest, hattempts.trans (byte_getAttempts seen b)⟩

/-- Every block that a call writes, at whichever of its bytes. -/
theorem callEvents_seal {call : WatcherCall} {block : BootBlock}
    (h : BootEvent.seal block ∈ seen.callEvents call) : AsksLoader seen.block block := by
  cases call with
  | matchByte b => exact byteEvents_seal h
  | feed data => exact bytesEvents_seal _ h
  | entryDisable | entryEnable => exact absurd h List.not_mem_nil

/-- The block after one byte: a request at an enabled occurrence, else as it was. -/
theorem Follows.byte_block (h : Follows st seen) (b : UInt8) :
    if halBootSeq <:+ seen.stream ++ [b] ∧ st.entryDisabled = false then
      AsksLoader st.block (halBootMatchByte st b).block
    else (halBootMatchByte st b).block = st.block := by
  have hblock := (h.byte b).1.block
  rw [hblock, h.block, h.disabled]
  unfold Seen.byte
  dsimp only
  split
  · exact blockSeal_asksLoader _
  · rfl

/-- **The watcher is exact, split-independent and unprivileged.**  After any
calls from a reset matcher, the next call adds exactly the events that the
stream calls for and leaves the block they leave; the requests so far are the
occurrences in the concatenated stream.  A byte rewrites the block exactly when
it completes the sequence with entry enabled, and every block that is written
asks for the loader with the attempts of the one before; the block asks for
stage-1 only if it did at the start. -/
theorem watcher_exact (st : BootState) (calls : List WatcherCall) (call : WatcherCall) :
    let start := halBootMatchReset st
    let now := watcherRun start calls
    let seen := (Seen.start start).calls calls
    seen.stream = calls.flatMap WatcherCall.data ∧
      (watcherStep now call).events = now.events ++ seen.callEvents call ∧
      (watcherStep now call).block = (seen.call call).block ∧
      now.events.count .request = st.events.count .request + occurrences seen.stream ∧
      (∀ b, if halBootSeq <:+ seen.stream ++ [b] ∧ now.entryDisabled = false then
          halBootGetRequest (halBootMatchByte now b).block = halBootReqLoader ∧
            halBootGetAttempts (halBootMatchByte now b).block = halBootGetAttempts now.block
        else (halBootMatchByte now b).block = now.block) ∧
      (∀ block, BootEvent.seal block ∈ seen.callEvents call →
        halBootGetRequest block = halBootReqLoader ∧
          halBootGetAttempts block = halBootGetAttempts now.block) ∧
      (halBootGetRequest now.block = halBootReqStage1 →
        halBootGetRequest st.block = halBootReqStage1) := by
  intro start now seen
  have hstart : Follows start (Seen.start start) := follows_start rfl
  have hnow : Follows now seen := Follows.run calls hstart
  obtain ⟨hnext, hevents⟩ := hnow.call call
  refine ⟨calls_stream calls _, hevents, hnext.block, Follows.count calls hstart, hnow.byte_block,
    ?_, ?_⟩
  · intro block hseal
    rw [hnow.block]
    exact callEvents_seal hseal
  · intro hstage1
    rw [hnow.block] at hstage1
    rcases calls_unprivileged calls (Seen.start start) (Or.inl rfl) with hsame | hloader
    · rw [show seen.block = st.block from hsame] at hstage1
      exact hstage1
    · rw [show halBootGetRequest seen.block = halBootReqLoader from hloader] at hstage1
      exact absurd hstage1 (by decide)

end NavHAL.Boot
