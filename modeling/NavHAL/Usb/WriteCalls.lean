import NavHAL.Usb.BulkIn

/-!
# A write among the calls of the tasks

`InTransfers` steps a write through its waits and arms a transfer in one piece; `BulkIn` has
it access by access.  Each run of the latter, whatever the host does in between, is a run of
the former (`write_follows`).
-/

namespace NavHAL.Usb.BulkIn

open Access (Ensures Stable ensures_access ensures_done)
open Steps

/-- The run of the calls that has come to the same place; `m` is whether interrupts are
masked. -/
def Follows (st₀ : CdcState) (task : Nat) (call : SendCall) (m : Bool) (s : BusState) : Prop :=
  s.masked = m ∧ ∃ events, (run cdcStep st₀ events).calls task = call ∧
    (run cdcStep st₀ events).usb = s.usb ∧ (run cdcStep st₀ events).gint = true ∧
    (run cdcStep st₀ events).otgfsen = true

section

variable {host : Host} {st₀ : CdcState} {task : Nat} {call : SendCall} {m : Bool} {s : BusState}

/-- One event more. -/
theorem Follows.event (h : Follows st₀ task call m s) {call' : SendCall} {s' : BusState}
    (hmask : s'.masked = s.masked) (event : CdcEvent)
    (hstep : ∀ st, st.calls task = call → st.usb = s.usb → st.gint = true → st.otgfsen = true →
      (cdcStep st event).calls task = call' ∧ (cdcStep st event).usb = s'.usb ∧
        (cdcStep st event).gint = true ∧ (cdcStep st event).otgfsen = true) :
    Follows st₀ task call' m s' := by
  obtain ⟨hon, events, hcall, husb, hgint, hotg⟩ := h
  refine ⟨hmask.trans hon, events ++ [event], ?_⟩
  rw [run_append]
  exact hstep _ hcall husb hgint hotg

/-- An access that the calls know nothing of. -/
theorem Follows.silent (h : Follows st₀ task call m s) {m' : Bool} {s' : BusState}
    (husb : s'.usb = s.usb) (hmask : s'.masked = m') : Follows st₀ task call m' s' := by
  obtain ⟨-, events, hcall, hsame, hgate⟩ := h
  exact ⟨hmask, events, hcall, hsame.trans husb.symm, hgate⟩

/-- An interrupt that is served. -/
theorem Follows.bus (h : Follows st₀ task call m s) {s' : BusState} (hmask : s'.masked = s.masked)
    (event : UsbEvent) (husb : s'.usb = usbStep s.usb event) : Follows st₀ task call m s' := by
  refine h.event hmask (.bus event) fun st hcall hsame hgint hotg => ?_
  have hserve : cdcStep st (.bus event) = st.serve event := if_pos hgint
  rw [hserve, husb, ← hsame]
  exact ⟨hcall, rfl, hgint, hotg⟩

theorem Follows.stable : Stable (BusStep host) (Follows st₀ task call m) := by
  intro s s' h hstep
  cases hstep with
  | collected _ _ => exact h.silent rfl h.1
  | served _ _ => exact h.bus rfl (.inDone epData) rfl
  | @other event _ _ => exact h.bus rfl event rfl
  | @request event _ _ _ _ => exact h.bus rfl event rfl

/-! ## The steps of a call -/

theorem sendStep_gates (task : Nat) (st : CdcState) :
    (sendStep task st).gint = st.gint ∧ (sendStep task st).otgfsen = st.otgfsen := by
  unfold sendStep
  repeat' split
  all_goals exact ⟨rfl, rfl⟩

theorem setCall_calls (st : CdcState) (task : Nat) (call : SendCall) :
    (st.setCall task call).calls task = call :=
  if_pos rfl

theorem Follows.send (h : Follows st₀ task call m s) {call' : SendCall} {s' : BusState}
    (hmask : s'.masked = s.masked)
    (hstep : ∀ st, st.calls task = call → st.usb = s.usb → st.otgfsen = true →
      (sendStep task st).calls task = call' ∧ (sendStep task st).usb = s'.usb) :
    Follows st₀ task call' m s' := by
  refine h.event hmask (.send task) fun st hcall husb hgint hotg => ?_
  obtain ⟨hnext, hsame⟩ := hstep st hcall husb hotg
  obtain ⟨hkept, hgate⟩ := sendStep_gates task st
  exact ⟨hnext, hsame, hkept.trans hgint, hgate.trans hotg⟩

variable {spins : Nat} {lens : List Nat}

theorem Follows.poll (h : Follows st₀ task (.waiting .data spins lens) m s) :
    Follows st₀ task
      (if s.usb.epInBusy = true then .checking .data spins lens else .arming .data lens) m s := by
  refine h.send rfl fun st hcall husb _ => ?_
  have hbusy : st.usb.busy .data = s.usb.epInBusy := congrArg UsbState.epInBusy husb
  simp only [sendStep, hcall, hbusy]
  split
  · exact ⟨setCall_calls _ _ _, husb⟩
  · exact ⟨setCall_calls _ _ _, husb⟩

theorem Follows.check (h : Follows st₀ task (.checking .data spins lens) m s) :
    Follows st₀ task
      (if s.usb.usbConfigured = 0 then .returned .errNotInitialized
        else if spins - 1 = 0 then .returned .errTimeout else .waiting .data (spins - 1) lens)
      m s := by
  refine h.send rfl fun st hcall husb _ => ?_
  simp only [sendStep, hcall, husb]
  repeat' split
  all_goals exact ⟨setCall_calls _ _ _, husb⟩

theorem Follows.arm (h : Follows st₀ task (.arming .data lens) m s) :
    Follows st₀ task (.next .data lens.tail) m
      { s with usb := { s.usb with epInBusy := true } } := by
  refine h.send rfl fun st hcall husb hotg => ?_
  simp only [sendStep, hcall, if_pos hotg, ← husb]
  exact ⟨setCall_calls _ _ _, rfl⟩

/-! ## The program -/

/-- Every run that returns ends with this. -/
abbrev Ends {α : Type} (host : Host) (prog : CdcProgram α) (Q : α → BusState → Prop)
    (s : BusState) : Prop :=
  Ensures (BusStep host) (accessed host) prog Q s

/-- One access, between which and the assertion before it the host may act. -/
theorem follows_act {α : Type} {Q : α → BusState → Prop} {i : CdcAccess}
    {next : Answer i → CdcProgram α}
    (hnext : ∀ s b, Follows st₀ task call m s → Answered host s i b →
      Ends host (next b) Q (effect s i)) (h : Follows st₀ task call m s) :
    Ends host (.access i next) Q s := by
  refine ensures_access Follows.stable (fun s b s' hs hacc => ?_) h
  obtain ⟨hb, rfl⟩ := hacc
  exact hnext s b hs hb

theorem follows_done {α : Type} {a : α} {ends : α → SendCall} (h : Follows st₀ task (ends a) m s) :
    Ends host (.done a) (fun a => Follows st₀ task (ends a) m) s :=
  ensures_done Follows.stable h

/-- Where a call is when its wait has ended. -/
def waited (lens : List Nat) (status : HalStatus) : SendCall :=
  if status = .ok then .arming .data lens else .returned status

/-- One round of the wait. -/
theorem follows_round {n : Nat}
    (hrest : ∀ s, Follows st₀ task
        (if n = 0 then .returned .errTimeout else .waiting .data n lens) m s →
      Ends host (if n = 0 then return .errTimeout else waitIdle n)
        (fun status => Follows st₀ task (waited lens status) m) s)
    (h : Follows st₀ task (.waiting .data (n + 1) lens) m s) :
    Ends host (waitIdle (n + 1)) (fun status => Follows st₀ task (waited lens status) m) s := by
  refine follows_act (fun s busy hs hbusy => ?_) h
  have hpolled := hs.poll
  rw [← hbusy.1] at hpolled
  cases busy with
  | false => exact follows_done hpolled
  | true =>
    refine follows_act (fun s set hs hset => ?_) hpolled
    have hchecked := hs.check
    cases set with
    | false =>
      rw [if_pos (Decidable.not_not.mp (of_decide_eq_false hset.symm))] at hchecked
      exact follows_done hchecked
    | true =>
      rw [if_neg (of_decide_eq_true hset.symm)] at hchecked
      exact hrest s hchecked

theorem follows_waitIdle (spins : Nat)
    (h : Follows st₀ task (.waiting .data (spins + 1) lens) m s) :
    Ends host (waitIdle (spins + 1)) (fun status => Follows st₀ task (waited lens status) m) s := by
  induction spins generalizing s with
  | zero => exact follows_round (fun s hs => follows_done hs) h
  | succ spins ih => exact follows_round (fun s hs => ih hs) h

variable {mem : Nat → UInt8} {src : Nat} {len : UInt16}

/-- Filling changes nothing that the calls know of. -/
theorem follows_fifoLoop (rounds : Nat) (i : UInt16) (h : Follows st₀ task call m s) :
    Ends host (fifoLoop mem src len rounds i) (fun _ => Follows st₀ task call m) s := by
  induction rounds generalizing s i with
  | zero => exact follows_done h
  | succ rounds ih =>
    rw [fifoLoop]
    split
    · exact follows_act (fun s _ hs _ => ih (i + 4) (hs.silent rfl hs.1)) h
    · exact follows_done h

theorem follows_fill (h : Follows st₀ task call m s) :
    Ends host (fill mem src len) (fun _ => Follows st₀ task call m) s := by
  unfold fill
  split
  · exact follows_fifoLoop len.toNat 0 h
  · exact follows_done h

theorem follows_armAndFill (h : Follows st₀ task (.arming .data lens) false s) :
    Ends host (armAndFill mem src len) (fun _ => Follows st₀ task (.next .data lens.tail) false)
      s := by
  refine follows_act (fun s state hs hstate => ?_) h
  have hoff : state = false := hstate.trans hs.1
  have hmasked : Follows st₀ task (.arming .data lens) true { s with masked := true } :=
    hs.silent rfl rfl
  refine follows_act (fun s _ hs _ => ?_) hmasked
  refine follows_act (fun s _ hs _ => ?_) hs.arm
  refine follows_act (fun s _ hs _ => ?_) (hs.silent rfl hs.1)
  change Ends host (fill mem src len >>= fun _ => enableGlobal state) _ _
  refine Ensures.bind (follows_fill (hs.silent rfl hs.1)) fun _ s hs => ?_
  refine follows_act (fun s _ hs _ => ?_) hs
  rw [hoff]
  exact follows_done (hs.silent rfl rfl)

/-- Each transfer in its turn. -/
theorem follows_sendAll (stop : Nat) (lens : List Nat)
    (h : Follows st₀ task (.next .data lens) false s) :
    Ends host (sendAll mem stop lens) (fun status => Follows st₀ task (.returned status) false)
      s := by
  induction lens generalizing s with
  | nil => exact follows_done h
  | cons len lens ih =>
    rw [sendAll]
    have hwait : Ends host (epInTransfer mem (stop - (len :: lens).sum) (UInt16.ofNat len))
        (fun status => Follows st₀ task
          (if status = .ok then .next .data lens else .returned status) false) s := by
      refine Ensures.bind (follows_waitIdle 1999999 h) fun status s hs => ?_
      unfold waited at hs
      split
      · next hok =>
        rw [if_pos hok] at hs
        exact Ensures.bind (follows_armAndFill hs) fun _ s hs => follows_done hs
      · next herr =>
        rw [if_neg herr] at hs
        exact follows_done (by rwa [if_neg herr])
    refine Ensures.bind hwait fun status s hs => ?_
    split
    · next hok =>
      rw [if_pos hok] at hs
      exact ih hs
    · next herr =>
      rw [if_neg herr] at hs
      exact follows_done hs

end

end NavHAL.Usb.BulkIn
