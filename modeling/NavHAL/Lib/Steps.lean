/-!
# Runs of a step function

`Always` speaks of every state of a run, `Each` of every event in the state
that it meets.

* `Each.always` : what every allowed event keeps holds all along;
* `always_iff_each_where`, `always_iff_each_of`, `always_iff_each` : where an
  event keeps the invariant exactly when it is allowed, a run keeps it exactly
  when all its events are.
-/

namespace NavHAL.Steps

variable {σ α : Type} (step : σ → α → σ)

/-- The state after a list of events, the first one first. -/
def run (s : σ) (as : List α) : σ := as.foldl step s

/-- Every state of a run, the first and the last one included. -/
def Always (P : σ → Prop) : σ → List α → Prop
  | s, [] => P s
  | s, a :: as => P s ∧ Always P (step s a) as

/-- Every event of a run, in the state it meets. -/
def Each (Q : σ → α → Prop) : σ → List α → Prop
  | _, [] => True
  | s, a :: as => Q s a ∧ Each Q (step s a) as

instance decidableAlways (P : σ → Prop) [DecidablePred P] :
    (s : σ) → (as : List α) → Decidable (Always step P s as)
  | s, [] => inferInstanceAs (Decidable (P s))
  | s, a :: as =>
    haveI := decidableAlways P (step s a) as
    inferInstanceAs (Decidable (P s ∧ Always step P (step s a) as))

instance decidableEach (Q : σ → α → Prop) [∀ s a, Decidable (Q s a)] :
    (s : σ) → (as : List α) → Decidable (Each step Q s as)
  | _, [] => inferInstanceAs (Decidable True)
  | s, a :: as =>
    haveI := decidableEach Q (step s a) as
    inferInstanceAs (Decidable (Q s a ∧ Each step Q (step s a) as))

variable {step} {P P' Inv : σ → Prop} {Q : σ → α → Prop}

@[simp] theorem run_nil (s : σ) : run step s [] = s := rfl

@[simp] theorem run_cons (s : σ) (a : α) (as : List α) :
    run step s (a :: as) = run step (step s a) as := rfl

theorem run_append (s : σ) (as bs : List α) :
    run step s (as ++ bs) = run step (run step s as) bs := List.foldl_append

/-- Two machines side by side. -/
theorem run_prod {τ : Type} (step' : τ → α → τ) (s : σ) (t : τ) (as : List α) :
    run (fun p a => (step p.1 a, step' p.2 a)) (s, t) as = (run step s as, run step' t as) := by
  induction as generalizing s t with
  | nil => rfl
  | cons a as ih => exact ih (step s a) (step' t a)

theorem Always.head {s : σ} {as : List α} (h : Always step P s as) : P s := by
  cases as with
  | nil => exact h
  | cons a as => exact h.1

theorem Always.mono (himp : ∀ s, P s → P' s) {s : σ} {as : List α} (h : Always step P s as) :
    Always step P' s as := by
  induction as generalizing s with
  | nil => exact himp s h
  | cons a as ih => exact ⟨himp s h.1, ih h.2⟩

/-- The last state is one of the run's. -/
theorem Always.run {s : σ} {as : List α} (h : Always step P s as) : P (run step s as) := by
  induction as generalizing s with
  | nil => exact h
  | cons a as ih => exact ih h.2

theorem Each.always (hstep : ∀ s a, Inv s → Q s a → Inv (step s a)) {s : σ} {as : List α}
    (h : Inv s) (hq : Each step Q s as) : Always step Inv s as := by
  induction as generalizing s with
  | nil => exact h
  | cons a as ih => exact ⟨h, ih (hstep s a h hq.1) hq.2⟩

/-- The last event meets the state that the others lead to. -/
theorem Each.last {s : σ} {as : List α} {a : α} (h : Each step Q s (as ++ [a])) :
    Q (NavHAL.Steps.run step s as) a := by
  induction as generalizing s with
  | nil => exact h.1
  | cons b as ih => exact ih h.2

theorem Each.of_all (hall : ∀ s a, Q s a) (s : σ) (as : List α) : Each step Q s as := by
  induction as generalizing s with
  | nil => trivial
  | cons a as ih => exact ⟨hall s a, ih (step s a)⟩

/-- What every event keeps holds all along. -/
theorem always_of_invariant (hkeep : ∀ s a, Inv s → Inv (step s a)) {s : σ} (as : List α)
    (h : Inv s) : Always step Inv s as := by
  induction as generalizing s with
  | nil => exact h
  | cons a as ih => exact ⟨h, ih (hkeep s a h)⟩

theorem each_of_invariant (hright : ∀ s a, Inv s → Q s a)
    (hkeep : ∀ s a, Inv s → Inv (step s a)) {s : σ} (as : List α) (h : Inv s) :
    Each step Q s as := by
  induction as generalizing s with
  | nil => trivial
  | cons a as ih => exact ⟨hright s a h, ih (hkeep s a h)⟩

/-- Two properties of events that agree where an invariant holds. -/
theorem each_congr {R : σ → α → Prop} (hiff : ∀ s a, Inv s → (Q s a ↔ R s a))
    (hstep : ∀ s a, Inv s → Inv (step s a)) {s : σ} (as : List α) (h : Inv s) :
    Each step Q s as ↔ Each step R s as := by
  induction as generalizing s with
  | nil => exact Iff.rfl
  | cons a as ih => exact and_congr (hiff s a h) (ih (hstep s a h))

/-- Two properties of events that agree where an invariant holds, which an event
keeps when it has the first of them. -/
theorem each_congr_of {R : σ → α → Prop} (hiff : ∀ s a, Inv s → (Q s a ↔ R s a))
    (hstep : ∀ s a, Inv s → Q s a → Inv (step s a)) {s : σ} (as : List α) (h : Inv s) :
    Each step Q s as ↔ Each step R s as := by
  induction as generalizing s with
  | nil => exact Iff.rfl
  | cons a as ih =>
    constructor
    · rintro ⟨hq, hrest⟩
      exact ⟨(hiff s a h).mp hq, (ih (hstep s a h hq)).mp hrest⟩
    · rintro ⟨hr, hrest⟩
      have hq := (hiff s a h).mpr hr
      exact ⟨hq, (ih (hstep s a h hq)).mpr hrest⟩

/-- The same, with the events before each one written out. -/
theorem each_iff_split (s : σ) (as : List α) :
    Each step Q s as ↔
      ∀ pre a post, as = pre ++ a :: post → Q (NavHAL.Steps.run step s pre) a := by
  induction as generalizing s with
  | nil =>
    refine ⟨fun _ pre a post h => ?_, fun _ => trivial⟩
    cases pre <;> cases h
  | cons b as ih =>
    constructor
    · rintro ⟨hq, hrest⟩ pre a post h
      cases pre with
      | nil =>
        cases h
        exact hq
      | cons c pre =>
        cases h
        exact (ih _).mp hrest pre a post rfl
    · intro h
      exact ⟨h [] b as rfl, (ih _).mpr fun pre a post heq =>
        h (b :: pre) a post (congrArg (b :: ·) heq)⟩

/-- A flag that some events set and others clear is off when the last of these
events was one that clears it, or when it was off and there was none that sets it. -/
theorem flag_off_iff (flag : σ → Bool) (sets clears : α → Prop)
    (hflag : ∀ s a, flag (step s a) = false ↔ clears a ∨ (flag s = false ∧ ¬ sets a))
    (s : σ) (as : List α) :
    flag (NavHAL.Steps.run step s as) = false ↔
      (∃ pre a post, as = pre ++ a :: post ∧ clears a ∧ ∀ b ∈ post, ¬ sets b) ∨
        (flag s = false ∧ ∀ b ∈ as, ¬ sets b) := by
  induction as generalizing s with
  | nil => simp
  | cons c as ih =>
    rw [run_cons, ih, hflag, List.forall_mem_cons]
    constructor
    · rintro (⟨pre, a, post, rfl, ha, hpost⟩ | ⟨hc | ⟨hs, hc⟩, has⟩)
      · exact Or.inl ⟨c :: pre, a, post, rfl, ha, hpost⟩
      · exact Or.inl ⟨[], c, as, rfl, hc, has⟩
      · exact Or.inr ⟨hs, hc, has⟩
    · rintro (⟨pre, a, post, heq, ha, hpost⟩ | ⟨hs, hc, has⟩)
      · cases pre with
        | nil =>
          cases heq
          exact Or.inr ⟨Or.inl ha, hpost⟩
        | cons d pre =>
          cases heq
          exact Or.inl ⟨pre, a, post, rfl, ha, hpost⟩
      · exact Or.inr ⟨Or.inr ⟨hs, hc⟩, has⟩

/-- A property that asks the same of an event in every state. -/
theorem each_iff_forall {R : α → Prop} (hiff : ∀ s a, Q s a ↔ R a) (s : σ) (as : List α) :
    Each step Q s as ↔ ∀ a ∈ as, R a := by
  induction as generalizing s with
  | nil => exact ⟨fun _ _ h => absurd h (List.not_mem_nil), fun _ => trivial⟩
  | cons a as ih =>
    rw [List.forall_mem_cons, ← hiff s a, ← ih (step s a)]
    rfl

/-- A property that follows from the invariant, and that an event which is not
allowed breaks; the events are among those that `E` says can happen. -/
theorem always_iff_each_where {E : σ → α → Prop} (himp : ∀ s, Inv s → P s)
    (hneed : ∀ s a, Inv s → E s a → P (step s a) → Q s a)
    (hkeep : ∀ s a, Inv s → E s a → Q s a → Inv (step s a)) {s : σ} (as : List α)
    (h : Inv s) (he : Each step E s as) : Always step P s as ↔ Each step Q s as := by
  induction as generalizing s with
  | nil => exact ⟨fun _ => trivial, fun _ => himp s h⟩
  | cons a as ih =>
    constructor
    · intro hall
      have hq := hneed s a h he.1 hall.2.head
      exact ⟨hq, (ih (hkeep s a h he.1 hq) he.2).mp hall.2⟩
    · intro hq
      exact ⟨himp s h, (ih (hkeep s a h he.1 hq.1) he.2).mpr hq.2⟩

theorem always_iff_each_of (himp : ∀ s, Inv s → P s)
    (hneed : ∀ s a, Inv s → P (step s a) → Q s a)
    (hkeep : ∀ s a, Inv s → Q s a → Inv (step s a)) {s : σ} (as : List α) (h : Inv s) :
    Always step P s as ↔ Each step Q s as :=
  always_iff_each_where himp (fun s a h _ => hneed s a h) (fun s a h _ => hkeep s a h) as h
    (Each.of_all (fun _ _ => trivial) s as)

theorem always_iff_each (hstep : ∀ s a, Inv s → (Inv (step s a) ↔ Q s a)) {s : σ}
    (as : List α) (h : Inv s) : Always step Inv s as ↔ Each step Q s as :=
  always_iff_each_of (fun _ h => h) (fun s a h => (hstep s a h).mp)
    (fun s a h => (hstep s a h).mpr) as h

end NavHAL.Steps
