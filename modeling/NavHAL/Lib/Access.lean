import Mathlib.Logic.Relation

/-!
# Programs of register accesses

A driver sees its device only through accesses and the answers to them.

* `exec` runs a program against a device that answers at once, `exec_bind` takes it apart;
* `Runs` lets a device take steps of its own between any two accesses, and
  `Ensures` says what every such run ends with;
* `ensures_done`, `ensures_access`, `Ensures.bind` are the rules for it: an
  assertion before an access has to be kept by the steps of the device;
* `Delivers` adds that no run gets stuck, and `delivers_done`, `delivers_access`,
  `Delivers.bind` are its rules.  A program has no infinite branch, so that what it
  delivers it returns as soon as the device is given its turns.
-/

namespace NavHAL.Access

/-- `β i` is the type of the answer to access `i`. -/
inductive Program (ι : Type) (β : ι → Type) (α : Type) where
  | done (a : α)
  | access (i : ι) (next : β i → Program ι β α)

section

variable {ι : Type} {β : ι → Type} {α γ σ : Type}

def Program.bind : Program ι β α → (α → Program ι β γ) → Program ι β γ
  | .done a, f => f a
  | .access i next, f => .access i fun b => (next b).bind f

instance : Monad (Program ι β) where
  pure := .done
  bind := .bind

/-- One access, whose answer is the result. -/
def perform (i : ι) : Program ι β (β i) := .access i .done

@[simp] theorem done_bind (a : α) (f : α → Program ι β γ) : (Program.done a >>= f) = f a := rfl

@[simp] theorem pure_eq (a : α) : (pure a : Program ι β α) = .done a := rfl

@[simp] theorem access_bind (i : ι) (next : β i → Program ι β α) (f : α → Program ι β γ) :
    (Program.access i next >>= f) = .access i fun b => next b >>= f := rfl

@[simp] theorem perform_bind (i : ι) (f : β i → Program ι β γ) :
    (perform i >>= f) = .access i f := rfl

theorem bind_done (p : Program ι β α) : (p >>= .done) = p := by
  induction p with
  | done a => rfl
  | access i next ih => exact congrArg (Program.access i) (funext ih)

theorem bind_assoc {δ : Type} (p : Program ι β α) (f : α → Program ι β γ) (g : γ → Program ι β δ) :
    (p >>= f >>= g) = p >>= fun a => f a >>= g := by
  induction p with
  | done a => rfl
  | access i next ih => exact congrArg (Program.access i) (funext ih)

/-! ## A device that answers -/

variable (reply : (i : ι) → σ → β i × σ)

def exec : Program ι β α → σ → α × σ
  | .done a, s => (a, s)
  | .access i next, s => exec (next (reply i s).1) (reply i s).2

@[simp] theorem exec_done (a : α) (s : σ) : exec reply (.done a : Program ι β α) s = (a, s) := rfl

@[simp] theorem exec_access (i : ι) (next : β i → Program ι β α) (s : σ) :
    exec reply (.access i next) s = exec reply (next (reply i s).1) (reply i s).2 := rfl

theorem exec_bind (p : Program ι β α) (f : α → Program ι β γ) (s : σ) :
    exec reply (p >>= f) s = exec reply (f (exec reply p s).1) (exec reply p s).2 := by
  induction p generalizing s with
  | done a => rfl
  | access i next ih => exact ih (reply i s).1 (reply i s).2

end

/-! ## A device that takes steps of its own -/

section

variable {ι : Type} {β : ι → Type} {α γ σ : Type}
  (device : σ → σ → Prop) (answer : (i : ι) → σ → β i → σ → Prop)

/-- A step of the device, or the next access. -/
inductive Step : Program ι β α × σ → Program ι β α × σ → Prop
  | device {p : Program ι β α} {s s' : σ} (h : device s s') : Step (p, s) (p, s')
  | access {i : ι} {next : β i → Program ι β α} {s s' : σ} {b : β i} (h : answer i s b s') :
      Step (.access i next, s) (next b, s')

/-- The program returns `a`, with the device in the state `s'`. -/
def Runs (p : Program ι β α) (s : σ) (a : α) (s' : σ) : Prop :=
  Relation.ReflTransGen (Step device answer) (p, s) (.done a, s')

/-- Every run that returns ends with `Q`. -/
def Ensures (p : Program ι β α) (Q : α → σ → Prop) (s : σ) : Prop :=
  ∀ a s', Runs device answer p s a s' → Q a s'

/-- What the device keeps. -/
def Stable (I : σ → Prop) : Prop := ∀ s s', I s → device s s' → I s'

variable {device answer} {I : σ → Prop} {Q R : α → σ → Prop} {s s' : σ}

/-- A run up to the return of its last step. -/
theorem Runs.device_step {p : Program ι β α} {a : α} {t : σ} (h : device s s')
    (hruns : Runs device answer p s' a t) : Runs device answer p s a t :=
  Relation.ReflTransGen.head (.device h) hruns

theorem Runs.access_step {i : ι} {next : β i → Program ι β α} {b : β i} {a : α} {t : σ}
    (h : answer i s b s') (hruns : Runs device answer (next b) s' a t) :
    Runs device answer (.access i next) s a t :=
  Relation.ReflTransGen.head (.access h) hruns

theorem Runs.done (a : α) (s : σ) : Runs device answer (.done a : Program ι β α) s a s :=
  Relation.ReflTransGen.refl

theorem Ensures.mono {p : Program ι β α} (h : Ensures device answer p Q s)
    (himp : ∀ a s', Q a s' → R a s') : Ensures device answer p R s :=
  fun a s' hruns => himp a s' (h a s' hruns)

/-- After the return the device goes on. -/
theorem ensures_done {a : α} (hstable : Stable device (Q a)) (h : Q a s) :
    Ensures device answer (.done a : Program ι β α) Q s := by
  intro a' s' hruns
  have hkeep : ∀ c, Relation.ReflTransGen (Step device answer) (.done a, s) c →
      c.1 = .done a ∧ Q a c.2 := by
    intro c hc
    induction hc with
    | refl => exact ⟨rfl, h⟩
    | tail _ hstep ih =>
      cases hstep with
      | device hdev => exact ⟨ih.1, hstable _ _ ih.2 hdev⟩
      | access _ => cases ih.1
  obtain ⟨heq, hq⟩ := hkeep _ hruns
  cases heq
  exact hq

/-- The assertion before an access holds until the access is made. -/
theorem ensures_access {i : ι} {next : β i → Program ι β α} (hstable : Stable device I)
    (hnext : ∀ s b s', I s → answer i s b s' → Ensures device answer (next b) Q s') (h : I s) :
    Ensures device answer (.access i next) Q s := by
  intro a t hruns
  unfold Runs at hruns
  generalize hc : (Program.access i next, s) = c at hruns
  induction hruns using Relation.ReflTransGen.head_induction_on generalizing s with
  | refl => cases hc
  | head hstep hrest ih =>
    subst hc
    cases hstep with
    | device hdev => exact ih (hstable _ _ h hdev) rfl
    | access hans => exact hnext _ _ _ h hans _ _ hrest

/-- A sequence runs its first part, and then the second. -/
theorem Runs.seq {p : Program ι β γ} {f : γ → Program ι β α} {c : γ} {a : α} {t u : σ}
    (h : Runs device answer p s c t) (hrest : Runs device answer (f c) t a u) :
    Runs device answer (p >>= f) s a u := by
  unfold Runs at h
  generalize hc : (p, s) = d at h
  induction h using Relation.ReflTransGen.head_induction_on generalizing p s with
  | refl =>
    obtain ⟨rfl, rfl⟩ := Prod.mk.inj hc
    exact hrest
  | head hstep _ ih =>
    subst hc
    cases hstep with
    | device hdev => exact (ih rfl).device_step hdev
    | access hans => exact (ih rfl).access_step hans

/-- A run of a sequence is in its first part, or past the return of it. -/
theorem reach_bind {p : Program ι β γ} {f : γ → Program ι β α} {c : Program ι β α × σ}
    (h : Relation.ReflTransGen (Step device answer) (p >>= f, s) c) :
    (∃ p' s', Relation.ReflTransGen (Step device answer) (p, s) (p', s') ∧ c = (p' >>= f, s')) ∨
      ∃ a s', Runs device answer p s a s' ∧
        Relation.ReflTransGen (Step device answer) (f a, s') c := by
  induction h with
  | refl => exact Or.inl ⟨p, s, Relation.ReflTransGen.refl, rfl⟩
  | tail _ hstep ih =>
    rcases ih with ⟨p', s', hreach, rfl⟩ | ⟨a, s', hruns, hreach⟩
    · cases p' with
      | done a => exact Or.inr ⟨a, s', hreach, Relation.ReflTransGen.single hstep⟩
      | access i next =>
        generalize hc : (Program.access i next >>= f, s') = d at hstep
        cases hstep with
        | device hdev =>
          obtain ⟨rfl, rfl⟩ := Prod.mk.inj hc
          exact Or.inl ⟨_, _, hreach.tail (.device hdev), rfl⟩
        | access hans =>
          obtain ⟨hprog, rfl⟩ := Prod.mk.inj hc
          cases hprog
          exact Or.inl ⟨_, _, hreach.tail (.access hans), rfl⟩
    · exact Or.inr ⟨a, s', hruns, hreach.tail hstep⟩

/-- A sequence by way of what its first part ends with. -/
theorem Ensures.bind {p : Program ι β γ} {f : γ → Program ι β α} {P : γ → σ → Prop}
    (h : Ensures device answer p P s)
    (hnext : ∀ c s', P c s' → Ensures device answer (f c) Q s') :
    Ensures device answer (p >>= f) Q s := by
  intro a t hruns
  rcases reach_bind hruns with ⟨p', s', hreach, hc⟩ | ⟨c, s', hfirst, hrest⟩
  · obtain ⟨hprog, rfl⟩ := Prod.mk.inj hc
    cases p' with
    | done c =>
      have hdone : f c = .done a := hprog.symm
      exact hnext c t (h c t hreach) a t (by rw [hdone]; exact Runs.done a t)
    | access i next => cases hprog
  · exact hnext c s' (h c s' hfirst) a t hrest

/-! ## Runs that return -/

/-- No run gets stuck, and every return is one with `Q`. -/
structure Delivers (device : σ → σ → Prop) (answer : (i : ι) → σ → β i → σ → Prop)
    (p : Program ι β α) (Q : α → σ → Prop) (s : σ) : Prop where
  ensures : Ensures device answer p Q s
  returns : ∀ p' s', Relation.ReflTransGen (Step device answer) (p, s) (p', s') →
    ∃ a t, Runs device answer p' s' a t

theorem Delivers.mono {p : Program ι β α} (h : Delivers device answer p Q s)
    (himp : ∀ a s', Q a s' → R a s') : Delivers device answer p R s :=
  ⟨h.ensures.mono himp, h.returns⟩

theorem delivers_done {a : α} (hstable : Stable device (Q a)) (h : Q a s) :
    Delivers device answer (.done a : Program ι β α) Q s := by
  refine ⟨ensures_done hstable h, fun p' s' hreach => ?_⟩
  have hdone : p' = .done a := by
    generalize hc : (p', s') = c at hreach
    induction hreach generalizing p' s' with
    | refl => exact (Prod.mk.inj hc).1
    | tail _ hstep ih =>
      cases hstep with
      | device _ =>
        rw [(Prod.mk.inj hc).1]
        exact ih _ _ rfl
      | access _ => cases ih _ _ rfl
  rw [hdone]
  exact ⟨a, s', Runs.done a s'⟩

/-- The device gets by itself to a state in which the access is answered. -/
theorem delivers_access {i : ι} {next : β i → Program ι β α} (hstable : Stable device I)
    (hready : ∀ s, I s → ∃ s', Relation.ReflTransGen device s s' ∧ ∃ b t, answer i s' b t)
    (hnext : ∀ s b s', I s → answer i s b s' → Delivers device answer (next b) Q s') (h : I s) :
    Delivers device answer (.access i next) Q s := by
  refine ⟨ensures_access hstable (fun s b s' hs hans => (hnext s b s' hs hans).ensures) h, ?_⟩
  intro p' s' hreach
  have hsteps : ∀ {p : Program ι β α} {s s' : σ}, Relation.ReflTransGen device s s' →
      Relation.ReflTransGen (Step device answer) (p, s) (p, s') := by
    intro p s s' hpath
    induction hpath with
    | refl => exact Relation.ReflTransGen.refl
    | tail _ hdev ih => exact ih.tail (.device hdev)
  have hkeep : ∀ {s s'}, I s → Relation.ReflTransGen device s s' → I s' := by
    intro s s' hs hpath
    induction hpath with
    | refl => exact hs
    | tail _ hdev ih => exact hstable _ _ ih hdev
  have hhere : ∀ {s}, I s → ∃ a t, Runs device answer (.access i next) s a t := by
    intro s hs
    obtain ⟨s₁, hpath, b, s₂, hans⟩ := hready s hs
    have hrest := hnext s₁ b s₂ (hkeep hs hpath) hans
    obtain ⟨a, t, hruns⟩ := hrest.returns (next b) s₂ Relation.ReflTransGen.refl
    exact ⟨a, t, (hsteps hpath).trans (hruns.access_step hans)⟩
  generalize hc : (Program.access i next, s) = c at hreach
  induction hreach using Relation.ReflTransGen.head_induction_on generalizing s with
  | refl =>
    obtain ⟨rfl, rfl⟩ := Prod.mk.inj hc
    exact hhere h
  | head hstep hrest ih =>
    subst hc
    cases hstep with
    | device hdev => exact ih (hstable _ _ h hdev) rfl
    | access hans => exact (hnext _ _ _ h hans).returns p' s' hrest

theorem Delivers.bind {p : Program ι β γ} {f : γ → Program ι β α} {P : γ → σ → Prop}
    (h : Delivers device answer p P s)
    (hnext : ∀ c s', P c s' → Delivers device answer (f c) Q s') :
    Delivers device answer (p >>= f) Q s := by
  refine ⟨h.ensures.bind fun c s' hp => (hnext c s' hp).ensures, fun p' s' hreach => ?_⟩
  rcases reach_bind hreach with ⟨q, s₁, hfirst, hc⟩ | ⟨c, s₁, hfirst, hrest⟩
  · obtain ⟨rfl, rfl⟩ := Prod.mk.inj hc
    obtain ⟨c, t, hruns⟩ := h.returns q s' hfirst
    obtain ⟨a, u, hlast⟩ := (hnext c t (h.ensures c t (hfirst.trans hruns))).returns (f c) t
      Relation.ReflTransGen.refl
    exact ⟨a, u, (Runs.seq hruns hlast)⟩
  · exact (hnext c s₁ (h.ensures c s₁ hfirst)).returns p' s' hrest

end

end NavHAL.Access
