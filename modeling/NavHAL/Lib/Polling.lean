/-!
# Polling loops with an unsigned budget

`while (guard && budget--) body`, with a counter of 32 bits that is looked at after the
loop.  The decrement is made before the test of the budget is acted on: a loop that
gives up leaves `0xFFFFFFFF`, and one whose last poll is a success leaves 0.

* `spin_done`, `spin_stopped`, `spin_exited`, `spin_spent` : how the loop ends after `k`
  rounds, and what it leaves in the counter;
* `rounds_total` : one of these is the case;
* `spin_keeps` : what guard and body keep, the loop keeps;
* `pollWhile_zero_iff` : what a test of the counter against 0 finds out.
-/

namespace NavHAL.Polling

/-- What one run of the body does. -/
inductive Round (ε σ : Type) where
  | next (s : σ)
  | stop (s : σ)
  | exit (e : ε) (s : σ)

def Round.state {ε σ : Type} : Round ε σ → σ
  | .next s | .stop s | .exit _ s => s

/-- The loop leaves a counter, or the function around it returns. -/
inductive Ended (ε : Type) where
  | counter (left : UInt32)
  | exit (e : ε)
  deriving DecidableEq, Repr

section

variable {ε σ : Type} (guard : σ → Bool × σ) (body : σ → Round ε σ)

def spin : Nat → σ → Ended ε × σ
  | 0, s => (.counter (if (guard s).1 then 0 - 1 else 0), (guard s).2)
  | n + 1, s =>
    if (guard s).1 then
      match body (guard s).2 with
      | .next s => spin n s
      | .stop s => (.counter (UInt32.ofNat n), s)
      | .exit e s => (.exit e, s)
    else (.counter (UInt32.ofNat (n + 1)), (guard s).2)

/-- One round that ends neither the loop nor the function. -/
def oneRound (s : σ) : Option σ :=
  if (guard s).1 then
    match body (guard s).2 with
    | .next s => some s
    | .stop _ | .exit .. => none
  else none

/-- The state after `k` such rounds. -/
def rounds : Nat → σ → Option σ
  | 0, s => some s
  | k + 1, s => (oneRound guard body s).bind (rounds k)

variable {guard body} {s s' s'' : σ} {k n : Nat}

theorem oneRound_some (h : oneRound guard body s = some s') :
    (guard s).1 = true ∧ body (guard s).2 = .next s' := by
  unfold oneRound at h
  split at h
  · next hgoing =>
    refine ⟨hgoing, ?_⟩
    split at h
    · next hbody => rw [hbody, Option.some.inj h]
    · cases h
    · cases h
  · cases h

theorem rounds_add (j k : Nat) (s : σ) :
    rounds guard body (j + k) s = (rounds guard body j s).bind (rounds guard body k) := by
  induction j generalizing s with
  | zero => rw [Nat.zero_add, rounds, Option.bind_some]
  | succ j ih =>
    rw [Nat.succ_add, rounds, rounds, Option.bind_assoc]
    exact congrArg _ (funext ih)

theorem rounds_succ (k : Nat) (s : σ) :
    rounds guard body (k + 1) s = (rounds guard body k s).bind (oneRound guard body) := by
  rw [rounds_add]
  refine congrArg _ (funext fun t => ?_)
  rw [rounds]
  cases oneRound guard body t with
  | none => rfl
  | some t => rfl

/-- Past a round that does not go on there are no others. -/
theorem rounds_stuck {j : Nat} (h : rounds guard body k s = some s')
    (hnone : oneRound guard body s' = none) (hj : k < j) : rounds guard body j s = none := by
  obtain ⟨m, rfl⟩ : ∃ m, j = k + (m + 1) := ⟨j - k - 1, by omega⟩
  rw [rounds_add, h, Option.bind_some, rounds, hnone, Option.bind_none]

/-- What makes every round go on, and is kept by it, makes all of them. -/
theorem rounds_of_invariant (Inv : σ → Prop)
    (hstep : ∀ s, Inv s → ∃ s', oneRound guard body s = some s' ∧ Inv s') (n : Nat) (h : Inv s) :
    ∃ s', rounds guard body n s = some s' ∧ Inv s' := by
  induction n generalizing s with
  | zero => exact ⟨s, rfl, h⟩
  | succ n ih =>
    obtain ⟨t, hround, ht⟩ := hstep s h
    obtain ⟨s', hrounds, h'⟩ := ih ht
    exact ⟨s', by rw [rounds, hround, Option.bind_some, hrounds], h'⟩

/-- A loop whose first `k` rounds go on is the loop from there on. -/
theorem spin_rounds (h : rounds guard body k s = some s') (hk : k ≤ n) :
    spin guard body n s = spin guard body (n - k) s' := by
  induction k generalizing s n with
  | zero => rw [Option.some.inj h, Nat.sub_zero]
  | succ k ih =>
    obtain ⟨n, rfl⟩ : ∃ m, n = m + 1 := ⟨n - 1, by omega⟩
    rw [rounds] at h
    cases hround : oneRound guard body s with
    | none =>
      rw [hround] at h
      cases h
    | some t =>
      rw [hround, Option.bind_some] at h
      obtain ⟨hgoing, hbody⟩ := oneRound_some hround
      rw [spin, if_pos hgoing, hbody, Nat.succ_sub_succ]
      exact ih h (by omega)

/-- The guard ends the loop after `k` rounds. -/
theorem spin_done (h : rounds guard body k s = some s') (hk : k ≤ n) (hguard : (guard s').1 = false) :
    spin guard body n s = (.counter (UInt32.ofNat (n - k)), (guard s').2) := by
  rw [spin_rounds h hk]
  cases n - k with
  | zero => rw [spin, if_neg (by simp [hguard])]; rfl
  | succ m => rw [spin, if_neg (by simp [hguard])]

/-- The body ends the loop in the round after `k` others. -/
theorem spin_stopped (h : rounds guard body k s = some s') (hk : k < n)
    (hguard : (guard s').1 = true) (hbody : body (guard s').2 = .stop s'') :
    spin guard body n s = (.counter (UInt32.ofNat (n - k - 1)), s'') := by
  rw [spin_rounds h (by omega)]
  obtain ⟨m, hm⟩ : ∃ m, n - k = m + 1 := ⟨n - k - 1, by omega⟩
  rw [hm, spin, if_pos hguard, hbody]
  rfl

theorem spin_exited {e : ε} (h : rounds guard body k s = some s') (hk : k < n)
    (hguard : (guard s').1 = true) (hbody : body (guard s').2 = .exit e s'') :
    spin guard body n s = (.exit e, s'') := by
  rw [spin_rounds h (by omega)]
  obtain ⟨m, hm⟩ : ∃ m, n - k = m + 1 := ⟨n - k - 1, by omega⟩
  rw [hm, spin, if_pos hguard, hbody]

/-- The budget ends the loop: the counter wraps below zero. -/
theorem spin_spent (h : rounds guard body n s = some s') (hguard : (guard s').1 = true) :
    spin guard body n s = (.counter 0xFFFFFFFF, (guard s').2) := by
  rw [spin_rounds h (Nat.le_refl n), Nat.sub_self, spin, if_pos hguard]
  rfl

theorem spin_keeps (Inv : σ → Prop) (hguard : ∀ s, Inv s → Inv (guard s).2)
    (hbody : ∀ s, Inv s → Inv (body s).state) (n : Nat) (h : Inv s) :
    Inv (spin guard body n s).2 := by
  induction n generalizing s with
  | zero => exact hguard s h
  | succ n ih =>
    have hnext := hbody _ (hguard s h)
    rw [spin]
    split
    · cases hround : body (guard s).2 with
      | next t =>
        rw [hround] at hnext
        exact ih hnext
      | stop t =>
        rw [hround] at hnext
        exact hnext
      | exit e t =>
        rw [hround] at hnext
        exact hnext
    · exact hguard s h

/-- Either all the rounds go on, or there is a first one that does not. -/
theorem rounds_total (guard : σ → Bool × σ) (body : σ → Round ε σ) (n : Nat) (s : σ) :
    (∃ s', rounds guard body n s = some s') ∨
      ∃ k < n, ∃ s', rounds guard body k s = some s' ∧ oneRound guard body s' = none := by
  induction n generalizing s with
  | zero => exact Or.inl ⟨s, rfl⟩
  | succ n ih =>
    cases hround : oneRound guard body s with
    | none => exact Or.inr ⟨0, by omega, s, rfl, hround⟩
    | some t =>
      rcases ih t with ⟨s', h⟩ | ⟨k, hk, s', h, hnone⟩
      · exact Or.inl ⟨s', by rw [rounds, hround, Option.bind_some, h]⟩
      · exact Or.inr ⟨k + 1, by omega, s', by rw [rounds, hround, Option.bind_some, h], hnone⟩

/-- A round that does not go on ends one way or the other. -/
theorem oneRound_none (h : oneRound guard body s = none) :
    (guard s).1 = false ∨ (guard s).1 = true ∧
      ((∃ s', body (guard s).2 = .stop s') ∨ ∃ e s', body (guard s).2 = .exit e s') := by
  unfold oneRound at h
  split at h
  · next hgoing =>
    refine Or.inr ⟨hgoing, ?_⟩
    split at h
    · cases h
    · next t hbody => exact Or.inl ⟨t, hbody⟩
    · next e t hbody => exact Or.inr ⟨e, t, hbody⟩
  · next hgoing => exact Or.inl (by simpa using hgoing)

/-- A counter that counts down from a budget of 32 bits is 0 at its end only. -/
theorem counter_eq_zero (hn : n < 4294967296) : UInt32.ofNat n = 0 ↔ n = 0 := by
  rw [← UInt32.toNat_inj, UInt32.toNat_ofNat', Nat.mod_eq_of_lt hn]
  rfl

end

/-! ## Streams of polls -/

/-- What is left of a stream after `n` reads. -/
def after {α : Type} (reads : Nat → α) (n : Nat) : Nat → α := fun i => reads (n + i)

@[simp] theorem after_apply {α : Type} (reads : Nat → α) (n i : Nat) :
    after reads n i = reads (n + i) := rfl

@[simp] theorem after_zero {α : Type} (reads : Nat → α) : after reads 0 = reads := by
  funext i
  rw [after_apply, Nat.zero_add]

@[simp] theorem after_after {α : Type} (reads : Nat → α) (m n : Nat) :
    after (after reads m) n = after reads (m + n) := by
  funext i
  simp only [after_apply, Nat.add_assoc]

/-- The guard that reads one poll. -/
def readPoll (polls : Nat → Bool) : Bool × (Nat → Bool) := (polls 0, after polls 1)

/-- The empty body. -/
def skip (polls : Nat → Bool) : Round UInt32 (Nat → Bool) := .next polls

/-- `while (poll && budget--) ;`, the counter after it and the polls left. -/
def pollWhile (n : Nat) (polls : Nat → Bool) : UInt32 × (Nat → Bool) :=
  match spin readPoll skip n polls with
  | (.counter left, polls) => (left, polls)
  | (.exit left, polls) => (left, polls)

/-- The first `n` polls go on. -/
def Stays (polls : Nat → Bool) (n : Nat) : Prop := ∀ k < n, polls k = true

/-- Poll `k` is the first that does not. -/
def EndsAt (polls : Nat → Bool) (k : Nat) : Prop := Stays polls k ∧ polls k = false

theorem stays_or_endsAt (polls : Nat → Bool) (n : Nat) :
    Stays polls n ∨ ∃ k < n, EndsAt polls k := by
  induction n with
  | zero => exact Or.inl fun k hk => absurd hk (by omega)
  | succ n ih =>
    rcases ih with hstays | ⟨k, hk, hends⟩
    · cases hn : polls n with
      | true =>
        refine Or.inl fun k hk => ?_
        rcases Nat.lt_succ_iff_lt_or_eq.mp hk with hlt | rfl
        · exact hstays k hlt
        · exact hn
      | false => exact Or.inr ⟨n, by omega, hstays, hn⟩
    · exact Or.inr ⟨k, by omega, hends⟩

theorem EndsAt.not_stays {polls : Nat → Bool} {k n : Nat} (h : EndsAt polls k) (hk : k < n) :
    ¬ Stays polls n := by
  intro hstays
  have htrue := hstays k hk
  rw [h.2] at htrue
  cases htrue

theorem rounds_readPoll {polls : Nat → Bool} {k : Nat} (h : Stays polls k) :
    rounds readPoll skip k polls = some (after polls k) := by
  induction k generalizing polls with
  | zero => rw [rounds, after_zero]
  | succ k ih =>
    have hfirst : oneRound readPoll skip polls = some (after polls 1) := by
      have hgoing : (readPoll polls).1 = true := h 0 (by omega)
      rw [oneRound, if_pos hgoing]
      rfl
    have hrest : Stays (after polls 1) k := by
      intro j hj
      exact h (1 + j) (by omega)
    rw [rounds, hfirst, Option.bind_some, ih hrest, after_after, Nat.add_comm]

theorem pollWhile_endsAt {polls : Nat → Bool} {k n : Nat} (h : EndsAt polls k) (hk : k ≤ n) :
    pollWhile n polls = (UInt32.ofNat (n - k), after polls (k + 1)) := by
  have hspin := spin_done (rounds_readPoll h.1) hk h.2
  rw [pollWhile, hspin]
  simp only [readPoll, after_after]

/-- All the polls of the budget go on, and so does the one that finds it spent. -/
theorem pollWhile_stays {polls : Nat → Bool} {n : Nat} (h : Stays polls (n + 1)) :
    pollWhile n polls = (0xFFFFFFFF, after polls (n + 1)) := by
  have hfirst : Stays polls n := fun k hk => h k (by omega)
  have hspin := spin_spent (rounds_readPoll hfirst) (h n (by omega))
  rw [pollWhile, hspin]
  simp only [readPoll, after_after]

/-- What the test of the counter finds out: whether the poll after the budget is the
first that ends the wait. -/
theorem pollWhile_zero_iff {polls : Nat → Bool} {n : Nat} (hn : n < 4294967296) :
    (pollWhile n polls).1 = 0 ↔ EndsAt polls n := by
  rcases stays_or_endsAt polls (n + 1) with hstays | ⟨k, hk, hends⟩
  · rw [pollWhile_stays hstays]
    have hwrapped : ¬ (0xFFFFFFFF : UInt32) = 0 := by decide
    refine iff_of_false hwrapped fun h => ?_
    exact h.not_stays (Nat.lt_succ_self n) hstays
  · rw [pollWhile_endsAt hends (by omega)]
    simp only
    rw [counter_eq_zero (by omega)]
    constructor
    · intro hzero
      rwa [show k = n by omega] at hends
    · intro h
      have hnot : ¬ k < n := fun hlt => hends.not_stays hlt h.1
      omega

end NavHAL.Polling
