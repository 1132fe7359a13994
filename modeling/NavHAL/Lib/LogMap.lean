import Mathlib.Logic.Function.Basic

/-!
# Finite maps as logs of entries

A log is a list of entries, some live and some dead.  The entry a key reads
is the first live one that carries it (`owner`), and its value is what the
entry decodes to (`lookup`).  When no two live entries share a key (`Uniq`),

* killing the owner of a key makes the key unreadable (`lookup_killOwner`);
* appending a live entry for a key without an owner sets the key
  (`lookup_append_live`), appending a dead one changes nothing;
* dropping the dead entries changes nothing (`lookup_compact`).
-/

namespace NavHAL.LogMap

/-- How a log entry carries a key and a value. -/
structure EntrySpec (ε κ ν : Type) where
  key : ε → κ
  live : ε → Bool
  value : ε → Option ν
  kill : ε → ε
  live_kill : ∀ e, live (kill e) = false

variable {ε κ ν : Type} (S : EntrySpec ε κ ν)

/-- The live entries only, in order. -/
def compact (l : List ε) : List ε := l.filter S.live

/-- No two live entries carry the same key. -/
def Uniq (l : List ε) : Prop :=
  l.Pairwise fun a b => S.live a = true → S.live b = true → S.key a ≠ S.key b

/-! ## Uniqueness is kept -/

variable {S}

theorem uniq_nil : Uniq S [] := List.Pairwise.nil

theorem Uniq.compact {l : List ε} (h : Uniq S l) : Uniq S (compact S l) :=
  List.Pairwise.filter S.live h

theorem Uniq.append_dead {l : List ε} {e : ε} (h : Uniq S l) (hdead : S.live e = false) :
    Uniq S (l ++ [e]) := by
  refine List.pairwise_append.mpr ⟨h, by simp, ?_⟩
  intro a _ b hb _ hlb
  rw [List.mem_singleton.mp hb, hdead] at hlb
  exact absurd hlb (by simp)

theorem Uniq.kill {pre post : List ε} {e : ε} (h : Uniq S (pre ++ e :: post)) :
    Uniq S (pre ++ S.kill e :: post) := by
  obtain ⟨hpre, htail, hcross⟩ := List.pairwise_append.mp h
  obtain ⟨_, hpost⟩ := List.pairwise_cons.mp htail
  have hdead : ¬ S.live (S.kill e) = true := by simp [S.live_kill]
  refine List.pairwise_append.mpr ⟨hpre, List.pairwise_cons.mpr ⟨?_, hpost⟩, ?_⟩
  · intro b _ hl
    exact absurd hl hdead
  · intro a ha b hb hla hlb
    rcases List.mem_cons.mp hb with rfl | hb
    · exact absurd hlb hdead
    · exact hcross a ha b (List.mem_cons_of_mem _ hb) hla hlb

/-! ## Owners and readings -/

variable [DecidableEq κ]

variable (S) in
/-- `e` is live and carries `k`. -/
def Owns (k : κ) (e : ε) : Bool := S.live e && decide (S.key e = k)

variable (S) in
/-- The first live entry of `k`. -/
def owner (l : List ε) (k : κ) : Option ε := l.find? (Owns S k)

variable (S) in
/-- What reading `k` yields. -/
def lookup (l : List ε) (k : κ) : Option ν := (owner S l k).bind S.value

theorem owns_iff {k : κ} {e : ε} : Owns S k e = true ↔ S.live e = true ∧ S.key e = k := by
  simp [Owns]

theorem not_owns_kill (k : κ) (e : ε) : Owns S k (S.kill e) = false := by
  simp [Owns, S.live_kill]

theorem owner_eq_none_iff {l : List ε} {k : κ} :
    owner S l k = none ↔ ∀ e ∈ l, S.live e = true → S.key e ≠ k := by
  simp [owner, List.find?_eq_none, Owns]

/-- A key that has an owner splits the log at it. -/
theorem owner_split {l : List ε} {k : κ} {e : ε} (h : owner S l k = some e) :
    ∃ pre post, l = pre ++ e :: post ∧ S.live e = true ∧ S.key e = k ∧
      owner S pre k = none := by
  obtain ⟨he, pre, post, hl, hpre⟩ := List.find?_eq_some_iff_append.mp h
  obtain ⟨hlive, hkey⟩ := owns_iff.mp he
  refine ⟨pre, post, hl, hlive, hkey, owner_eq_none_iff.mpr ?_⟩
  intro a ha hla hka
  have hno := hpre a ha
  rw [owns_iff.mpr ⟨hla, hka⟩] at hno
  exact absurd hno (by simp)

theorem owner_append (l l' : List ε) (k : κ) :
    owner S (l ++ l') k = (owner S l k).or (owner S l' k) := by
  simp [owner, List.find?_append]

theorem owner_cons (e : ε) (l : List ε) (k : κ) :
    owner S (e :: l) k = if Owns S k e then some e else owner S l k := by
  cases h : Owns S k e <;> simp [owner, h]

theorem owner_compact (l : List ε) (k : κ) : owner S (compact S l) k = owner S l k := by
  induction l with
  | nil => rfl
  | cons e l ih =>
    cases hlive : S.live e with
    | true =>
      rw [show compact S (e :: l) = e :: compact S l by simp [compact, hlive], owner_cons,
        owner_cons, ih]
    | false =>
      rw [show compact S (e :: l) = compact S l by simp [compact, hlive], owner_cons, ih,
        if_neg (by simp [Owns, hlive])]

/-! ## Reading after each operation -/

theorem lookup_compact (l : List ε) : lookup S (compact S l) = lookup S l := by
  funext k
  rw [lookup, owner_compact, lookup]

theorem lookup_append_dead (l : List ε) {e : ε} (h : S.live e = false) :
    lookup S (l ++ [e]) = lookup S l := by
  funext k
  rw [lookup, owner_append, owner_cons, if_neg (by simp [Owns, h])]
  simp [lookup, owner]

/-- A fresh live entry defines its key. -/
theorem lookup_append_live {l : List ε} {e : ε} (hlive : S.live e = true)
    (hfresh : owner S l (S.key e) = none) :
    lookup S (l ++ [e]) = Function.update (lookup S l) (S.key e) (S.value e) := by
  funext k
  by_cases hk : k = S.key e
  · subst hk
    rw [lookup, owner_append, hfresh, owner_cons, if_pos (owns_iff.mpr ⟨hlive, rfl⟩)]
    simp
  · have hno : Owns S k e = false := by
      simp only [Owns, Bool.and_eq_false_iff, decide_eq_false_iff_not]
      exact Or.inr fun h => hk h.symm
    rw [lookup, owner_append, owner_cons, hno]
    simp [lookup, owner, Function.update_of_ne hk]

/-! ## Killing the owner of a key -/

variable (S) in
/-- Kill the first live entry of `k`, if there is one. -/
def killOwner (k : κ) : List ε → List ε
  | [] => []
  | e :: l => if Owns S k e then S.kill e :: l else e :: killOwner k l

theorem killOwner_of_none {l : List ε} {k : κ} (h : owner S l k = none) :
    killOwner S k l = l := by
  induction l with
  | nil => rfl
  | cons e l ih =>
    rw [owner_cons] at h
    cases he : Owns S k e with
    | true => simp [he] at h
    | false =>
      rw [he] at h
      rw [killOwner, he, ih h]
      rfl

theorem killOwner_split {pre post : List ε} {e : ε} {k : κ} (hpre : owner S pre k = none)
    (he : Owns S k e = true) : killOwner S k (pre ++ e :: post) = pre ++ S.kill e :: post := by
  induction pre with
  | nil => simp [killOwner, he]
  | cons a pre ih =>
    rw [owner_cons] at hpre
    cases ha : Owns S k a with
    | true => simp [ha] at hpre
    | false =>
      rw [ha] at hpre
      rw [List.cons_append, killOwner, ha, ih hpre]
      rfl

theorem killOwner_append_dead {l l' : List ε} (h : ∀ e ∈ l', S.live e = false) (k : κ) :
    killOwner S k (l ++ l') = killOwner S k l ++ l' := by
  induction l with
  | nil =>
    rw [List.nil_append, killOwner_of_none]
    · rfl
    · rw [owner_eq_none_iff]
      intro e he hlive
      exact absurd hlive (by simp [h e he])
  | cons e l ih =>
    rw [List.cons_append, killOwner, killOwner, ih]
    split
    · rfl
    · rfl

/-- Killing changes no entry but kills one. -/
theorem mem_killOwner {l : List ε} {k : κ} {e : ε} (h : e ∈ killOwner S k l) :
    e ∈ l ∨ ∃ a ∈ l, e = S.kill a := by
  induction l with
  | nil => exact absurd h (List.not_mem_nil)
  | cons a l ih =>
    rw [killOwner] at h
    split at h
    · rcases List.mem_cons.mp h with rfl | hmem
      · exact Or.inr ⟨a, List.mem_cons_self, rfl⟩
      · exact Or.inl (List.mem_cons_of_mem _ hmem)
    · rcases List.mem_cons.mp h with rfl | hmem
      · exact Or.inl List.mem_cons_self
      · rcases ih hmem with hl | ⟨b, hb, rfl⟩
        · exact Or.inl (List.mem_cons_of_mem _ hl)
        · exact Or.inr ⟨b, List.mem_cons_of_mem _ hb, rfl⟩

/-- Every entry stays, alive or killed. -/
theorem killOwner_mem {l : List ε} {e : ε} (h : e ∈ l) (k : κ) :
    e ∈ killOwner S k l ∨ S.kill e ∈ killOwner S k l := by
  induction l with
  | nil => exact absurd h (List.not_mem_nil)
  | cons a l ih =>
    rw [killOwner]
    split
    · rcases List.mem_cons.mp h with rfl | hmem
      · exact Or.inr List.mem_cons_self
      · exact Or.inl (List.mem_cons_of_mem _ hmem)
    · rcases List.mem_cons.mp h with rfl | hmem
      · exact Or.inl List.mem_cons_self
      · rcases ih hmem with hl | hl
        · exact Or.inl (List.mem_cons_of_mem _ hl)
        · exact Or.inr (List.mem_cons_of_mem _ hl)

theorem Uniq.killOwner {l : List ε} (h : Uniq S l) (k : κ) : Uniq S (killOwner S k l) := by
  cases ho : owner S l k with
  | none => rwa [killOwner_of_none ho]
  | some e =>
    obtain ⟨pre, post, rfl, hlive, hkey, hpre⟩ := owner_split ho
    rw [killOwner_split hpre (owns_iff.mpr ⟨hlive, hkey⟩)]
    exact h.kill

/-- Once its owner is killed a key has none; other keys keep theirs. -/
theorem owner_killOwner {l : List ε} (h : Uniq S l) (k k' : κ) :
    owner S (LogMap.killOwner S k l) k' = if k' = k then none else owner S l k' := by
  cases ho : owner S l k with
  | none =>
    rw [killOwner_of_none ho]
    by_cases hk : k' = k
    · rw [if_pos hk, hk, ho]
    · rw [if_neg hk]
  | some e =>
    obtain ⟨pre, post, rfl, hlive, rfl, hpre⟩ := owner_split ho
    rw [killOwner_split hpre (owns_iff.mpr ⟨hlive, rfl⟩), owner_append, owner_append,
      owner_cons, owner_cons, not_owns_kill]
    by_cases hk : k' = S.key e
    · have hpost : owner S post (S.key e) = none := by
        rw [owner_eq_none_iff]
        intro a ha hla hka
        have hpair := (List.pairwise_append.mp h).2.1
        exact (List.pairwise_cons.mp hpair).1 a ha hlive hla hka.symm
      subst hk
      simp [hpre, hpost]
    · have hno : Owns S k' e = false := by
        simp only [Owns, Bool.and_eq_false_iff, decide_eq_false_iff_not]
        exact Or.inr fun h => hk h.symm
      simp [if_neg hk, hno]

theorem lookup_killOwner {l : List ε} (h : Uniq S l) (k : κ) :
    lookup S (LogMap.killOwner S k l) = Function.update (lookup S l) k none := by
  funext k'
  rw [lookup, owner_killOwner h]
  by_cases hk : k' = k
  · subst hk; simp
  · rw [if_neg hk, Function.update_of_ne hk, lookup]

theorem Uniq.append_live {l : List ε} {e : ε} (h : Uniq S l)
    (hfresh : owner S l (S.key e) = none) : Uniq S (l ++ [e]) := by
  refine List.pairwise_append.mpr ⟨h, by simp, ?_⟩
  intro a ha b hb hla _
  rw [List.mem_singleton.mp hb]
  exact owner_eq_none_iff.mp hfresh a ha hla

end NavHAL.LogMap
