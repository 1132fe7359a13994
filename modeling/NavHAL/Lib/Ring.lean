/-!
# Ring buffers with one slot kept free

`head` is where the next element goes, `tail` where the next one comes from;
equal indices mean empty, so a ring of `n` slots holds `n - 1` elements.
`Holds r xs` says that the elements are `xs`, oldest first.
-/

namespace NavHAL

structure Ring (α : Type) (n : Nat) where
  buf : Nat → α
  head : Nat
  tail : Nat
  head_lt : head < n
  tail_lt : tail < n

namespace Ring

variable {α : Type} {n : Nat}

/-- Append an element; `none` when the ring is full. -/
def push (r : Ring α n) (x : α) : Option (Ring α n) :=
  if (r.head + 1) % n = r.tail then none
  else some
    { r with
      buf := fun i => if i = r.head then x else r.buf i
      head := (r.head + 1) % n
      head_lt := Nat.mod_lt _ (Nat.zero_lt_of_lt r.head_lt) }

/-- Take the oldest element; `none` when the ring is empty. -/
def pop (r : Ring α n) : Option (α × Ring α n) :=
  if r.tail = r.head then none
  else some (r.buf r.tail,
    { r with
      tail := (r.tail + 1) % n
      tail_lt := Nat.mod_lt _ (Nat.zero_lt_of_lt r.tail_lt) })

structure Holds (r : Ring α n) (xs : List α) : Prop where
  length_lt : xs.length < n
  head_eq : r.head = (r.tail + xs.length) % n
  slots : ∀ i (h : i < xs.length), r.buf ((r.tail + i) % n) = xs[i]

/-- How many elements there are. -/
def used (r : Ring α n) : Nat := (r.head + n - r.tail) % n

/-- The elements, oldest first. -/
def contents (r : Ring α n) : List α := (List.range r.used).map fun i => r.buf ((r.tail + i) % n)

/-! ## Indices -/

theorem wrap_eq {i : Nat} (h : i < 2 * n) : i % n = if i < n then i else i - n := by
  split
  · next hlt => exact Nat.mod_eq_of_lt hlt
  · next hge =>
    rw [Nat.mod_eq_sub_mod (Nat.le_of_not_lt hge)]
    exact Nat.mod_eq_of_lt (by omega)

/-! ## What a ring holds -/

variable {r : Ring α n} {xs : List α}

theorem holds_empty (h : r.tail = r.head) : Holds r [] := by
  refine ⟨Nat.zero_lt_of_lt r.head_lt, ?_, ?_⟩
  · rw [List.length_nil, Nat.add_zero, Nat.mod_eq_of_lt r.tail_lt, h]
  · intro i hi
    cases hi

theorem Holds.empty_iff (h : Holds r xs) : r.tail = r.head ↔ xs = [] := by
  have hlt := h.length_lt
  have htail := r.tail_lt
  have hhead := h.head_eq
  rw [wrap_eq (by omega)] at hhead
  constructor
  · intro heq
    apply List.eq_nil_of_length_eq_zero
    split at hhead <;> omega
  · rintro rfl
    rw [List.length_nil] at hhead
    split at hhead <;> omega

theorem Holds.used_eq (h : Holds r xs) : r.used = xs.length := by
  have hlt := h.length_lt
  have htail := r.tail_lt
  have hhead := h.head_eq
  rw [wrap_eq (by omega)] at hhead
  rw [used, wrap_eq (by have := r.head_lt; omega)]
  split at hhead <;> split <;> omega

theorem Holds.contents_eq (h : Holds r xs) : r.contents = xs := by
  apply List.ext_getElem
  · rw [contents, List.length_map, List.length_range, h.used_eq]
  · intro i _ hi
    simp only [contents, List.getElem_map, List.getElem_range]
    exact h.slots i hi

theorem length_contents (r : Ring α n) : r.contents.length = r.used := by
  rw [contents, List.length_map, List.length_range]

/-- A ring holds what it contains. -/
theorem holds_contents (r : Ring α n) : Holds r r.contents := by
  have hhead := r.head_lt
  have htail := r.tail_lt
  refine ⟨?_, ?_, ?_⟩
  · rw [length_contents]
    exact Nat.mod_lt _ (Nat.zero_lt_of_lt hhead)
  · rw [length_contents, used, Nat.add_mod_mod,
      show r.tail + (r.head + n - r.tail) = r.head + n by omega, Nat.add_mod_right,
      Nat.mod_eq_of_lt hhead]
  · intro i hi
    simp only [contents, List.getElem_map, List.getElem_range]

/-- A ring with room takes one more element. -/
theorem Holds.push (h : Holds r xs) (x : α) (hroom : xs.length + 1 < n) :
    ∃ r', r.push x = some r' ∧ Holds r' (xs ++ [x]) := by
  obtain ⟨hlt, hhead, hslots⟩ := h
  have htail := r.tail_lt
  have hheadlt := r.head_lt
  have hnext : (r.head + 1) % n ≠ r.tail := by
    rw [wrap_eq (by omega)] at hhead ⊢
    split <;> split at hhead <;> omega
  refine ⟨_, if_neg hnext, ?_, ?_, ?_⟩
  · rwa [List.length_append]
  · show (r.head + 1) % n = (r.tail + (xs ++ [x]).length) % n
    rw [List.length_append, List.length_singleton, hhead, Nat.mod_add_mod, Nat.add_assoc]
  · intro i hi
    dsimp only
    rw [List.length_append, List.length_singleton] at hi
    by_cases hold : i < xs.length
    · have hne : (r.tail + i) % n ≠ r.head := by
        rw [hhead, wrap_eq (by omega), wrap_eq (by omega)]
        split <;> split <;> omega
      rw [if_neg hne, hslots i hold, List.getElem_append_left hold]
    · obtain rfl : i = xs.length := by omega
      rw [if_pos hhead.symm]
      simp

/-- A full one does not. -/
theorem Holds.push_full (h : Holds r xs) (x : α) (hfull : xs.length + 1 = n) :
    r.push x = none := by
  have hhead := h.head_eq
  have htail := r.tail_lt
  have hheadlt := r.head_lt
  apply if_pos
  rw [wrap_eq (by omega)] at hhead ⊢
  split <;> split at hhead <;> omega

theorem Holds.pop_nil (h : Holds r []) : r.pop = none := if_pos (h.empty_iff.mpr rfl)

theorem Holds.pop_cons {x : α} (h : Holds r (x :: xs)) :
    ∃ r', r.pop = some (x, r') ∧ Holds r' xs := by
  have hne : ¬ r.tail = r.head := by
    rw [h.empty_iff]
    exact List.cons_ne_nil _ _
  obtain ⟨hlt, hhead, hslots⟩ := h
  rw [List.length_cons] at hlt hhead
  have hfirst := hslots 0 (by rw [List.length_cons]; omega)
  rw [Nat.add_zero, Nat.mod_eq_of_lt r.tail_lt] at hfirst
  refine ⟨⟨r.buf, r.head, (r.tail + 1) % n, r.head_lt,
    Nat.mod_lt _ (Nat.zero_lt_of_lt r.tail_lt)⟩, ?_, ?_⟩
  · rw [pop, if_neg hne, hfirst]
    rfl
  · refine ⟨by omega, ?_, ?_⟩
    · dsimp only
      rw [hhead, Nat.mod_add_mod]
      congr 1
      omega
    · intro i hi
      dsimp only
      have hslot := hslots (i + 1) (by rw [List.length_cons]; omega)
      rw [List.getElem_cons_succ] at hslot
      rw [Nat.mod_add_mod, ← hslot]
      congr 2
      omega

end Ring

end NavHAL
