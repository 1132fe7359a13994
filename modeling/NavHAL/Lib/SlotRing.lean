import NavHAL.Lib.Ring

/-!
# Rings whose slots say whether they are full

A queue in `n` slots, each empty or holding one element: the producer fills the
slot `tail`, the consumer empties the slot `head`, and neither knows the index
of the other.  `Queue n slot head tail xs` says that the slots from `head` on
hold `xs`, oldest first, and all others are empty; all `n` slots can be full.
-/

namespace NavHAL.SlotRing

variable {α : Type} {n : Nat} {slot : Nat → Option α} {head tail : Nat} {xs : List α}

structure Queue (n : Nat) (slot : Nat → Option α) (head tail : Nat) (xs : List α) : Prop where
  length_le : xs.length ≤ n
  head_lt : head < n
  tail_eq : tail = (head + xs.length) % n
  slots : ∀ i < n, slot ((head + i) % n) = xs[i]?

/-- A slot, with a new content. -/
def set (slot : Nat → Option α) (k : Nat) (x : Option α) : Nat → Option α :=
  fun i => if i = k then x else slot i

theorem queue_nil (hn : 0 < n) (hslot : ∀ i < n, slot i = none) : Queue n slot 0 0 [] where
  length_le := Nat.zero_le n
  head_lt := hn
  tail_eq := (Nat.zero_mod n).symm
  slots i hi := by
    rw [Nat.zero_add, Nat.mod_eq_of_lt hi]
    exact hslot i hi

theorem Queue.congr {slot' : Nat → Option α} (h : Queue n slot head tail xs)
    (hslot : ∀ i < n, slot' i = slot i) : Queue n slot' head tail xs where
  length_le := h.length_le
  head_lt := h.head_lt
  tail_eq := h.tail_eq
  slots i hi := by
    rw [hslot _ (Nat.mod_lt _ (Nat.zero_lt_of_lt hi))]
    exact h.slots i hi

theorem Queue.tail_lt (h : Queue n slot head tail xs) : tail < n := by
  rw [h.tail_eq]
  exact Nat.mod_lt _ (Nat.zero_lt_of_lt h.head_lt)

/-- The slot that the consumer looks at. -/
theorem Queue.head_slot (h : Queue n slot head tail xs) : slot head = xs.head? := by
  have hslot := h.slots 0 (Nat.zero_lt_of_lt h.head_lt)
  rwa [Nat.add_zero, Nat.mod_eq_of_lt h.head_lt, ← List.head?_eq_getElem?] at hslot

/-- Every slot is some number of slots after the head. -/
theorem Queue.reached (h : Queue n slot head tail xs) {k : Nat} (hk : k < n) :
    ∃ i < n, k = (head + i) % n := by
  have hlt := h.head_lt
  by_cases hle : head ≤ k
  · refine ⟨k - head, by omega, ?_⟩
    rw [Nat.add_sub_cancel' hle, Nat.mod_eq_of_lt hk]
  · refine ⟨k + n - head, by omega, ?_⟩
    rw [show head + (k + n - head) = k + n by omega, Nat.add_mod_right, Nat.mod_eq_of_lt hk]

/-- The slot that the producer looks at is full exactly when all are. -/
theorem Queue.tail_full_iff (h : Queue n slot head tail xs) :
    (slot tail).isSome ↔ ∀ k < n, (slot k).isSome := by
  refine ⟨fun hfull k hk => ?_, fun hall => hall tail h.tail_lt⟩
  have hlen : xs.length = n := by
    refine Nat.le_antisymm h.length_le (Nat.le_of_not_lt fun hlt => ?_)
    rw [h.tail_eq, h.slots _ hlt, List.getElem?_eq_none (Nat.le_refl _)] at hfull
    cases hfull
  obtain ⟨i, hi, rfl⟩ := h.reached hk
  rw [h.slots i hi, List.getElem?_eq_getElem (hlen ▸ hi)]
  rfl

theorem Queue.length_lt (h : Queue n slot head tail xs) (hempty : slot tail = none) :
    xs.length < n := by
  refine Nat.lt_of_le_of_ne h.length_le fun hlen => ?_
  have hzero := h.head_slot
  rw [h.tail_eq, hlen, Nat.add_mod_right, Nat.mod_eq_of_lt h.head_lt, hzero,
    List.head?_eq_none_iff] at hempty
  rw [hempty] at hlen
  exact absurd h.head_lt (by rw [← hlen]; exact Nat.not_lt_zero _)

/-- Two offsets within the ring are of one slot only if they are equal. -/
theorem offset_inj {i j : Nat} (hhead : head < n) (hi : i < n) (hj : j < n)
    (h : (head + i) % n = (head + j) % n) : i = j := by
  rw [Ring.wrap_eq (by omega), Ring.wrap_eq (by omega)] at h
  split at h <;> split at h <;> omega

/-- The producer fills its slot and goes on to the next. -/
theorem Queue.push (h : Queue n slot head tail xs) (hempty : slot tail = none) (x : α) :
    Queue n (set slot tail (some x)) head ((tail + 1) % n) (xs ++ [x]) where
  length_le := by
    rw [List.length_append]
    exact h.length_lt hempty
  head_lt := h.head_lt
  tail_eq := by
    rw [h.tail_eq, Nat.mod_add_mod, List.length_append, List.length_singleton, Nat.add_assoc]
  slots i hi := by
    have hroom := h.length_lt hempty
    simp only [set, h.tail_eq]
    by_cases hlast : i = xs.length
    · rw [if_pos (by rw [hlast]), hlast, List.getElem?_concat_length]
    · rw [if_neg (fun heq => hlast (offset_inj h.head_lt hi hroom heq)), h.slots i hi]
      by_cases hlt : i < xs.length
      · rw [List.getElem?_append_left hlt]
      · rw [List.getElem?_eq_none (by omega), List.getElem?_eq_none
          (by rw [List.length_append, List.length_singleton]; omega)]

/-- The consumer empties its slot and goes on to the next. -/
theorem Queue.pop {x : α} (h : Queue n slot head tail (x :: xs)) :
    Queue n (set slot head none) ((head + 1) % n) tail xs where
  length_le := Nat.le_of_succ_le h.length_le
  head_lt := Nat.mod_lt _ (Nat.zero_lt_of_lt h.head_lt)
  tail_eq := by
    rw [h.tail_eq, Nat.mod_add_mod, List.length_cons, Nat.add_assoc, Nat.add_comm 1]
  slots i hi := by
    rw [Nat.mod_add_mod, Nat.add_assoc, Nat.add_comm 1]
    simp only [set]
    have hlen := h.length_le
    rw [List.length_cons] at hlen
    by_cases hlast : i + 1 = n
    · rw [hlast, Nat.add_mod_right, Nat.mod_eq_of_lt h.head_lt, if_pos rfl,
        List.getElem?_eq_none (by omega)]
    · have hne : (head + (i + 1)) % n ≠ head := fun heq => by
        have hzero : (head + (i + 1)) % n = (head + 0) % n := by
          rw [heq, Nat.add_zero, Nat.mod_eq_of_lt h.head_lt]
        exact Nat.succ_ne_zero i (offset_inj h.head_lt (by omega) (by omega) hzero)
      rw [if_neg hne, h.slots (i + 1) (by omega), List.getElem?_cons_succ]

end NavHAL.SlotRing
