import Mathlib.Data.List.Basic

/-!
# Walking a circular buffer

A producer stores its elements one behind the other at the positions `k % n`; a consumer
walks from its tail to the head by `(tail + 1) % n`.

* `walk_ends_iff` : the walk ends just when the head is a position of the ring;
* `walk_bytes` : with fewer than `n` elements between them it meets each one once, in order.
-/

namespace NavHAL.RingWalk

variable {α : Type} {n : Nat}

/-- The positions that the consumer visits; none while it has not reached the head. -/
def walk (n head : Nat) : Nat → Nat → Option (List Nat)
  | 0, _ => none
  | fuel + 1, tail =>
    if tail = head then some [] else (walk n head fuel ((tail + 1) % n)).map (tail :: ·)

/-- Elements stored from position `k` on. -/
def storeFrom (n : Nat) : Nat → (Nat → α) → List α → Nat → α
  | _, buf, [] => buf
  | k, buf, x :: xs => storeFrom n (k + 1) (fun p => if p = k % n then x else buf p) xs

theorem mod_add_ne {m : Nat} (k : Nat) (hm : 0 < m) (hlt : m < n) : (k + m) % n ≠ k % n := by
  intro heq
  have hdiv : (k + m - k) % n = 0 := Nat.sub_mod_eq_zero_of_mod_eq heq
  rw [Nat.add_sub_cancel_left, Nat.mod_eq_of_lt hlt] at hdiv
  omega

/-- From the place of element `s` to the place of element `s + m`. -/
theorem walk_positions (s m : Nat) (h : m < n) :
    walk n ((s + m) % n) (m + 1) (s % n) = some ((List.range m).map fun i => (s + i) % n) := by
  induction m generalizing s with
  | zero => simp [walk]
  | succ m ih =>
    have hne : s % n ≠ (s + (m + 1)) % n := (mod_add_ne s (Nat.succ_pos m) h).symm
    have hnext : (s % n + 1) % n = (s + 1) % n := by rw [Nat.mod_add_mod]
    have hrest := ih (s + 1) (by omega)
    rw [show s + 1 + m = s + (m + 1) by omega] at hrest
    rw [walk, if_neg hne, hnext, hrest, List.range_succ_eq_map, List.map_cons, List.map_map]
    simp [Function.comp_def, Nat.add_assoc, Nat.add_comm 1]

/-- Once at a position of the ring the walk stays on them. -/
theorem walk_above {head : Nat} (hn : 0 < n) (hhead : n ≤ head) (fuel : Nat) {tail : Nat}
    (htail : tail < n) : walk n head fuel tail = none := by
  induction fuel generalizing tail with
  | zero => rfl
  | succ fuel ih =>
    rw [walk, if_neg (by omega), ih (Nat.mod_lt _ hn)]
    rfl

theorem walk_ends_iff (hn : 0 < n) (head : Nat) :
    (∀ tail < n, ∃ fuel visited, walk n head fuel tail = some visited) ↔ head < n := by
  constructor
  · intro h
    by_contra hle
    obtain ⟨fuel, visited, hwalk⟩ := h 0 hn
    rw [walk_above hn (Nat.not_lt.mp hle) fuel hn] at hwalk
    contradiction
  · intro hhead tail htail
    -- the head lies `m` places ahead
    obtain ⟨m, hm, hahead⟩ : ∃ m, m < n ∧ (tail + m) % n = head := by
      by_cases hle : tail ≤ head
      · refine ⟨head - tail, by omega, ?_⟩
        rw [Nat.add_sub_cancel' hle, Nat.mod_eq_of_lt hhead]
      · refine ⟨n - tail + head, by omega, ?_⟩
        rw [show tail + (n - tail + head) = head + n by omega, Nat.add_mod_right,
          Nat.mod_eq_of_lt hhead]
    have hwalk := walk_positions tail m hm
    rw [hahead, Nat.mod_eq_of_lt htail] at hwalk
    exact ⟨_, _, hwalk⟩

/-! ## What stands at the positions -/

/-- A position that nothing is stored at. -/
theorem storeFrom_other (xs : List α) (k : Nat) (buf : Nat → α) {p : Nat}
    (h : ∀ i < xs.length, p ≠ (k + i) % n) : storeFrom n k buf xs p = buf p := by
  induction xs generalizing k buf with
  | nil => rfl
  | cons x xs ih =>
    have hfirst : p ≠ k % n := h 0 (Nat.succ_pos _)
    have hrest : ∀ i < xs.length, p ≠ (k + 1 + i) % n := by
      intro i hi
      rw [Nat.add_assoc, Nat.add_comm 1]
      exact h (i + 1) (Nat.succ_lt_succ hi)
    rw [storeFrom, ih (k + 1) _ hrest, if_neg hfirst]

/-- The last `n` elements are there. -/
theorem storeFrom_getElem (xs : List α) (k : Nat) (buf : Nat → α) {i : Nat} (hi : i < xs.length)
    (hlast : xs.length ≤ i + n) : storeFrom n k buf xs ((k + i) % n) = xs[i] := by
  induction xs generalizing k buf i with
  | nil => exact absurd hi (Nat.not_lt_zero i)
  | cons x xs ih =>
    rw [List.length_cons] at hi hlast
    cases i with
    | zero =>
      have hkept : ∀ j < xs.length, (k + 0) % n ≠ (k + 1 + j) % n := by
        intro j hj
        rw [Nat.add_zero, show k + 1 + j = k + (j + 1) by omega]
        exact (mod_add_ne k (Nat.succ_pos j) (by omega)).symm
      rw [storeFrom, storeFrom_other xs (k + 1) _ hkept]
      simp
    | succ i =>
      have hrest := ih (k + 1) (fun p => if p = k % n then x else buf p)
        (Nat.lt_of_succ_lt_succ hi) (by omega)
      rw [show k + 1 + i = k + (i + 1) by omega] at hrest
      exact hrest

theorem walk_bytes (buf : Nat → α) (xs : List α) {seen : Nat} (hseen : seen ≤ xs.length)
    (hahead : xs.length - seen < n) : ∃ fuel visited,
      walk n (xs.length % n) fuel (seen % n) = some visited ∧
        visited.map (storeFrom n 0 buf xs) = xs.drop seen := by
  have hwalk := walk_positions seen (xs.length - seen) hahead
  rw [Nat.add_sub_cancel' hseen] at hwalk
  refine ⟨_, _, hwalk, ?_⟩
  apply List.ext_getElem
  · simp
  · intro i hi hi'
    simp only [List.length_map, List.length_range] at hi
    have hstored := @storeFrom_getElem α n xs 0 buf (seen + i) (by omega) (by omega)
    rw [Nat.zero_add] at hstored
    simp [hstored]

end NavHAL.RingWalk
