import Mathlib.Data.List.Nodup

/-!
# Matching a pattern of distinct symbols

A matcher keeps how much of the pattern it has seen and, on a mismatch,
retries the symbol against the first one only.  For a pattern without
repetitions that is enough: the position is always the longest proper prefix
of the pattern that ends the stream (`Matched`), and the matcher fires exactly
when the whole pattern does (`Matched.fires_iff`).
-/

namespace NavHAL.Matcher

variable {α : Type}

/-- `pos` is the longest proper prefix of the pattern that ends the stream. -/
structure Matched (pat stream : List α) (pos : Nat) : Prop where
  lt : pos < pat.length
  ends : pat.take pos <:+ stream
  longest : ∀ j, j < pat.length → pat.take j <:+ stream → j ≤ pos

variable {pat stream : List α} {pos : Nat} {b : α}

theorem matched_nil (h : 0 < pat.length) : Matched pat [] 0 where
  lt := h
  ends := List.nil_suffix
  longest := by
    intro j hj hends
    have hlen := hends.length_le
    rw [List.length_take, List.length_nil] at hlen
    omega

theorem take_succ_ends {j : Nat} (hj : j < pat.length) :
    pat.take (j + 1) <:+ stream ++ [b] ↔ pat.take j <:+ stream ∧ pat[j]? = some b := by
  rw [List.take_succ_eq_append_getElem hj,
    List.suffix_append_inj_of_length_eq (show [pat[j]].length = [b].length from rfl),
    List.getElem?_eq_getElem hj]
  simp

theorem pattern_ends (h : 0 < pat.length) :
    pat <:+ stream ++ [b] ↔
      pat.take (pat.length - 1) <:+ stream ∧ pat[pat.length - 1]? = some b := by
  rw [← take_succ_ends (by omega), Nat.sub_add_cancel h, List.take_length]

/-- A symbol has one place in the pattern. -/
theorem index_unique (hnodup : pat.Nodup) {i j : Nat} (hi : pat[i]? = some b)
    (hj : pat[j]? = some b) : i = j := by
  obtain ⟨hilt, hi'⟩ := List.getElem?_eq_some_iff.mp hi
  obtain ⟨hjlt, hj'⟩ := List.getElem?_eq_some_iff.mp hj
  exact (hnodup.getElem_inj_iff).mp (hi'.trans hj'.symm)

/-- A shorter prefix that also ends the stream is empty. -/
theorem Matched.shorter (hnodup : pat.Nodup) (h : Matched pat stream pos) {j : Nat}
    (hends : pat.take j <:+ stream) (hlt : j < pos) : j = 0 := by
  cases j with
  | zero => rfl
  | succ j =>
    obtain ⟨i, rfl⟩ : ∃ i, pos = i + 1 := ⟨pos - 1, by omega⟩
    have hpos := h.lt
    have hends' : pat.take (j + 1) <:+ pat.take (i + 1) := by
      apply List.suffix_of_suffix_length_le hends h.ends
      rw [List.length_take, List.length_take]
      omega
    rw [List.take_succ_eq_append_getElem (show i < pat.length by omega),
      take_succ_ends (by omega)] at hends'
    have hsame := index_unique hnodup hends'.2 (List.getElem?_eq_getElem (by omega))
    omega

variable [DecidableEq α]

/-- One symbol: the next position, and whether the pattern is complete. -/
def resync (pat : List α) (pos : Nat) (b : α) : Nat × Bool :=
  if pat[pos]? = some b then
    if pos + 1 = pat.length then (0, true) else (pos + 1, false)
  else (if pat[0]? = some b then 1 else 0, false)

/-- **The matcher fires exactly when the pattern ends the stream.** -/
theorem Matched.fires_iff (h : Matched pat stream pos) :
    (resync pat pos b).2 = true ↔ pat <:+ stream ++ [b] := by
  have hlt := h.lt
  rw [pattern_ends (by omega)]
  constructor
  · intro hfires
    unfold resync at hfires
    split at hfires
    · next hnext =>
      split at hfires
      · next hlast =>
        rw [show pat.length - 1 = pos by omega]
        exact ⟨h.ends, hnext⟩
      · cases hfires
    · cases hfires
  · rintro ⟨hends, hlast⟩
    have hle := h.longest _ (by omega) hends
    have hpos : pos = pat.length - 1 := by omega
    rw [resync, hpos, if_pos hlast, if_pos (by omega)]

/-- **Single-symbol resync keeps the longest prefix.** -/
theorem Matched.step (hnodup : pat.Nodup) (h : Matched pat stream pos) (b : α) :
    Matched pat (stream ++ [b]) (resync pat pos b).1 := by
  have hlt := h.lt
  unfold resync
  split
  · next hnext =>
    have honly : ∀ j, j < pat.length → pat.take j <:+ stream ++ [b] → j = 0 ∨ j = pos + 1 := by
      intro j hj hends
      cases j with
      | zero => exact Or.inl rfl
      | succ j =>
        have hsame := index_unique hnodup ((take_succ_ends (by omega)).mp hends).2 hnext
        exact Or.inr (by omega)
    split
    · next hlast =>
      refine ⟨by omega, List.nil_suffix, ?_⟩
      intro j hj hends
      rcases honly j hj hends with hzero | hsucc
      · exact Nat.le_of_eq hzero
      · omega
    · next hmore =>
      refine ⟨by dsimp only; omega, (take_succ_ends hlt).mpr ⟨h.ends, hnext⟩, ?_⟩
      intro j hj hends
      rcases honly j hj hends with hzero | hsucc
      · omega
      · exact Nat.le_of_eq hsucc
  · next hmiss =>
    split
    · next hfirst =>
      have hpos : pos ≠ 0 := by
        rintro rfl
        exact hmiss hfirst
      refine ⟨by dsimp only; omega, (take_succ_ends (by omega)).mpr ⟨List.nil_suffix, hfirst⟩, ?_⟩
      intro j hj hends
      cases j with
      | zero => omega
      | succ j =>
        have hsame := index_unique hnodup ((take_succ_ends (by omega)).mp hends).2 hfirst
        dsimp only
        omega
    · next hnofirst =>
      refine ⟨by dsimp only; omega, List.nil_suffix, ?_⟩
      intro j hj hends
      cases j with
      | zero => exact Nat.le_refl 0
      | succ j =>
        -- a shorter prefix would have to start over at this symbol
        obtain ⟨hshort, hsymbol⟩ := (take_succ_ends (by omega)).mp hends
        have hle := h.longest j (by omega) hshort
        have hne : j ≠ pos := by
          rintro rfl
          exact hmiss hsymbol
        have hzero := h.shorter hnodup hshort (by omega)
        subst hzero
        exact absurd hsymbol hnofirst

end NavHAL.Matcher
