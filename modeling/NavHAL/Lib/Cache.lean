/-!
# Memory behind a write-back cache

A memory of words `α` with a cache of lines of `L` words in front of it.  The
processor reads and writes through the cache; another master writes the memory
itself.  Lines may be filled and evicted at any time, and maintenance acts on
whole lines.  Some lines are never cached.

* `view` : what the processor reads;
* `view_store`, `view_fill`, `view_evict` : the processor's own operations and
  the cache's are not seen, except that an eviction shows what memory holds
  where a clean line differed from it.
-/

namespace NavHAL.Cache

structure Cached (α : Type) (L : Nat) (cacheable : Nat → Bool) where
  mem : Nat → α
  /-- The contents of the lines present, by address. -/
  data : Nat → α
  present : Nat → Bool
  dirty : Nat → Bool
  cacheable_of_present : ∀ l, present l = true → cacheable l = true

variable {α : Type} {L : Nat} {cacheable : Nat → Bool}

namespace Cached

/-- What the processor reads. -/
def view (s : Cached α L cacheable) (a : Nat) : α :=
  if s.present (a / L) = true then s.data a else s.mem a

/-- The line holds what memory does not. -/
def IsDirty (s : Cached α L cacheable) (l : Nat) : Prop :=
  s.present l = true ∧ s.dirty l = true

instance (s : Cached α L cacheable) (l : Nat) : Decidable (s.IsDirty l) :=
  inferInstanceAs (Decidable (_ ∧ _))

/-- Clean lines hold what memory holds. -/
def Consistent (s : Cached α L cacheable) : Prop :=
  ∀ a, s.present (a / L) = true → s.dirty (a / L) = false → s.data a = s.mem a

/-- A write of the processor: into the line if it is present, else to memory. -/
def store (a : Nat) (v : α) (s : Cached α L cacheable) : Cached α L cacheable :=
  if s.present (a / L) = true then
    { s with
      data := fun b => if b = a then v else s.data b
      dirty := fun l => if l = a / L then true else s.dirty l }
  else { s with mem := fun b => if b = a then v else s.mem b }

def fill (l : Nat) (s : Cached α L cacheable) : Cached α L cacheable :=
  if h : s.present l = false ∧ cacheable l = true then
    { s with
      data := fun a => if a / L = l then s.mem a else s.data a
      present := fun k => if k = l then true else s.present k
      dirty := fun k => if k = l then false else s.dirty k
      cacheable_of_present := by
        intro k hk
        by_cases hkl : k = l
        · rw [hkl, h.2]
        · rw [if_neg hkl] at hk
          exact s.cacheable_of_present k hk }
  else s

/-- Drop a line. -/
def invalidate (l : Nat) (s : Cached α L cacheable) : Cached α L cacheable :=
  { s with
    present := fun k => if k = l then false else s.present k
    cacheable_of_present := by
      intro k hk
      by_cases hkl : k = l
      · rw [if_pos hkl] at hk
        cases hk
      · rw [if_neg hkl] at hk
        exact s.cacheable_of_present k hk }

/-- Write a dirty line back. -/
def clean (l : Nat) (s : Cached α L cacheable) : Cached α L cacheable :=
  { s with
    mem := fun a => if a / L = l ∧ s.IsDirty l then s.data a else s.mem a
    dirty := fun k => if k = l then false else s.dirty k }

def evict (l : Nat) (s : Cached α L cacheable) : Cached α L cacheable := invalidate l (clean l s)

/-- A write of the other master. -/
def write (a : Nat) (v : α) (s : Cached α L cacheable) : Cached α L cacheable :=
  { s with mem := fun b => if b = a then v else s.mem b }

end Cached

open Cached

section View

variable (s : Cached α L cacheable)

theorem view_of_present {a : Nat} (h : s.present (a / L) = true) : s.view a = s.data a := if_pos h

theorem view_of_absent {a : Nat} (h : s.present (a / L) = false) : s.view a = s.mem a := by
  rw [view, h, if_neg (by decide)]

theorem view_store (a b : Nat) (v : α) :
    (store a v s).view b = if b = a then v else s.view b := by
  unfold store view
  by_cases hline : s.present (a / L) = true
  · rw [if_pos hline]
    by_cases hb : b = a
    · simp only [hb, hline, if_true]
    · simp only [if_neg hb]
  · rw [if_neg hline]
    by_cases hb : b = a
    · simp only [hb, if_neg hline, if_true]
    · simp only [if_neg hb]

theorem view_fill (l b : Nat) : (fill l s).view b = s.view b := by
  unfold fill
  split
  · next h =>
    by_cases hb : b / L = l
    · rw [view_of_absent s (by rw [hb]; exact h.1)]
      simp [view, hb]
    · simp only [view, if_neg hb]
  · rfl

theorem fill_present {l : Nat} (h : cacheable l = true) : (fill l s).present l = true := by
  unfold fill
  split
  · exact if_pos rfl
  · next hno => simpa [h] using hno

/-- Dropping a line shows what memory holds. -/
theorem view_invalidate (l b : Nat) :
    (invalidate l s).view b = if b / L = l then s.mem b else s.view b := by
  by_cases hb : b / L = l
  · simp [view, invalidate, hb]
  · simp only [view, invalidate, if_neg hb]

/-- An eviction is not seen where the line is dirty or holds what memory holds. -/
theorem view_evict {l b : Nat} (h : b / L = l → s.present l = true → s.dirty l = false →
    s.data b = s.mem b) : (evict l s).view b = s.view b := by
  rw [evict, view_invalidate]
  by_cases hb : b / L = l
  · rw [if_pos hb]
    by_cases hpresent : s.present l = true
    · rw [view_of_present s (by rw [hb]; exact hpresent)]
      by_cases hdirty : s.dirty l = true
      · exact if_pos ⟨hb, hpresent, hdirty⟩
      · refine (if_neg (fun hc => hdirty hc.2.2)).trans (h hb hpresent ?_).symm
        simpa using hdirty
    · rw [view, hb, if_neg hpresent]
      exact if_neg fun hc => hpresent hc.2.1
  · rw [if_neg hb]
    simp only [view, clean, hb, false_and, if_false]

end View

end NavHAL.Cache
