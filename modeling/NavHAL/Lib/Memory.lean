import Mathlib.Logic.Function.Basic

/-!
# Byte memories with and-programming

A memory maps addresses to bytes.  Programming can only clear bits, so it is
an overlay that ands the new bytes into the old ones; erasing sets a range to
`0xFF`.  `Shows mem a n img` says that the `n` bytes from `a` on read as the
list `img` followed by erased bytes; the overlay lemmas say what programming
does to such a region.
-/

namespace NavHAL.Memory

abbrev Mem := Nat → UInt8

/-- The `i`-th byte of `bytes`; past the end, what erased memory reads as. -/
def byteAt (bytes : List UInt8) (i : Nat) : UInt8 := bytes[i]?.getD 0xFF

/-- And `bytes` into the memory from address `a` on. -/
def overlay (mem : Mem) (a : Nat) (bytes : List UInt8) : Mem :=
  fun x => if a ≤ x then mem x &&& byteAt bytes (x - a) else mem x

/-- Set `[a, b)` to `0xFF`. -/
def eraseRange (mem : Mem) (a b : Nat) : Mem :=
  fun x => if a ≤ x ∧ x < b then 0xFF else mem x

/-- The `n` bytes from `a` on are `img` followed by erased bytes. -/
def Shows (mem : Mem) (a n : Nat) (img : List UInt8) : Prop :=
  ∀ i, i < n → mem (a + i) = byteAt img i

/-! ## Bytes of a list -/

theorem and_erased (b : UInt8) : b &&& 0xFF = b := by
  rw [show (0xFF : UInt8) = -1 by rfl, UInt8.and_neg_one]

theorem erased_and (b : UInt8) : 0xFF &&& b = b := by
  rw [show (0xFF : UInt8) = -1 by rfl, UInt8.neg_one_and]

@[simp] theorem byteAt_nil (i : Nat) : byteAt [] i = 0xFF := by simp [byteAt]

theorem byteAt_of_lt {bytes : List UInt8} {i : Nat} (h : i < bytes.length) :
    byteAt bytes i = bytes[i] := by simp [byteAt, h]

theorem byteAt_of_le {bytes : List UInt8} {i : Nat} (h : bytes.length ≤ i) :
    byteAt bytes i = 0xFF := by simp [byteAt, h]

theorem byteAt_append_left (xs ys : List UInt8) {i : Nat} (h : i < xs.length) :
    byteAt (xs ++ ys) i = byteAt xs i := by
  simp [byteAt, List.getElem?_append_left h]

theorem byteAt_append_right (xs ys : List UInt8) {i : Nat} (h : xs.length ≤ i) :
    byteAt (xs ++ ys) i = byteAt ys (i - xs.length) := by
  simp [byteAt, List.getElem?_append_right h]

/-! ## Overlays -/

theorem overlay_nil (mem : Mem) (a : Nat) : overlay mem a [] = mem := by
  funext x
  simp [overlay, and_erased]

theorem overlay_below (mem : Mem) {a x : Nat} (bytes : List UInt8) (h : x < a) :
    overlay mem a bytes x = mem x := by
  rw [overlay, if_neg (by omega)]

theorem overlay_above (mem : Mem) {a x : Nat} {bytes : List UInt8} (h : a + bytes.length ≤ x) :
    overlay mem a bytes x = mem x := by
  rw [overlay, if_pos (by omega), byteAt_of_le (by omega), and_erased]

/-- An overlay of concatenated bytes is one overlay after the other. -/
theorem overlay_append (mem : Mem) (a : Nat) (xs ys : List UInt8) :
    overlay mem a (xs ++ ys) = overlay (overlay mem a xs) (a + xs.length) ys := by
  funext x
  by_cases hlow : x < a
  · rw [overlay_below _ _ hlow, overlay_below _ _ (by omega), overlay_below _ _ hlow]
  · by_cases hmid : x < a + xs.length
    · rw [overlay_below _ _ hmid]
      simp only [overlay, if_pos (show a ≤ x by omega)]
      rw [byteAt_append_left xs ys (by omega)]
    · rw [overlay, if_pos (by omega), byteAt_append_right xs ys (by omega), overlay,
        if_pos (by omega), overlay_above _ (by omega)]
      congr 2
      omega

/-- An overlay of a list that is all `0xFF` changes nothing. -/
theorem overlay_replicate_erased (mem : Mem) (a n : Nat) :
    overlay mem a (List.replicate n 0xFF) = mem := by
  funext x
  have h : byteAt (List.replicate n 0xFF) (x - a) = 0xFF := by
    by_cases hx : x - a < n
    · simp [byteAt, hx]
    · exact byteAt_of_le (by simpa using Nat.not_lt.mp hx)
  simp [overlay, h, and_erased]

/-! ## Regions -/

theorem shows_of_eqOn {mem mem' : Mem} {a n : Nat} {img : List UInt8} (h : Shows mem a n img)
    (heq : ∀ x, a ≤ x → x < a + n → mem' x = mem x) : Shows mem' a n img := by
  intro i hi
  rw [heq (a + i) (by omega) (by omega)]
  exact h i hi

theorem shows_erased (mem : Mem) (a b : Nat) : Shows (eraseRange mem a b) a (b - a) [] := by
  intro i hi
  rw [eraseRange, if_pos ⟨by omega, by omega⟩, byteAt_nil]

theorem eraseRange_outside (mem : Mem) {a b x : Nat} (h : x < a ∨ b ≤ x) :
    eraseRange mem a b x = mem x := by
  rw [eraseRange, if_neg (by omega)]

/-- Reading inside the middle of a region. -/
theorem Shows.read {mem : Mem} {a n : Nat} {pre mid post : List UInt8}
    (h : Shows mem a n (pre ++ mid ++ post)) {i : Nat} (hi : i < mid.length)
    (hn : pre.length + i < n) : mem (a + pre.length + i) = mid[i] := by
  have hb := h (pre.length + i) hn
  rw [Nat.add_assoc, hb, List.append_assoc, byteAt_append_right _ _ (by omega),
    Nat.add_sub_cancel_left, byteAt_append_left _ _ hi, byteAt_of_lt hi]

/-- Past the bytes of its image a region is erased. -/
theorem Shows.read_erased {mem : Mem} {a n : Nat} {img : List UInt8} (h : Shows mem a n img)
    {i : Nat} (hi : img.length ≤ i) (hn : i < n) : mem (a + i) = 0xFF := by
  rw [h i hn, byteAt_of_le hi]

/-- Erased bytes at the end of an image say nothing. -/
theorem shows_append_erased {mem : Mem} {a n : Nat} {img : List UInt8} (k : Nat) :
    Shows mem a n (img ++ List.replicate k 0xFF) ↔ Shows mem a n img := by
  have hbyte : ∀ i, byteAt (img ++ List.replicate k 0xFF) i = byteAt img i := by
    intro i
    rcases Nat.lt_or_ge i img.length with hi | hi
    · exact byteAt_append_left _ _ hi
    · rw [byteAt_append_right _ _ hi, byteAt_of_le hi, byteAt, List.getElem?_replicate]
      split
      · rfl
      · rfl
  simp only [Shows, hbyte]

/-- **Appending.**  Programming the erased tail of a region extends its image. -/
theorem Shows.append {mem : Mem} {a n : Nat} {img : List UInt8} (h : Shows mem a n img)
    (bytes : List UInt8) : Shows (overlay mem (a + img.length) bytes) a n (img ++ bytes) := by
  intro i hi
  by_cases hlow : i < img.length
  · rw [overlay_below _ _ (by omega), h i hi, byteAt_append_left _ _ hlow]
  · rw [overlay, if_pos (by omega), h i hi, byteAt_of_le (by omega), erased_and,
      byteAt_append_right _ _ (by omega)]
    congr 1
    omega

/-- **Overwriting.**  Programming bytes that only clear bits of the old ones
replaces them. -/
theorem Shows.overwrite {mem : Mem} {a n : Nat} {pre old post : List UInt8}
    (h : Shows mem a n (pre ++ old ++ post)) (new : List UInt8) (hlen : new.length = old.length)
    (hclear : ∀ i, byteAt old i &&& byteAt new i = byteAt new i) :
    Shows (overlay mem (a + pre.length) new) a n (pre ++ new ++ post) := by
  intro i hi
  rw [List.append_assoc] at h ⊢
  by_cases hlow : i < pre.length
  · rw [overlay_below _ _ (by omega), h i hi, byteAt_append_left _ _ hlow,
      byteAt_append_left _ _ hlow]
  · have hsub : a + i - (a + pre.length) = i - pre.length := by omega
    rw [overlay, if_pos (by omega), h i hi, hsub,
      byteAt_append_right pre _ (by omega), byteAt_append_right pre _ (by omega)]
    by_cases hmid : i - pre.length < old.length
    · rw [byteAt_append_left _ _ hmid, byteAt_append_left _ _ (by omega), hclear]
    · rw [byteAt_of_le (show new.length ≤ _ by omega), and_erased, byteAt_append_right _ _ (by omega),
        byteAt_append_right _ _ (by omega), hlen]

/-- A region keeps its image when the overlay lies outside it. -/
theorem Shows.frame {mem : Mem} {a n b : Nat} {img bytes : List UInt8} (h : Shows mem a n img)
    (hout : b + bytes.length ≤ a ∨ a + n ≤ b) : Shows (overlay mem b bytes) a n img := by
  apply shows_of_eqOn h
  intro x hlow hhigh
  rcases hout with hbelow | habove
  · exact overlay_above _ (by omega)
  · exact overlay_below _ _ (by omega)

/-! ## Plain writes -/

/-- Put `bytes` into the memory from address `a` on, whatever was there. -/
def write (mem : Mem) (a : Nat) (bytes : List UInt8) : Mem :=
  fun x => if a ≤ x ∧ x < a + bytes.length then byteAt bytes (x - a) else mem x

theorem write_nil (mem : Mem) (a : Nat) : write mem a [] = mem := by
  funext x
  rw [write, if_neg (by simp)]

theorem write_cons (mem : Mem) (a : Nat) (b : UInt8) (bytes : List UInt8) :
    write mem a (b :: bytes) = write (Function.update mem a b) (a + 1) bytes := by
  funext x
  simp only [write, List.length_cons]
  by_cases hx : x = a
  · subst hx
    rw [if_pos (by omega), if_neg (by omega), Nat.sub_self]
    simp [byteAt]
  · by_cases hin : a + 1 ≤ x ∧ x < a + 1 + bytes.length
    · have hsub : x - a = (x - (a + 1)) + 1 := by omega
      rw [if_pos (by omega), if_pos hin, hsub]
      simp [byteAt]
    · rw [if_neg (by omega), if_neg hin, Function.update_of_ne hx]

/-- Writing behind the image of a region extends it. -/
theorem Shows.write_end {mem : Mem} {a n : Nat} {img : List UInt8} (h : Shows mem a n img)
    (bytes : List UInt8) : Shows (write mem (a + img.length) bytes) a n (img ++ bytes) := by
  intro i hi
  by_cases hlow : i < img.length
  · rw [write, if_neg (by omega), h i hi, byteAt_append_left _ _ hlow]
  · rw [byteAt_append_right _ _ (by omega), write]
    by_cases hin : i < img.length + bytes.length
    · rw [if_pos (by omega)]
      congr 1
      omega
    · rw [if_neg (by omega), h i hi, byteAt_of_le (by omega), byteAt_of_le (by omega)]

/-- One byte of the image replaced. -/
theorem Shows.replace {mem : Mem} {a n : Nat} {pre post : List UInt8} {old : UInt8}
    (h : Shows mem a n (pre ++ old :: post)) (new : UInt8) :
    Shows (Function.update mem (a + pre.length) new) a n (pre ++ new :: post) := by
  intro i hi
  by_cases heq : i = pre.length
  · rw [heq, Function.update_self, byteAt_append_right _ _ (Nat.le_refl _), Nat.sub_self]
    simp [byteAt]
  · rw [Function.update_of_ne (by omega), h i hi]
    by_cases hlow : i < pre.length
    · rw [byteAt_append_left _ _ hlow, byteAt_append_left _ _ hlow]
    · have hsub : i - pre.length = (i - pre.length - 1) + 1 := by omega
      rw [byteAt_append_right _ _ (by omega), byteAt_append_right _ _ (by omega), hsub]
      simp [byteAt]

/-! ## Frames -/

/-- Every byte that changed lies in `region`. -/
def ChangesWithin (region : Nat → Prop) (mem mem' : Mem) : Prop :=
  ∀ x, ¬ region x → mem' x = mem x

theorem ChangesWithin.refl (region : Nat → Prop) (mem : Mem) : ChangesWithin region mem mem :=
  fun _ _ => rfl

theorem ChangesWithin.trans {region : Nat → Prop} {mem₁ mem₂ mem₃ : Mem}
    (h : ChangesWithin region mem₁ mem₂) (h' : ChangesWithin region mem₂ mem₃) :
    ChangesWithin region mem₁ mem₃ := by
  intro x hx
  rw [h' x hx, h x hx]

theorem ChangesWithin.mono {region region' : Nat → Prop} {mem mem' : Mem}
    (h : ChangesWithin region mem mem') (hsub : ∀ x, region x → region' x) :
    ChangesWithin region' mem mem' := by
  intro x hx
  exact h x fun hr => hx (hsub x hr)

theorem ChangesWithin.inter {region region' : Nat → Prop} {mem mem' : Mem}
    (h : ChangesWithin region mem mem') (h' : ChangesWithin region' mem mem') :
    ChangesWithin (fun x => region x ∧ region' x) mem mem' := by
  intro x hx
  by_cases hr : region x
  · exact h' x fun hr' => hx ⟨hr, hr'⟩
  · exact h x hr

theorem changesWithin_overlay (mem : Mem) (a : Nat) (bytes : List UInt8) :
    ChangesWithin (fun x => a ≤ x ∧ x < a + bytes.length) mem (overlay mem a bytes) := by
  intro x hx
  rcases Nat.lt_or_ge x a with hlow | hhigh
  · exact overlay_below mem bytes hlow
  · exact overlay_above mem (by omega)

theorem changesWithin_eraseRange (mem : Mem) (a b : Nat) :
    ChangesWithin (fun x => a ≤ x ∧ x < b) mem (eraseRange mem a b) := by
  intro x hx
  exact eraseRange_outside mem (by omega)

end NavHAL.Memory
