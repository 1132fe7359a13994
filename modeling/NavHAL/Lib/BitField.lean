import Mathlib.Data.BitVec

/-!
# Bit fields of a 32-bit register

`place pos x` is `x` as the field that starts at bit `pos`, and `field pos w v`
reads the `w` bits from there.  Fields that do not overlap are read
independently of each other; `field` goes through the bitwise operators and
shifts, and `toNat_shiftRight_and_mask` is how a driver reads one.
-/

namespace NavHAL.BitField

def place {w : Nat} (pos : Nat) (x : BitVec w) : BitVec 32 := x.setWidth 32 <<< pos

def field (pos w : Nat) (v : BitVec 32) : BitVec w := v.extractLsb' pos w

section Fields

variable {pos pos' w w' : Nat} (u v : BitVec 32)

theorem field_getLsbD (i : Nat) :
    (field pos w v).getLsbD i = (decide (i < w) && v.getLsbD (pos + i)) :=
  BitVec.getLsbD_extractLsb' ..

@[simp] theorem field_or : field pos w (u ||| v) = field pos w u ||| field pos w v := by
  apply BitVec.eq_of_getLsbD_eq
  intro i _
  simp only [field_getLsbD, BitVec.getLsbD_or, Bool.and_or_distrib_left]

/-- A field that is not read. -/
theorem field_place_disjoint (x : BitVec w') (h : pos + w ≤ pos' ∨ pos' + w' ≤ pos) :
    field pos w (place pos' x) = 0 := by
  apply BitVec.eq_of_getLsbD_eq
  intro i hi
  simp only [field_getLsbD, place, BitVec.getLsbD_shiftLeft, BitVec.getLsbD_setWidth]
  rcases h with h | h
  · have hlow : pos + i < pos' := by omega
    simp [hlow]
  · have hhigh : x.getLsbD (pos + i - pos') = false := BitVec.getLsbD_of_ge x _ (by omega)
    simp [hhigh]

/-- The field that is read. -/
theorem field_place_self (x : BitVec w) (h : pos + w ≤ 32) : field pos w (place pos x) = x := by
  apply BitVec.eq_of_getLsbD_eq
  intro i hi
  have hpos : pos + i < 32 := by omega
  have hlow : ¬ pos + i < pos := by omega
  have hi' : i < 32 := by omega
  simp only [field_getLsbD, place, BitVec.getLsbD_shiftLeft, BitVec.getLsbD_setWidth,
    Nat.add_sub_cancel_left, hi, hi', hpos, hlow, decide_true, decide_false, Bool.true_and,
    Bool.not_false]

@[simp] theorem field_and : field pos w (u &&& v) = field pos w u &&& field pos w v := by
  apply BitVec.eq_of_getLsbD_eq
  intro i hi
  simp only [field_getLsbD, BitVec.getLsbD_and, hi, decide_true, Bool.true_and]

theorem field_not (h : pos + w ≤ 32) : field pos w (~~~v) = ~~~field pos w v := by
  apply BitVec.eq_of_getLsbD_eq
  intro i hi
  have hpos : pos + i < 32 := by omega
  simp only [field_getLsbD, BitVec.getLsbD_not, hi, hpos, decide_true, Bool.true_and]

/-- A word shifted up leaves nothing below. -/
theorem field_shiftLeft_low {k : Nat} (h : pos + w ≤ k) : field pos w (v <<< k) = 0 := by
  apply BitVec.eq_of_getLsbD_eq
  intro i hi
  have hlow : pos + i < k := by omega
  simp only [field_getLsbD, BitVec.getLsbD_shiftLeft, hlow, decide_true, Bool.not_true,
    Bool.and_false, Bool.false_and]
  exact (BitVec.getLsbD_zero).symm

theorem field_shiftLeft {k : Nat} (hk : k ≤ pos) (h : pos + w ≤ 32) :
    field pos w (v <<< k) = field (pos - k) w v := by
  apply BitVec.eq_of_getLsbD_eq
  intro i hi
  have hpos : pos + i < 32 := by omega
  have hlow : ¬ pos + i < k := by omega
  have hsub : pos + i - k = pos - k + i := by omega
  simp only [field_getLsbD, BitVec.getLsbD_shiftLeft, hi, hpos, hlow, hsub, decide_true,
    decide_false, Bool.not_false, Bool.true_and]

/-- A small word has nothing above its bits. -/
theorem field_of_lt (h : v.toNat < 2 ^ pos) : field pos w v = 0 := by
  apply BitVec.eq_of_toNat_eq
  rw [field, BitVec.extractLsb'_toNat, Nat.shiftRight_eq_div_pow, Nat.div_eq_of_lt h, Nat.zero_mod]
  rfl

theorem field_or_of_lt (h : u.toNat < 2 ^ pos) : field pos w (v ||| u) = field pos w v := by
  rw [field_or, field_of_lt u h]
  exact BitVec.or_zero

theorem field_and_not_of_lt (h : u.toNat < 2 ^ pos) (hw : pos + w ≤ 32) :
    field pos w (v &&& ~~~u) = field pos w v := by
  rw [field_and, field_not u hw, field_of_lt u h]
  simp

/-- A flag outside the field, set or not. -/
theorem field_ite_or {c : Prop} [Decidable c] (h : field pos w u = 0) :
    field pos w (if c then v ||| u else v) = field pos w v := by
  split
  · rw [field_or, h]
    exact BitVec.or_zero
  · rfl

/-- A field read by shift and mask. -/
theorem toNat_shiftRight_and_mask (hw : w ≤ 32) :
    (v >>> pos &&& BitVec.ofNat 32 (2 ^ w - 1)).toNat = (field pos w v).toNat := by
  have hlt : 2 ^ w - 1 < 2 ^ 32 :=
    Nat.lt_of_lt_of_le (Nat.sub_one_lt (Nat.pos_iff_ne_zero.mp (Nat.two_pow_pos w)))
      (Nat.pow_le_pow_right (by decide) hw)
  rw [BitVec.toNat_and, BitVec.toNat_ofNat, Nat.mod_eq_of_lt hlt, Nat.and_two_pow_sub_one_eq_mod,
    BitVec.toNat_ushiftRight]
  exact (BitVec.extractLsb'_toNat pos w v).symm

theorem field_zero_toNat : (field 0 w v).toNat = v.toNat % 2 ^ w := by
  rw [field, BitVec.extractLsb'_toNat, Nat.shiftRight_zero]

/-- A flag read by its mask. -/
theorem bit_ne_zero_iff {i : Nat} (hi : i < 32) : v &&& 1#32 <<< i ≠ 0 ↔ v.getLsbD i = true := by
  rw [← BitVec.twoPow_eq, BitVec.and_twoPow]
  cases v.getLsbD i with
  | false => simp
  | true =>
    refine iff_of_true (fun hz => ?_) rfl
    have hbit : (BitVec.twoPow 32 i).getLsbD i = (0#32).getLsbD i := congrArg (·.getLsbD i) hz
    simp [hi] at hbit

end Fields

end NavHAL.BitField
