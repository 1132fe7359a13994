/-!
# Banks of 32-bit registers whose bits are one set

`bit bank n` is bit `n % 32` of word `n / 32`.  A write to a set register or to a
clear register acts where the written word has a one.
-/

namespace NavHAL.BitBank

abbrev Bank := Nat → BitVec 32

def mask (n : Nat) : BitVec 32 := 1#32 <<< (n % 32)

def bit (bank : Bank) (n : Nat) : Bool := (bank (n / 32)).getLsbD (n % 32)

/-- Write a word of the set register. -/
def writeSet (bank : Bank) (word : Nat) (value : BitVec 32) : Bank :=
  fun w => if w = word then bank w ||| value else bank w

/-- Write a word of the clear register. -/
def writeClear (bank : Bank) (word : Nat) (value : BitVec 32) : Bank :=
  fun w => if w = word then bank w &&& ~~~value else bank w

section Bits

variable (bank : Bank) (n m : Nat)

theorem mask_getLsbD : (mask n).getLsbD (m % 32) = decide (m % 32 = n % 32) := by
  have hn := Nat.mod_lt n (by decide : 0 < 32)
  rw [mask, ← BitVec.twoPow_eq, BitVec.getLsbD_twoPow]
  by_cases h : m % 32 = n % 32
  · simp [h, hn]
  · simp [h, Ne.symm h]

/-- Setting the bit, the word read back included, sets that bit only. -/
theorem bit_writeSet_read :
    bit (writeSet bank (n / 32) (bank (n / 32) ||| mask n)) m =
      if m = n then true else bit bank m := by
  unfold bit writeSet
  by_cases hword : m / 32 = n / 32
  · have hmn : m % 32 = n % 32 ↔ m = n := by omega
    rw [if_pos hword, hword, BitVec.getLsbD_or, BitVec.getLsbD_or, mask_getLsbD]
    by_cases h : m = n
    · simp [h]
    · simp [h, hmn]
  · have hne : m ≠ n := by
      rintro rfl
      exact hword rfl
    rw [if_neg hword, if_neg hne]

/-- With the word read back, the write clears the whole word. -/
theorem bit_writeClear_read :
    bit (writeClear bank (n / 32) (bank (n / 32) ||| mask n)) m =
      if m / 32 = n / 32 then false else bit bank m := by
  unfold bit writeClear
  by_cases hword : m / 32 = n / 32
  · rw [if_pos hword, if_pos hword, hword, BitVec.getLsbD_and, BitVec.getLsbD_not,
      BitVec.getLsbD_or]
    cases (bank (n / 32)).getLsbD (m % 32) <;> simp
  · rw [if_neg hword, if_neg hword]

end Bits

end NavHAL.BitBank
