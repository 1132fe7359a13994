/-!
# CRC registers

A CRC register of `w` bits shifts to the left and adds the polynomial whenever
a one falls out.  The step is linear over exclusive or (`bitStep_xor`), and
while only zeros fall out it is a shift (`bitSteps_zeros`); so a few steps split
into those of the bits that fall out and a shift of the rest
(`bitSteps_split`), which is what a table is for.
-/

namespace NavHAL.CrcRegister

variable {w : Nat} (poly : BitVec w)

/-- One bit, the most significant first. -/
def bitStep (x : BitVec w) : BitVec w := if x.msb then (x <<< 1) ^^^ poly else x <<< 1

def bitSteps (n : Nat) (x : BitVec w) : BitVec w := Nat.repeat (bitStep poly) n x

@[simp] theorem bitSteps_zero (x : BitVec w) : bitSteps poly 0 x = x := rfl

theorem bitSteps_succ (n : Nat) (x : BitVec w) :
    bitSteps poly (n + 1) x = bitStep poly (bitSteps poly n x) := rfl

theorem bitSteps_add (m n : Nat) (x : BitVec w) :
    bitSteps poly (m + n) x = bitSteps poly n (bitSteps poly m x) := by
  induction n with
  | zero => rfl
  | succ n ih => rw [← Nat.add_assoc, bitSteps_succ, ih, bitSteps_succ]

/-! ## Linearity -/

theorem bitStep_xor (x y : BitVec w) :
    bitStep poly (x ^^^ y) = bitStep poly x ^^^ bitStep poly y := by
  have hshift : (x ^^^ y) <<< 1 = x <<< 1 ^^^ y <<< 1 := BitVec.shiftLeft_xor_distrib x y 1
  simp only [bitStep, BitVec.msb_xor, hshift]
  cases x.msb <;> cases y.msb
  · rfl
  · exact BitVec.xor_assoc ..
  · change x <<< 1 ^^^ y <<< 1 ^^^ poly = x <<< 1 ^^^ poly ^^^ y <<< 1
    rw [BitVec.xor_assoc, BitVec.xor_comm (y <<< 1), ← BitVec.xor_assoc]
  · change x <<< 1 ^^^ y <<< 1 = x <<< 1 ^^^ poly ^^^ (y <<< 1 ^^^ poly)
    rw [BitVec.xor_comm (y <<< 1), BitVec.xor_assoc, ← BitVec.xor_assoc poly, BitVec.xor_self,
      BitVec.zero_xor]

theorem bitSteps_xor (n : Nat) (x y : BitVec w) :
    bitSteps poly n (x ^^^ y) = bitSteps poly n x ^^^ bitSteps poly n y := by
  induction n with
  | zero => rfl
  | succ n ih => rw [bitSteps_succ, ih, bitStep_xor, bitSteps_succ, bitSteps_succ]

/-! ## Zeros that fall out -/

theorem bitSteps_zeros (n : Nat) (x : BitVec w) (h : ∀ i, i < n → x.getMsbD i = false) :
    bitSteps poly n x = x <<< n := by
  induction n with
  | zero => simp
  | succ n ih =>
    have hmsb : (x <<< n).msb = false := by
      rw [BitVec.msb, BitVec.getMsbD_shiftLeft, Nat.zero_add]
      exact h n (Nat.lt_succ_self n)
    rw [bitSteps_succ, ih fun i hi => h i (Nat.lt_succ_of_lt hi), bitStep, hmsb,
      if_neg Bool.false_ne_true, BitVec.shiftLeft_add]

/-- The steps of the bits that fall out, and the rest moved up. -/
theorem bitSteps_split (n : Nat) (x out rest : BitVec w) (hx : x = out ^^^ rest)
    (hrest : ∀ i, i < n → rest.getMsbD i = false) :
    bitSteps poly n x = bitSteps poly n out ^^^ rest <<< n := by
  rw [hx, bitSteps_xor, bitSteps_zeros poly n rest hrest]

/-! ## Nothing is forgotten -/

variable {poly}

theorem bitStep_eq_zero (hpoly : poly.getLsbD 0 = true) {x : BitVec w}
    (h : bitStep poly x = 0#w) : x = 0#w := by
  have hlow : (bitStep poly x).getLsbD 0 = x.msb := by
    cases hmsb : x.msb <;> simp [bitStep, hmsb, hpoly]
  have hmsb : x.msb = false := by
    rw [← hlow, h]
    exact BitVec.getLsbD_zero
  rw [bitStep, hmsb, if_neg Bool.false_ne_true] at h
  apply BitVec.eq_of_getLsbD_eq
  intro i hi
  rw [BitVec.getLsbD_zero]
  by_cases hlast : i + 1 < w
  · have hbit := congrArg (fun y : BitVec w => y.getLsbD (i + 1)) h
    simpa [BitVec.getLsbD_shiftLeft, hlast, ← BitVec.getLsbD_eq_getElem] using hbit
  · have hi' : i = w - 1 := by omega
    rw [BitVec.msb_eq_getLsbD_last] at hmsb
    rwa [hi']

/-- With an odd polynomial different values stay different. -/
theorem bitSteps_injective (hpoly : poly.getLsbD 0 = true) (n : Nat) {x y : BitVec w}
    (h : bitSteps poly n x = bitSteps poly n y) : x = y := by
  have hzero : bitSteps poly n (x ^^^ y) = 0#w := by
    rw [bitSteps_xor, h, BitVec.xor_self]
  have hxy : x ^^^ y = 0#w := by
    clear h
    generalize x ^^^ y = z at hzero ⊢
    induction n with
    | zero => exact hzero
    | succ n ih => exact ih (bitStep_eq_zero hpoly hzero)
  exact BitVec.xor_eq_zero_iff.mp hxy

end NavHAL.CrcRegister
