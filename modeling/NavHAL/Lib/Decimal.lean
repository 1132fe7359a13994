import Mathlib.Data.Nat.Digits.Lemmas

/-!
# Decimal numbers in ASCII

`decimal n` has the digits of `n`, the first one first; `valueFrom` reads digits from the
left, on top of what has been read.  `valueFrom_decimal` is that one undoes the other,
`IsDecimal` what a reader wants of the digits, and `decimal_isDecimal` that they are so.
-/

namespace NavHAL.Decimal

def digit (d : Nat) : UInt8 := UInt8.ofNat (48 + d)

def IsDigit (c : UInt8) : Prop := 48 ≤ c ∧ c ≤ 57

instance (c : UInt8) : Decidable (IsDigit c) := inferInstanceAs (Decidable (_ ∧ _))

def digitVal (c : UInt8) : Nat := c.toNat - 48

def valueFrom (r : Nat) (s : List UInt8) : Nat := s.foldl (fun v c => v * 10 + digitVal c) r

/-- The digits, the last one first; 0 has one as well. -/
def lowFirst (n : Nat) : List Nat := if n = 0 then [0] else Nat.digits 10 n

def decimal (n : Nat) : List UInt8 := ((lowFirst n).map digit).reverse

/-- The digits of `n`, without leading zeros. -/
structure IsDecimal (n : Nat) (s : List UInt8) : Prop where
  digits : ∀ c ∈ s, IsDigit c
  value : valueFrom 0 s = n
  nonempty : s ≠ []
  noZero : s.head? = some (digit 0) → s = [digit 0]

theorem digit_toNat {d : Nat} (h : d < 10) : (digit d).toNat = 48 + d := by
  rw [digit, UInt8.toNat_ofNat']
  omega

theorem isDigit_iff {c : UInt8} : IsDigit c ↔ 48 ≤ c.toNat ∧ c.toNat ≤ 57 := by
  rw [IsDigit, UInt8.le_iff_toNat_le, UInt8.le_iff_toNat_le]
  rfl

theorem digit_isDigit {d : Nat} (h : d < 10) : IsDigit (digit d) := by
  rw [isDigit_iff, digit_toNat h]
  omega

theorem digitVal_digit {d : Nat} (h : d < 10) : digitVal (digit d) = d := by
  rw [digitVal, digit_toNat h]
  omega

/-- A digit is written, and the loop goes on unless nothing is left. -/
theorem lowFirst_eq (n : Nat) :
    lowFirst n = n % 10 :: if n / 10 = 0 then [] else lowFirst (n / 10) := by
  by_cases hzero : n = 0
  · subst hzero
    rfl
  · have hpos := Nat.pos_of_ne_zero hzero
    rw [lowFirst, if_neg hzero, Nat.digits_def' (by decide) hpos, lowFirst]
    split
    · next hlast => rw [hlast, Nat.digits_zero]
    · rfl

theorem lowFirst_lt {n d : Nat} (h : d ∈ lowFirst n) : d < 10 := by
  unfold lowFirst at h
  split at h
  · rw [List.mem_singleton.mp h]
    decide
  · exact Nat.digits_lt_base (by decide) h

theorem lowFirst_ne_nil (n : Nat) : lowFirst n ≠ [] := by
  rw [lowFirst_eq]
  exact List.cons_ne_nil _ _

theorem lowFirst_length_le {n k : Nat} (hk : 0 < k) (h : n < 10 ^ k) :
    (lowFirst n).length ≤ k := by
  unfold lowFirst
  split
  · exact hk
  · exact (Nat.digits_length_le_iff (by decide) n).mpr h

theorem ofDigits_lowFirst (n : Nat) : Nat.ofDigits 10 (lowFirst n) = n := by
  unfold lowFirst
  split
  · next hzero =>
    rw [hzero]
    rfl
  · exact Nat.ofDigits_digits 10 n

/-- What is read from the left is the number. -/
theorem valueFrom_decimal (n : Nat) : valueFrom 0 (decimal n) = n := by
  have hfold : ∀ ds : List Nat, (∀ d ∈ ds, d < 10) →
      ((ds.map digit).reverse.foldl (fun v c => v * 10 + digitVal c) 0) = Nat.ofDigits 10 ds := by
    intro ds hlt
    induction ds with
    | nil => rfl
    | cons d ds ih =>
      have hd := hlt d List.mem_cons_self
      have hrest := ih fun e he => hlt e (List.mem_cons_of_mem d he)
      rw [List.map_cons, List.reverse_cons, List.foldl_append, hrest, List.foldl_cons,
        List.foldl_nil, digitVal_digit hd, Nat.ofDigits_cons]
      omega
  rw [valueFrom, decimal, hfold _ fun d => lowFirst_lt, ofDigits_lowFirst]

theorem decimal_isDigit {n : Nat} {c : UInt8} (h : c ∈ decimal n) : IsDigit c := by
  rw [decimal, List.mem_reverse, List.mem_map] at h
  obtain ⟨d, hd, rfl⟩ := h
  exact digit_isDigit (lowFirst_lt hd)

theorem decimal_ne_nil (n : Nat) : decimal n ≠ [] := by
  rw [decimal, ne_eq, List.reverse_eq_nil_iff, List.map_eq_nil_iff]
  exact lowFirst_ne_nil n

theorem decimal_length_le {n k : Nat} (hk : 0 < k) (h : n < 10 ^ k) : (decimal n).length ≤ k := by
  rw [decimal, List.length_reverse, List.length_map]
  exact lowFirst_length_le hk h

theorem decimal_head {n : Nat} (h : (decimal n).head? = some (digit 0)) : n = 0 := by
  by_contra hne
  have hlast := Nat.getLast_digit_ne_zero 10 hne
  have hlt : (Nat.digits 10 n).getLast (Nat.digits_ne_nil_iff_ne_zero.mpr hne) < 10 :=
    Nat.digits_lt_base (by decide) (List.getLast_mem _)
  rw [decimal, lowFirst, if_neg hne, List.head?_reverse, List.getLast?_map,
    List.getLast?_eq_some_getLast (Nat.digits_ne_nil_iff_ne_zero.mpr hne), Option.map_some,
    Option.some_inj] at h
  have hzero := congrArg digitVal h
  rw [digitVal_digit hlt, digitVal_digit (by decide)] at hzero
  exact hlast hzero

theorem decimal_isDecimal (n : Nat) : IsDecimal n (decimal n) where
  digits := fun _ => decimal_isDigit
  value := valueFrom_decimal n
  nonempty := decimal_ne_nil n
  noZero := fun h => by
    rw [decimal_head h]
    rfl

theorem le_valueFrom (r : Nat) (s : List UInt8) : r ≤ valueFrom r s := by
  induction s generalizing r with
  | nil => exact Nat.le_refl r
  | cons c s ih =>
    calc r ≤ r * 10 + digitVal c := by omega
      _ ≤ valueFrom (r * 10 + digitVal c) s := ih _

end NavHAL.Decimal
