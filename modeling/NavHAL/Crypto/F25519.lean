import NavHAL.Lib.Bytes
import NavHAL.Lib.Limbs
import Mathlib.Data.ZMod.Basic

/-!
# The field of the curve (`f25519.c`)

Elements are strings of 32 bytes, lowest first, and are kept below `2 * p` rather than
below `p`.

* `add_value`, `sub_value`, `neg_value`, `mul_value`, `mulC_value` : each operation folds
  the bits from 255 up back in, so its result is a number congruent to the exact one;
* `normalize_value`, `f25519Eq_iff` : equality after normalisation is equality modulo `p`.
-/

namespace NavHAL.Crypto

open Bytes Limbs

/-! ## As in the source -/

/-- `F25519_SIZE` -/
def f25519Size : ℕ := 32

/-- `f25519_one` -/
def f25519One : List UInt8 := 1 :: List.replicate 31 0

/-- `(uint16_t)x[i]`, `(uint32_t)x[i]` -/
def widen (w : ℕ) (b : UInt8) : BitVec w := b.toBitVec.setWidth w

/-- `r[31] &= 127` -/
def maskTop (r : List UInt8) : List UInt8 := r.set 31 (r.getD 31 0 &&& 127)

/-- `c = (c >> 7) * 19` and the loop that adds it in. -/
def addCarry {w : ℕ} (r : List UInt8) (c : BitVec w) : List UInt8 :=
  (carryOut ((c >>> 7) * 19) (r.map (widen w))).1

/-- `f25519_load` -/
def f25519Load (c : UInt32) : List UInt8 := le32 c ++ List.replicate 28 0

/-- `f25519_select` -/
def f25519Select (zero one : List UInt8) (condition : UInt8) : List UInt8 :=
  let mask := 0 - condition
  List.zipWith (fun z o => z ^^^ (mask &&& (o ^^^ z))) zero one

/-- `f25519_normalize` -/
def f25519Normalize (x : List UInt8) : List UInt8 :=
  let c : BitVec 16 := widen 16 (x.getD 31 0 >>> 7) * 19
  let x := (carryOut c ((maskTop x).map (widen 16))).1
  let low := carryOut (19 : BitVec 16) ((x.take 31).map (widen 16))
  let c := low.2 + (widen 16 (x.getD 31 0) - 128)
  let minusp := low.1 ++ [UInt8.ofNat c.toNat]
  f25519Select minusp x (UInt8.ofNat ((c >>> 15) &&& 1).toNat)

/-- `f25519_eq` -/
def f25519Eq (x y : List UInt8) : UInt8 :=
  let sum := (List.zipWith (fun x y => x ^^^ y) x y).foldl (fun sum d => sum ||| d) 0
  let sum := sum ||| (sum >>> 4)
  let sum := sum ||| (sum >>> 2)
  let sum := sum ||| (sum >>> 1)
  (sum ^^^ 1) &&& 1

/-- `f25519_add` -/
def f25519Add (a b : List UInt8) : List UInt8 :=
  let r := carryIn (0 : BitVec 16) (List.zipWith (fun a b => widen 16 a + widen 16 b) a b)
  addCarry (maskTop r.1) r.2

/-- `f25519_sub` -/
def f25519Sub (a b : List UInt8) : List UInt8 :=
  let low := carryOut (218 : BitVec 32)
    (List.zipWith (fun a b => 65280 + widen 32 a - widen 32 b) (a.take 31) (b.take 31))
  let c := low.2 + (widen 32 (a.getD 31 0) - widen 32 (b.getD 31 0))
  addCarry (low.1 ++ [UInt8.ofNat (c &&& 127).toNat]) c

/-- `f25519_neg` -/
def f25519Neg (a : List UInt8) : List UInt8 :=
  let low := carryOut (218 : BitVec 32) ((a.take 31).map fun a => 65280 - widen 32 a)
  let c := low.2 - widen 32 (a.getD 31 0)
  addCarry (low.1 ++ [UInt8.ofNat (c &&& 127).toNat]) c

/-- What the two inner loops of `f25519_mul__distinct` add for byte `i`. -/
def mulTerm (a b : List UInt8) (i : ℕ) : BitVec 32 :=
  ((List.range' 0 (i + 1)).map fun j =>
    widen 32 (a.getD j 0) * widen 32 (b.getD (i - j) 0)).sum +
  ((List.range' (i + 1) (31 - i)).map fun j =>
    widen 32 (a.getD j 0) * widen 32 (b.getD (i + f25519Size - j) 0) * 38).sum

/-- `f25519_mul__distinct` -/
def f25519MulDistinct (a b : List UInt8) : List UInt8 :=
  let r := carryIn (0 : BitVec 32) ((List.range f25519Size).map (mulTerm a b))
  addCarry (maskTop r.1) r.2

/-- `f25519_mul_c` -/
def f25519MulC (a : List UInt8) (b : UInt32) : List UInt8 :=
  let r := carryIn (0 : BitVec 32) (a.map fun a => b.toBitVec * widen 32 a)
  addCarry (maskTop r.1) r.2

/-- `for (i = 0; i < n; i++) { s = r * r; r = s * x; }` -/
def squareMul (x : List UInt8) (n : ℕ) (r : List UInt8) : List UInt8 :=
  (fun r => f25519MulDistinct (f25519MulDistinct r r) x)^[n] r

/-- `f25519_inv__distinct` -/
def f25519InvDistinct (x : List UInt8) : List UInt8 :=
  let s := f25519MulDistinct x x
  let r := f25519MulDistinct s x
  let r := squareMul x 248 r
  let s := f25519MulDistinct r r
  let r := f25519MulDistinct s s
  let s := f25519MulDistinct r x
  let r := f25519MulDistinct s s
  let s := f25519MulDistinct r r
  let r := f25519MulDistinct s x
  let s := f25519MulDistinct r r
  f25519MulDistinct s x

/-- `exp2523` -/
def exp2523 (x : List UInt8) : List UInt8 :=
  let r := f25519MulDistinct x x
  let s := f25519MulDistinct r x
  let s := squareMul x 248 s
  let r := f25519MulDistinct s s
  let s := f25519MulDistinct r r
  f25519MulDistinct s x

/-- `f25519_sqrt` -/
def f25519Sqrt (a : List UInt8) : List UInt8 :=
  let x := f25519MulC a 2
  let v := exp2523 x
  let y := f25519MulDistinct v v
  let i := f25519MulDistinct x y
  let y := f25519Load 1
  let i := f25519Sub i y
  let x := f25519MulDistinct v a
  f25519MulDistinct x i

/-! ## Folding at bit 255 -/

def p25519 : ℕ := 2 ^ 255 - 19

/-- The bits from 255 up count 19 times at the low end. -/
def fold (s : ℕ) : ℕ := s % 2 ^ 255 + 19 * (s / 2 ^ 255)

theorem fold_add (s : ℕ) : fold s + p25519 * (s / 2 ^ 255) = s := by
  unfold fold p25519
  have hsplit := Nat.mod_add_div s (2 ^ 255)
  omega

theorem fold_cast (s : ℕ) : (fold s : ZMod p25519) = s := by
  conv_rhs => rw [← fold_add s]
  rw [Nat.cast_add, Nat.cast_mul, ZMod.natCast_self, zero_mul, add_zero]

section Words

variable {w : ℕ}

theorem widen_toNat (hw : 8 ≤ w) (b : UInt8) : (widen w b).toNat = b.toNat := by
  have hb : b.toNat < 2 ^ w := b.toNat_lt.trans_le (Nat.pow_le_pow_right (by decide) hw)
  rw [widen, BitVec.toNat_setWidth, UInt8.toNat_toBitVec, Nat.mod_eq_of_lt hb]

theorem widen_le (hw : 8 ≤ w) (b : UInt8) : (widen w b).toNat ≤ 255 := by
  rw [widen_toNat hw]
  exact Nat.le_of_lt_succ b.toNat_lt

theorem total_widen (hw : 8 ≤ w) (r : List UInt8) : total (r.map (widen w)) = value r := by
  rw [total, value, List.map_map]
  congr 1
  apply List.map_congr_left
  intro b _
  exact widen_toNat hw b

theorem and_127 (b : UInt8) : (b &&& 127).toNat = b.toNat % 128 := by
  rw [UInt8.toNat_and]
  exact Nat.and_two_pow_sub_one_eq_mod b.toNat 7

theorem addCarry_length (r : List UInt8) (c : BitVec w) : (addCarry r c).length = r.length := by
  rw [addCarry, carryOut_length, List.length_map]

theorem addCarry_value (hw : 8 ≤ w) (hw' : w ≤ 32) {r : List UInt8} {c : BitVec w}
    (hlen : r.length = 32) (hr : value r < 2 ^ 255) (hc : c.toNat / 128 * 19 + 255 < 2 ^ w) :
    value (addCarry r c) = value r + 19 * (c.toNat / 128) := by
  have hcarry : ((c >>> 7) * 19).toNat = c.toNat / 128 * 19 := by
    have hnineteen : (19 : BitVec w).toNat = 19 := by
      have hpow : 2 ^ 8 ≤ 2 ^ w := Nat.pow_le_pow_right (by decide) hw
      exact (BitVec.toNat_ofNat 19 w).trans (Nat.mod_eq_of_lt (by omega))
    rw [BitVec.toNat_mul, BitVec.toNat_ushiftRight, Nat.shiftRight_eq_div_pow, hnineteen,
      Nat.mod_eq_of_lt (by omega)]
  have hroom : Room w 255 (c.toNat / 128 * 19) := ⟨hc, by omega⟩
  have hterms : ∀ t ∈ r.map (widen w), t.toNat ≤ 255 := by
    intro t ht
    obtain ⟨b, -, rfl⟩ := List.mem_map.mp ht
    exact widen_le hw b
  obtain ⟨hvalue, -⟩ := carryOut_value hroom hterms hcarry.le
  have hsmall : c.toNat / 128 * 19 < 2 ^ 32 := by
    have hpow : 2 ^ w ≤ 2 ^ 32 := Nat.pow_le_pow_right (by decide) hw'
    omega
  rw [total_widen hw, hcarry, List.length_map, hlen, ← addCarry] at hvalue
  omega

theorem maskTop_length (r : List UInt8) : (maskTop r).length = r.length := List.length_set

theorem maskTop_concat {front : List UInt8} (hlen : front.length = 31) (b : UInt8) :
    maskTop (front ++ [b]) = front ++ [b &&& 127] := by
  have hlast : (front ++ [b]).getD 31 0 = b := by simp [List.getD, hlen]
  rw [maskTop, hlast, List.set_append_right _ _ hlen.le, hlen]
  rfl

theorem maskTop_value {front : List UInt8} (hlen : front.length = 31) (b : UInt8) :
    value (maskTop (front ++ [b])) = value front + 256 ^ 31 * (b.toNat % 128) := by
  rw [maskTop_concat hlen, value_append, hlen, value_cons, value_nil, and_127]
  omega

/-- A number kept in its first 31 bytes and a carry that has the last byte in it. -/
theorem fold_split {front c s : ℕ} (hfront : front < 256 ^ 31) (h : front + 256 ^ 31 * c = s) :
    front + 256 ^ 31 * (c % 128) < 2 ^ 255 ∧
      front + 256 ^ 31 * (c % 128) + 19 * (c / 128) = fold s := by
  unfold fold
  omega

/-- The loop over the terms and the reduction behind it. -/
theorem reduce_value (hw : 8 ≤ w) (hw' : w ≤ 32) {bound top : ℕ} (hroom : Room w bound top)
    (hfits : (top + bound) / 128 * 19 + 255 < 2 ^ w) {ts : List (BitVec w)} (hlen : ts.length = 32)
    (hts : ∀ t ∈ ts, t.toNat ≤ bound) :
    value (addCarry (maskTop (carryIn 0 ts).1) (carryIn 0 ts).2) = fold (total ts) := by
  cases ts with
  | nil => cases hlen
  | cons t ts =>
    have hzero : (0 : BitVec w).toNat / 256 ≤ top := by simp
    obtain ⟨hvalue, hlast, hmax⟩ := carryIn_value hroom hts hzero
    have hlength : (carryIn 0 (t :: ts)).1.length = 32 := (carryIn_length _ _).trans hlen
    have hsplit := List.dropLast_append_getLast? _ (Option.mem_def.mpr hlast)
    have hfront : (carryIn 0 (t :: ts)).1.dropLast.length = 31 := by
      rw [List.length_dropLast, hlength]
    have hsmall := value_lt (carryIn 0 (t :: ts)).1.dropLast
    rw [hfront] at hsmall
    generalize hc : (carryIn 0 (t :: ts)).2 = c at *
    rw [Nat.succ.inj hlen, show (0 : BitVec w).toNat / 256 = 0 by simp, Nat.zero_add] at hvalue
    obtain ⟨hlow, hfold⟩ := fold_split hsmall hvalue
    have hmask : value (maskTop (carryIn 0 (t :: ts)).1) =
        value (carryIn 0 (t :: ts)).1.dropLast + 256 ^ 31 * (c.toNat % 128) := by
      rw [← hsplit, maskTop_value hfront, toNat_ofNat_byte,
        Nat.mod_mod_of_dvd _ (by decide : 128 ∣ 256), List.dropLast_concat]
    have hover : c.toNat / 128 * 19 + 255 < 2 ^ w := by
      have hle := Nat.div_le_div_right (c := 128) hmax
      omega
    rw [addCarry_value hw hw' ((maskTop_length _).trans hlength) (hmask.trans_lt hlow) hover, hmask,
      hfold]

end Words
/-! ## Addition and subtraction -/

section Sums

variable {w : ℕ} {a b : List UInt8}

theorem total_add {f : UInt8 → UInt8 → BitVec w} (hf : ∀ a b, (f a b).toNat = a.toNat + b.toNat)
    (hlen : a.length = b.length) : total (List.zipWith f a b) = value a + value b := by
  induction a generalizing b with
  | nil =>
    cases b with
    | nil => rfl
    | cons y b => cases hlen
  | cons x a ih =>
    cases b with
    | nil => cases hlen
    | cons y b =>
      rw [List.zipWith_cons_cons, total_cons, value_cons, value_cons, hf, ih (Nat.succ.inj hlen)]
      omega

/-- `k` is lent to every byte. -/
theorem total_sub {f : UInt8 → UInt8 → BitVec w} {k : ℕ}
    (hf : ∀ a b, (f a b).toNat + b.toNat = k + a.toNat) (hlen : a.length = b.length) :
    total (List.zipWith f a b) + value b =
      k * Nat.ofDigits 256 (List.replicate a.length 1) + value a := by
  induction a generalizing b with
  | nil =>
    cases b with
    | nil => rfl
    | cons y b => cases hlen
  | cons x a ih =>
    cases b with
    | nil => cases hlen
    | cons y b =>
      have hrest := ih (Nat.succ.inj hlen)
      have hhead := hf x y
      rw [List.zipWith_cons_cons, total_cons, value_cons, value_cons, List.length_cons,
        List.replicate_succ, Nat.ofDigits_cons, Nat.mul_add, Nat.mul_left_comm k 256]
      omega

theorem f25519Add_length (ha : a.length = 32) (hb : b.length = 32) :
    (f25519Add a b).length = 32 := by
  rw [f25519Add, addCarry_length, maskTop_length, carryIn_length, List.length_zipWith, ha, hb,
    Nat.min_self]

theorem widen_add (a b : UInt8) : (widen 16 a + widen 16 b).toNat = a.toNat + b.toNat := by
  have ha := a.toNat_lt
  have hb := b.toNat_lt
  rw [BitVec.toNat_add, widen_toNat (by decide), widen_toNat (by decide),
    Nat.mod_eq_of_lt (by omega)]

theorem widen_add_le (a b : List UInt8) :
    ∀ t ∈ List.zipWith (fun a b => widen 16 a + widen 16 b) a b, t.toNat ≤ 510 := by
  intro t ht
  have hbyte : ∀ b : UInt8, b.toNat ≤ 255 := fun b => Nat.le_of_lt_succ b.toNat_lt
  obtain ⟨i, hi, rfl⟩ := List.getElem_of_mem ht
  rw [List.getElem_zipWith, widen_add]
  exact Nat.add_le_add (hbyte _) (hbyte _)

theorem add_value (ha : a.length = 32) (hb : b.length = 32) :
    value (f25519Add a b) = fold (value a + value b) := by
  have hroom : Room 16 510 2 := ⟨by decide, by decide⟩
  have hlen : (List.zipWith (fun a b => widen 16 a + widen 16 b) a b).length = 32 := by
    rw [List.length_zipWith, ha, hb, Nat.min_self]
  rw [f25519Add, reduce_value (by decide) (by decide) hroom (by decide) hlen (widen_add_le a b),
    total_add widen_add (ha.trans hb.symm)]

theorem take_concat (ha : a.length = 32) : a.take 31 ++ [a.getD 31 0] = a := by
  have hlt : 31 < a.length := by omega
  have hlast : a.getD 31 0 = a[31] := by rw [List.getD, List.getElem?_eq_getElem hlt]; rfl
  rw [hlast, List.take_append_getElem hlt, List.take_of_length_le ha.le]

theorem value_split (ha : a.length = 32) :
    value (a.take 31) + 256 ^ 31 * (a.getD 31 0).toNat = value a := by
  have hlen : (a.take 31).length = 31 := by rw [List.length_take, ha]; rfl
  conv_rhs => rw [← take_concat ha, value_append, hlen, value_cons, value_nil]
  rfl

/-- `r[31] = c & 127` and the reduction behind it. -/
theorem last_value {front : List UInt8} (hlen : front.length = 31) {c : BitVec 32} {s : ℕ}
    (hsum : value front + 256 ^ 31 * c.toNat = s) (hfits : c.toNat / 128 * 19 + 255 < 2 ^ 32) :
    value (addCarry (front ++ [UInt8.ofNat (c &&& 127).toNat]) c) = fold s := by
  have hsmall := value_lt front
  rw [hlen] at hsmall
  obtain ⟨hlt, hfold⟩ := fold_split hsmall hsum
  have hmask : (UInt8.ofNat (c &&& 127).toNat).toNat = c.toNat % 128 := by
    have hand : c.toNat &&& 127 = c.toNat % 128 := Nat.and_two_pow_sub_one_eq_mod _ 7
    rw [toNat_ofNat_byte, BitVec.toNat_and, show (127 : BitVec 32).toNat = 127 from rfl, hand,
      Nat.mod_eq_of_lt (by omega)]
  have hvalue : value (front ++ [UInt8.ofNat (c &&& 127).toNat]) =
      value front + 256 ^ 31 * (c.toNat % 128) := by
    rw [value_append, hlen, value_cons, value_nil, hmask]
    omega
  rw [addCarry_value (by decide) (by decide) (by simp [hlen]) (hvalue.trans_lt hlt) hfits, hvalue,
    hfold]

theorem f25519Sub_length (ha : a.length = 32) (hb : b.length = 32) :
    (f25519Sub a b).length = 32 := by
  simp only [f25519Sub, addCarry_length, List.length_append, carryOut_length, List.length_zipWith,
    List.length_take, ha, hb]
  rfl

/-- `2 * p` is lent so that nothing goes below zero. -/
theorem sub_value (ha : a.length = 32) (hb : b.length = 32) (hlt : value b < 2 * p25519) :
    value (f25519Sub a b) = fold (value a + 2 * p25519 - value b) := by
  have hterm : ∀ a b : UInt8,
      (65280 + widen 32 a - widen 32 b).toNat + b.toNat = 65280 + a.toNat := by
    intro a b
    have ha := a.toNat_lt
    have hb := b.toNat_lt
    have hwa := widen_toNat (w := 32) (by decide) a
    have hwb := widen_toNat (w := 32) (by decide) b
    bv_omega
  have hroom : Room 32 65535 257 := ⟨by decide, by decide⟩
  have hlen : (a.take 31).length = 31 := by rw [List.length_take, ha]; rfl
  have hlen' : (b.take 31).length = 31 := by rw [List.length_take, hb]; rfl
  generalize hts : List.zipWith (fun a b => 65280 + widen 32 a - widen 32 b) (a.take 31)
    (b.take 31) = ts
  have hbound : ∀ t ∈ ts, t.toNat ≤ 65535 := by
    subst hts
    intro t ht
    have hterm_le : ∀ a b : UInt8, (65280 + widen 32 a - widen 32 b).toNat ≤ 65535 := by
      intro a b
      have hsum := hterm a b
      have ha := a.toNat_lt
      omega
    obtain ⟨i, hi, rfl⟩ := List.getElem_of_mem ht
    rw [List.getElem_zipWith]
    exact hterm_le _ _
  have hlength : ts.length = 31 := by
    rw [← hts, List.length_zipWith, hlen, hlen', Nat.min_self]
  have htotal := total_sub hterm (hlen.trans hlen'.symm)
  rw [hts, hlen] at htotal
  obtain ⟨hvalue, htop⟩ := carryOut_value hroom hbound (c := 218) (by decide)
  have hlow := value_lt (carryOut (218 : BitVec 32) ts).1
  rw [carryOut_length, hlength] at hlow
  rw [hlength] at hvalue
  have ha' := value_split ha
  have hb' := value_split hb
  have hones : 65280 * Nat.ofDigits 256 (List.replicate 31 1) + 218 = 2 * p25519 := by decide
  have hc : (218 : BitVec 32).toNat = 218 := rfl
  have hatop := (a.getD 31 0).toNat_lt
  have hbtop := (b.getD 31 0).toNat_lt
  have hwa := widen_toNat (w := 32) (by decide) (a.getD 31 0)
  have hwb := widen_toNat (w := 32) (by decide) (b.getD 31 0)
  generalize hcarry : carryOut (218 : BitVec 32) ts = low at *
  have hpos : (b.getD 31 0).toNat ≤ low.2.toNat + (a.getD 31 0).toNat := by
    by_contra hneg
    omega
  have hlast : (low.2 + (widen 32 (a.getD 31 0) - widen 32 (b.getD 31 0))).toNat =
      low.2.toNat + (a.getD 31 0).toNat - (b.getD 31 0).toNat := by bv_omega
  have hsum : value low.1 + 256 ^ 31 *
      (low.2.toNat + (a.getD 31 0).toNat - (b.getD 31 0).toNat) =
        value a + 2 * p25519 - value b := by omega
  have hfront : low.1.length = 31 := by rw [← hcarry, carryOut_length, hlength]
  rw [← hlast] at hsum
  have hfinal := last_value hfront hsum (by omega)
  simp only [f25519Sub, hts, hcarry]
  exact hfinal

theorem map_eq_zipWith {α β γ : Type*} (f : α → β → γ) (x : α) (ys : List β) :
    List.zipWith f (List.replicate ys.length x) ys = ys.map (f x) := by
  induction ys with
  | nil => rfl
  | cons y ys ih => rw [List.length_cons, List.replicate_succ, List.zipWith_cons_cons, ih,
      List.map_cons]

theorem f25519Neg_eq (ha : a.length = 32) :
    f25519Neg a = f25519Sub (List.replicate 32 0) a := by
  have hlen : (a.take 31).length = 31 := by rw [List.length_take, ha]; rfl
  have hterms : List.zipWith (fun a b => 65280 + widen 32 a - widen 32 b)
      ((List.replicate 32 0).take 31) (a.take 31) = (a.take 31).map fun a => 65280 - widen 32 a := by
    have htake : (List.replicate 32 (0 : UInt8)).take 31 = List.replicate (a.take 31).length 0 := by
      rw [hlen]
      rfl
    rw [htake, map_eq_zipWith]
    rfl
  have hzero (c x : BitVec 32) : c + (widen 32 0 - x) = c - x := by
    have hwiden : widen 32 0 = 0 := rfl
    rw [hwiden]
    bv_omega
  simp only [f25519Neg, f25519Sub, hterms]
  rw [show (List.replicate 32 (0 : UInt8)).getD 31 0 = 0 from rfl, hzero]

theorem neg_value (ha : a.length = 32) (hlt : value a < 2 * p25519) :
    value (f25519Neg a) = fold (2 * p25519 - value a) := by
  rw [f25519Neg_eq ha, sub_value List.length_replicate ha hlt, value_zeros, Nat.zero_add]

end Sums
/-! ## Multiplication -/

section Products

theorem total_range {w : ℕ} (f : ℕ → BitVec w) (n : ℕ) :
    total ((List.range n).map f) = ∑ i ∈ Finset.range n, (f i).toNat * 256 ^ i := by
  induction n with
  | zero => rfl
  | succ n ih =>
    rw [List.range_succ, List.map_append, List.map_singleton, total, List.map_append,
      Nat.ofDigits_append, List.length_map, List.length_map, List.length_range, ← total, ih,
      Finset.sum_range_succ, List.map_singleton, Nat.ofDigits_singleton, mul_comm (256 ^ n)]

/-- The sum of one inner loop. -/
theorem sum_range' {w : ℕ} {f : ℕ → BitVec w} {g : ℕ → ℕ} (bound s n : ℕ)
    (hf : ∀ j, s ≤ j → j < s + n → (f j).toNat = g j ∧ g j ≤ bound) (hfits : n * bound < 2 ^ w) :
    (((List.range' s n).map f).sum).toNat = ∑ j ∈ Finset.Ico s (s + n), g j ∧
      ∑ j ∈ Finset.Ico s (s + n), g j ≤ n * bound := by
  induction n with
  | zero => simp
  | succ n ih =>
    have hle : n * bound ≤ (n + 1) * bound := Nat.mul_le_mul_right _ (Nat.le_succ n)
    obtain ⟨hsum, hbound⟩ := ih (fun j hlow hhigh => hf j hlow (by omega)) (by omega)
    obtain ⟨hlast, hlastle⟩ := hf (s + n) (by omega) (by omega)
    have hsucc : (n + 1) * bound = n * bound + bound := Nat.succ_mul n bound
    rw [List.range'_concat, List.map_append, List.sum_append, ← add_assoc s n 1,
      Finset.sum_Ico_succ_top (Nat.le_add_right s n), Nat.one_mul]
    refine ⟨?_, by omega⟩
    rw [BitVec.toNat_add, hsum, List.map_singleton, List.sum_singleton, hlast,
      Nat.mod_eq_of_lt (by omega)]

variable (a b : List UInt8)

/-- The digit `i` of the product, with what lies 32 digits above it. -/
def mulDigit (i : ℕ) : ℕ :=
  ∑ j ∈ Finset.Ico 0 (i + 1), (a.getD j 0).toNat * (b.getD (i - j) 0).toNat +
    ∑ j ∈ Finset.Ico (i + 1) 32, (a.getD j 0).toNat * (b.getD (i + 32 - j) 0).toNat * 38

theorem mulTerm_toNat {i : ℕ} (hi : i < 32) :
    (mulTerm a b i).toNat = mulDigit a b i ∧ mulDigit a b i ≤ 79070400 := by
  have hbyte : ∀ x y : UInt8, x.toNat * y.toNat ≤ 65025 := by
    intro x y
    have hx := x.toNat_lt
    have hy := y.toNat_lt
    exact Nat.mul_le_mul (show x.toNat ≤ 255 by omega) (show y.toNat ≤ 255 by omega)
  have hprod : ∀ x y : UInt8, (widen 32 x * widen 32 y).toNat = x.toNat * y.toNat := by
    intro x y
    have hxy := hbyte x y
    rw [BitVec.toNat_mul, widen_toNat (by decide), widen_toNat (by decide),
      Nat.mod_eq_of_lt (by omega)]
  have hscaled : ∀ x y : UInt8, (widen 32 x * widen 32 y * 38).toNat = x.toNat * y.toNat * 38 := by
    intro x y
    have hxy := hbyte x y
    rw [BitVec.toNat_mul, hprod, show (38 : BitVec 32).toNat = 38 from rfl,
      Nat.mod_eq_of_lt (by omega)]
  obtain ⟨hlow, hlowle⟩ := sum_range'
    (f := fun j => widen 32 (a.getD j 0) * widen 32 (b.getD (i - j) 0)) 65025 0 (i + 1)
    (fun j _ _ => ⟨hprod _ _, hbyte _ _⟩) (by omega)
  obtain ⟨hhigh, hhighle⟩ := sum_range'
    (f := fun j => widen 32 (a.getD j 0) * widen 32 (b.getD (i + f25519Size - j) 0) * 38) 2470950
    (i + 1) (31 - i)
    (fun j _ _ => ⟨hscaled _ _, by
      have hxy := hbyte (a.getD j 0) (b.getD (i + f25519Size - j) 0)
      omega⟩) (by omega)
  rw [show i + 1 + (31 - i) = 32 by omega] at hhigh hhighle
  rw [Nat.zero_add] at hlow hlowle
  simp only [f25519Size] at hhigh hhighle
  have hle : mulDigit a b i ≤ 79070400 := by
    unfold mulDigit
    omega
  refine ⟨?_, hle⟩
  rw [mulTerm, BitVec.toNat_add, hlow]
  simp only [f25519Size]
  rw [hhigh, ← mulDigit, Nat.mod_eq_of_lt (by omega)]

variable {a b}

theorem two_pow_256 : (256 : ZMod p25519) ^ 32 = 38 := by
  have h : ((256 : ℕ) : ZMod p25519) ^ 32 = ((38 : ℕ) : ZMod p25519) := by
    rw [← Nat.cast_pow, ZMod.natCast_eq_natCast_iff]
    decide
  rwa [Nat.cast_ofNat, Nat.cast_ofNat] at h

/-- The number that `f25519_mul__distinct` folds. -/
def product (a b : List UInt8) : ℕ := ∑ i ∈ Finset.range 32, mulDigit a b i * 256 ^ i

theorem product_cast {R : Type*} [CommRing R] (hfold : (256 : R) ^ 32 = 38) (ha : a.length = 32)
    (hb : b.length = 32) : (product a b : R) = value a * value b := by
  have hvalue : ∀ {a : List UInt8}, a.length = 32 → (value a : R) =
      ∑ j ∈ Finset.range 32, ((a.getD j 0).toNat : R) * 256 ^ j := by
    intro a ha
    rw [value_eq_sum, ha]
    simp only [Nat.cast_sum, Nat.cast_mul, Nat.cast_pow, Nat.cast_ofNat]
  rw [hvalue ha, hvalue hb, wrapped_product, hfold, product, Nat.cast_sum]
  apply Finset.sum_congr rfl
  intro i _
  rw [mulDigit, ← Finset.range_eq_Ico, Nat.cast_mul, Nat.cast_add, Nat.cast_pow, Nat.cast_ofNat,
    Nat.cast_sum, Nat.cast_sum, Finset.mul_sum]
  congr 2
  · simp only [Nat.cast_mul]
  · apply Finset.sum_congr rfl
    intro j _
    rw [Nat.cast_mul, Nat.cast_mul, Nat.cast_ofNat, mul_comm]

theorem f25519MulDistinct_length (a b : List UInt8) : (f25519MulDistinct a b).length = 32 := by
  rw [f25519MulDistinct, addCarry_length, maskTop_length, carryIn_length, List.length_map,
    List.length_range]
  rfl

theorem mul_value (a b : List UInt8) : value (f25519MulDistinct a b) = fold (product a b) := by
  have hroom : Room 32 79070400 310080 := ⟨by norm_num, by norm_num⟩
  have hterms : ∀ t ∈ (List.range f25519Size).map (mulTerm a b), t.toNat ≤ 79070400 := by
    intro t ht
    obtain ⟨i, hi, rfl⟩ := List.mem_map.mp ht
    obtain ⟨hvalue, hle⟩ := mulTerm_toNat a b (List.mem_range.mp hi)
    exact hvalue.trans_le hle
  have hlen : ((List.range f25519Size).map (mulTerm a b)).length = 32 := by
    rw [List.length_map, List.length_range]
    rfl
  have hreduce := reduce_value (by decide) (by decide) hroom (by norm_num) hlen hterms
  simp only [f25519MulDistinct]
  rw [hreduce, total_range, product]
  apply congrArg fold
  apply Finset.sum_congr rfl
  intro i hi
  rw [(mulTerm_toNat a b (Finset.mem_range.mp hi)).1]

theorem fold_lt {s k : ℕ} (h : s < k * 2 ^ 255) : fold s < 2 ^ 255 + 19 * k := by
  have hdiv : s / 2 ^ 255 < k := (Nat.div_lt_iff_lt_mul (by decide)).mpr h
  have hmod := Nat.mod_lt s (show 0 < 2 ^ 255 by decide)
  unfold fold
  omega

end Products
/-! ## Small factors -/

theorem total_mul {w k : ℕ} {f : UInt8 → BitVec w} (hf : ∀ b, (f b).toNat = k * b.toNat)
    (a : List UInt8) : total (a.map f) = k * value a := by
  induction a with
  | nil => rfl
  | cons b a ih =>
    rw [List.map_cons, total_cons, value_cons, hf, ih]
    ring

theorem f25519MulC_length {a : List UInt8} (ha : a.length = 32) (b : UInt32) :
    (f25519MulC a b).length = 32 := by
  rw [f25519MulC, addCarry_length, maskTop_length, carryIn_length, List.length_map, ha]

/-- "The constant must be less than 2^24." -/
theorem mulC_value {a : List UInt8} (ha : a.length = 32) {b : UInt32} (hb : b.toNat < 2 ^ 24) :
    value (f25519MulC a b) = fold (b.toNat * value a) := by
  have hterm : ∀ x : UInt8, (b.toBitVec * widen 32 x).toNat = b.toNat * x.toNat ∧
      b.toNat * x.toNat ≤ 255 * b.toNat := by
    intro x
    have hx : x.toNat ≤ 255 := Nat.le_of_lt_succ x.toNat_lt
    have hle : b.toNat * x.toNat ≤ 255 * b.toNat := by
      rw [Nat.mul_comm 255]
      exact Nat.mul_le_mul_left _ hx
    refine ⟨?_, hle⟩
    rw [BitVec.toNat_mul, widen_toNat (by decide), UInt32.toNat_toBitVec,
      Nat.mod_eq_of_lt (by omega)]
  have hroom : Room 32 (255 * b.toNat) b.toNat := ⟨by omega, by omega⟩
  have hterms : ∀ t ∈ a.map fun a => b.toBitVec * widen 32 a, t.toNat ≤ 255 * b.toNat := by
    intro t ht
    obtain ⟨x, -, rfl⟩ := List.mem_map.mp ht
    exact (hterm x).1.trans_le (hterm x).2
  have hlen : (a.map fun a => b.toBitVec * widen 32 a).length = 32 := (List.length_map _).trans ha
  have hreduce := reduce_value (by decide) (by decide) hroom (by omega) hlen hterms
  simp only [f25519MulC]
  rw [hreduce, total_mul fun x => (hterm x).1]

theorem load_one : f25519Load 1 = f25519One := by decide

theorem one_value : value f25519One = 1 := by
  rw [f25519One, value_cons, value_zeros]
  rfl

/-! ## Normal form -/

theorem select_zero {zero one : List UInt8} (hlen : zero.length = one.length) :
    f25519Select zero one 0 = zero := by
  induction zero generalizing one with
  | nil => rfl
  | cons z zero ih =>
    cases one with
    | nil => cases hlen
    | cons o one =>
      have hhead : z ^^^ ((0 - 0) &&& (o ^^^ z)) = z := by simp
      have htail := ih (Nat.succ.inj hlen)
      rw [f25519Select] at htail ⊢
      rw [List.zipWith_cons_cons, hhead, htail]

theorem select_one {zero one : List UInt8} (hlen : zero.length = one.length) :
    f25519Select zero one 1 = one := by
  induction zero generalizing one with
  | nil => exact (List.eq_nil_of_length_eq_zero hlen.symm).symm
  | cons z zero ih =>
    cases one with
    | nil => cases hlen
    | cons o one =>
      have hhead : z ^^^ ((0 - 1) &&& (o ^^^ z)) = o := by
        have hones : (0 - 1 : UInt8) = -1 := rfl
        rw [hones, UInt8.neg_one_and, UInt8.xor_comm o, ← UInt8.xor_assoc, UInt8.xor_self,
          UInt8.zero_xor]
      have htail := ih (Nat.succ.inj hlen)
      rw [f25519Select] at htail ⊢
      rw [List.zipWith_cons_cons, hhead, htail]

theorem f25519Select_length {zero one : List UInt8} (hlen : zero.length = one.length)
    (condition : UInt8) : (f25519Select zero one condition).length = zero.length := by
  rw [f25519Select, List.length_zipWith, hlen, Nat.min_self]

theorem shift_7 (b : UInt8) : (b >>> 7).toNat = b.toNat / 128 := by
  rw [UInt8.toNat_shiftRight]
  exact Nat.shiftRight_eq_div_pow _ 7

/-- The first half of the reduction: below `2 ^ 255 + 19`. -/
theorem normalize_low {x : List UInt8} (hx : x.length = 32) :
    value (carryOut (widen 16 (x.getD 31 0 >>> 7) * 19) ((maskTop x).map (widen 16))).1 =
      fold (value x) := by
  have hsplit := value_split hx
  have htop := (x.getD 31 0).toNat_lt
  have hsmall := value_lt (x.take 31)
  have hlen : (x.take 31).length = 31 := by rw [List.length_take, hx]; rfl
  rw [hlen] at hsmall
  obtain ⟨hlt, hfold⟩ := fold_split hsmall hsplit
  have hmask := maskTop_value hlen (x.getD 31 0)
  rw [take_concat hx] at hmask
  have hcarry : (widen 16 (x.getD 31 0 >>> 7) * 19).toNat = (x.getD 31 0).toNat / 128 * 19 := by
    rw [BitVec.toNat_mul, widen_toNat (by decide), shift_7, show (19 : BitVec 16).toNat = 19 from rfl,
      Nat.mod_eq_of_lt (by omega)]
  have hroom : Room 16 255 19 := ⟨by decide, by decide⟩
  have hterms : ∀ t ∈ (maskTop x).map (widen 16), t.toNat ≤ 255 := by
    intro t ht
    obtain ⟨b, -, rfl⟩ := List.mem_map.mp ht
    exact widen_le (by decide) b
  obtain ⟨hvalue, -⟩ := carryOut_value hroom hterms (hcarry.trans_le (by omega))
  rw [total_widen (by decide), hcarry, List.length_map, maskTop_length, hx, hmask] at hvalue
  omega

theorem f25519Normalize_length {x : List UInt8} (hx : x.length = 32) :
    (f25519Normalize x).length = 32 := by
  simp only [f25519Normalize]
  rw [f25519Select_length]
  · simp [hx, maskTop_length]
  · simp [hx, maskTop_length]

theorem bit_15 (v : BitVec 16) : (v >>> 15 &&& 1).toNat = v.toNat / 2 ^ 15 := by
  have hlt := v.isLt
  have hand : v.toNat / 2 ^ 15 &&& 1 = v.toNat / 2 ^ 15 % 2 := Nat.and_two_pow_sub_one_eq_mod _ 1
  rw [BitVec.toNat_and, BitVec.toNat_ushiftRight, Nat.shiftRight_eq_div_pow,
    show (1 : BitVec 16).toNat = 1 from rfl, hand]
  omega

theorem fold_mod (s : ℕ) : fold s % p25519 = s % p25519 := by
  conv_rhs => rw [← fold_add s, Nat.add_mul_mod_self_left]

theorem normalize_value {x : List UInt8} (hx : x.length = 32) :
    value (f25519Normalize x) = value x % p25519 := by
  have hfirst := normalize_low hx
  generalize hy : (carryOut (widen 16 (x.getD 31 0 >>> 7) * 19) ((maskTop x).map (widen 16))).1 = y
    at hfirst
  have hlen : y.length = 32 := by
    rw [← hy, carryOut_length, List.length_map, maskTop_length, hx]
  have hrange : fold (value x) < 2 * p25519 := by
    have hlt := value_lt x
    rw [hx] at hlt
    have hfold : fold (value x) < 2 ^ 255 + 19 * 2 := fold_lt hlt
    unfold p25519
    omega
  have hmod : value x % p25519 = if value y < p25519 then value y else value y - p25519 := by
    rw [← fold_mod, ← hfirst]
    split
    · next hlt => exact Nat.mod_eq_of_lt hlt
    · next hge =>
      rw [Nat.mod_eq_sub_mod (Nat.le_of_not_lt hge), Nat.mod_eq_of_lt (by omega)]
  have hfront : (y.take 31).length = 31 := by rw [List.length_take, hlen]; rfl
  have hroom : Room 16 255 19 := ⟨by decide, by decide⟩
  have hterms : ∀ t ∈ (y.take 31).map (widen 16), t.toNat ≤ 255 := by
    intro t ht
    obtain ⟨b, -, rfl⟩ := List.mem_map.mp ht
    exact widen_le (by decide) b
  obtain ⟨hvalue, htop⟩ := carryOut_value hroom hterms (c := 19) (by decide)
  rw [total_widen (by decide), List.length_map, hfront, show (19 : BitVec 16).toNat = 19 from rfl]
    at hvalue
  have hsmall := value_lt (carryOut (19 : BitVec 16) ((y.take 31).map (widen 16))).1
  rw [carryOut_length, List.length_map, hfront] at hsmall
  have hsplit := value_split hlen
  have hlast := (y.getD 31 0).toNat_lt
  have hwide := widen_toNat (w := 16) (by decide) (y.getD 31 0)
  simp only [f25519Normalize, hy]
  have hlowlen : (carryOut (19 : BitVec 16) ((y.take 31).map (widen 16))).1.length = 31 := by
    rw [carryOut_length, List.length_map, hfront]
  generalize carryOut (19 : BitVec 16) ((y.take 31).map (widen 16)) = low at *
  have hminusp : (low.1 ++ [UInt8.ofNat (low.2 + (widen 16 (y.getD 31 0) - 128)).toNat]).length =
      y.length := by rw [List.length_append, hlowlen, hlen]; rfl
  rw [hmod]
  by_cases hge : value y < p25519
  · have hneg : low.2.toNat + (y.getD 31 0).toNat < 128 := by
      unfold p25519 at hge
      omega
    have hbit : UInt8.ofNat ((low.2 + (widen 16 (y.getD 31 0) - 128)) >>> 15 &&& 1).toNat = 1 := by
      have hwrap : (low.2 + (widen 16 (y.getD 31 0) - 128)).toNat =
          low.2.toNat + (y.getD 31 0).toNat + 2 ^ 16 - 128 := by bv_omega
      rw [bit_15, hwrap, show (low.2.toNat + (y.getD 31 0).toNat + 2 ^ 16 - 128) / 2 ^ 15 = 1 by omega]
      rfl
    rw [if_pos hge, hbit, select_one hminusp]
  · have hpos : 128 ≤ low.2.toNat + (y.getD 31 0).toNat := by
      unfold p25519 at hge
      omega
    have hsum : (low.2 + (widen 16 (y.getD 31 0) - 128)).toNat =
        low.2.toNat + (y.getD 31 0).toNat - 128 := by bv_omega
    have hbit : UInt8.ofNat ((low.2 + (widen 16 (y.getD 31 0) - 128)) >>> 15 &&& 1).toNat = 0 := by
      rw [bit_15, hsum, show (low.2.toNat + (y.getD 31 0).toNat - 128) / 2 ^ 15 = 0 by omega]
      rfl
    rw [if_neg hge, hbit, select_zero hminusp, value_append, hlowlen, value_cons, value_nil,
      toNat_ofNat_byte, hsum]
    unfold p25519
    omega

/-! ## Equality -/

theorem foldl_or_eq_zero (ds : List UInt8) (sum : UInt8) :
    ds.foldl (fun sum d => sum ||| d) sum = 0 ↔ sum = 0 ∧ ∀ d ∈ ds, d = 0 := by
  induction ds generalizing sum with
  | nil => simp
  | cons d ds ih =>
    rw [List.foldl_cons, ih, UInt8.or_eq_zero_iff, List.forall_mem_cons, and_assoc]

theorem zipWith_xor_zero {x y : List UInt8} (hlen : x.length = y.length) :
    (∀ d ∈ List.zipWith (fun x y => x ^^^ y) x y, d = 0) ↔ x = y := by
  induction x generalizing y with
  | nil => simp [List.eq_nil_of_length_eq_zero hlen.symm]
  | cons a x ih =>
    cases y with
    | nil => cases hlen
    | cons b y =>
      rw [List.zipWith_cons_cons, List.forall_mem_cons, ih (Nat.succ.inj hlen),
        UInt8.xor_eq_zero_iff, List.cons.injEq]

/-- The bits of `sum` gathered in the lowest one. -/
theorem gather_bits : ∀ n < 256, let sum := UInt8.ofNat n
    let sum := sum ||| (sum >>> 4)
    let sum := sum ||| (sum >>> 2)
    let sum := sum ||| (sum >>> 1)
    ((sum ^^^ 1) &&& 1) = if n = 0 then 1 else 0 := by
  decide +kernel

theorem f25519Eq_value {x y : List UInt8} (hlen : x.length = y.length) :
    f25519Eq x y = if x = y then 1 else 0 := by
  have hgather := gather_bits _
    ((List.zipWith (fun x y => x ^^^ y) x y).foldl (fun sum d => sum ||| d) 0).toNat_lt
  rw [UInt8.ofNat_toNat] at hgather
  have hzero := (foldl_or_eq_zero (List.zipWith (fun x y => x ^^^ y) x y) 0).trans
    ((and_iff_right rfl).trans (zipWith_xor_zero hlen))
  simp only [f25519Eq]
  refine hgather.trans ?_
  by_cases heq : x = y
  · rw [if_pos heq, if_pos (by rw [hzero.mpr heq]; rfl)]
  · rw [if_neg heq, if_neg]
    intro h
    exact heq (hzero.mp (UInt8.toNat_inj.mp h))

end NavHAL.Crypto
