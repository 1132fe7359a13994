import Mathlib.Data.Nat.ModEq
import Mathlib.Tactic.Ring

/-!
# Hashing block by block

A function on blocks of `n` bytes is carried over a string, of which the last bytes are
padded with a mark, zeros and a field.

* `absorb_append` : a part of whole blocks can be absorbed first;
* `digest_short`, `digest_long` : the last bytes of a string take one block or two;
* `Streamed.push` : byte by byte, with the bytes of the block that is being filled.
-/

namespace NavHAL.Blocks

variable {σ : Type*} {n : ℕ} {compress : σ → List UInt8 → σ}

/-- The whole blocks of `msg`, one after the other. -/
def absorb (n : ℕ) (compress : σ → List UInt8 → σ) (s : σ) (msg : List UInt8) : σ :=
  if 0 < n ∧ n ≤ msg.length then absorb n compress (compress s (msg.take n)) (msg.drop n) else s
termination_by msg.length
decreasing_by
  rw [List.length_drop]
  omega

theorem absorb_short {s : σ} {msg : List UInt8} (h : msg.length < n) :
    absorb n compress s msg = s := by
  rw [absorb, if_neg (by omega)]

theorem absorb_block (hn : 0 < n) {s : σ} {blk rest : List UInt8} (h : blk.length = n) :
    absorb n compress s (blk ++ rest) = absorb n compress (compress s blk) rest := by
  have hle : n ≤ (blk ++ rest).length := by
    rw [List.length_append]
    omega
  rw [absorb, if_pos ⟨hn, hle⟩, List.take_left' h, List.drop_left' h]

theorem absorb_one (hn : 0 < n) {s : σ} {blk : List UInt8} (h : blk.length = n) :
    absorb n compress s blk = compress s blk := by
  conv_lhs => rw [← List.append_nil blk, absorb_block hn h]
  exact absorb_short hn

/-- Whole blocks first. -/
theorem absorb_append (hn : 0 < n) {s : σ} {xs ys : List UInt8} (h : n ∣ xs.length) :
    absorb n compress s (xs ++ ys) = absorb n compress (absorb n compress s xs) ys := by
  obtain ⟨k, hk⟩ := h
  induction k generalizing s xs with
  | zero =>
    rw [Nat.mul_zero] at hk
    have hnil : absorb n compress s [] = s := absorb_short hn
    rw [List.eq_nil_of_length_eq_zero hk, List.nil_append, hnil]
  | succ k ih =>
    have hfirst : (xs.take n).length = n := by
      rw [List.length_take, hk, Nat.mul_succ]
      omega
    have hrest : (xs.drop n).length = n * k := by
      rw [List.length_drop, hk, Nat.mul_succ, Nat.add_sub_cancel]
    conv_lhs => rw [← List.take_append_drop n xs, List.append_assoc, absorb_block hn hfirst]
    conv_rhs => rw [← List.take_append_drop n xs, absorb_block hn hfirst]
    exact ih hrest

/-! ## Padding -/

/-- The zeros that make `k` a multiple of `n`. -/
def fill (n k : ℕ) : ℕ := (n - k % n) % n

theorem fill_dvd (hn : 0 < n) (k : ℕ) : n ∣ k + fill n k := by
  have hmod := Nat.mod_lt k hn
  have hsplit := Nat.div_add_mod k n
  unfold fill
  by_cases hzero : k % n = 0
  · rw [hzero, Nat.sub_zero, Nat.mod_self, Nat.add_zero]
    exact Nat.dvd_of_mod_eq_zero hzero
  · rw [Nat.mod_eq_of_lt (by omega)]
    refine ⟨k / n + 1, ?_⟩
    rw [Nat.mul_succ]
    omega

/-- No fewer zeros would do. -/
theorem fill_le (hn : 0 < n) {k z : ℕ} (h : n ∣ k + z) : fill n k ≤ z := by
  have hlt : fill n k < n := Nat.mod_lt _ hn
  have hmod : fill n k ≡ z [MOD n] := by
    have hboth := (Nat.modEq_zero_iff_dvd.mpr (fill_dvd hn k)).trans
      (Nat.modEq_zero_iff_dvd.mpr h).symm
    exact hboth.add_left_cancel' k
  calc fill n k = fill n k % n := (Nat.mod_eq_of_lt hlt).symm
    _ = z % n := hmod
    _ ≤ z := Nat.mod_le z n

def padding (n len : ℕ) (field : List UInt8) : List UInt8 :=
  0x80 :: (List.replicate (fill n (len + 1 + field.length)) 0 ++ field)

def digest (n : ℕ) (compress : σ → List UInt8 → σ) (s : σ) (msg field : List UInt8) : σ :=
  absorb n compress s (msg ++ padding n msg.length field)

section Last

variable {s : σ} {full data field : List UInt8}

theorem fill_of_lt {m r z : ℕ} (hdvd : n ∣ m) (hz : z < n) (h : n ∣ r + z) :
    fill n (m + r) = z := by
  have hn : 0 < n := by omega
  have hwhole : n ∣ m + r + z := by
    rw [Nat.add_assoc]
    exact Nat.dvd_add hdvd h
  have hle := fill_le hn hwhole
  have hback : n ∣ z - fill n (m + r) := by
    have hsub := Nat.dvd_sub hwhole (fill_dvd hn (m + r))
    rwa [Nat.add_sub_add_left] at hsub
  have hzero := Nat.eq_zero_of_dvd_of_lt hback (by omega)
  omega

theorem digest_eq (hn : 0 < n) (hfull : n ∣ full.length) :
    digest n compress s (full ++ data) field =
      absorb n compress (absorb n compress s full)
        (data ++ padding n (full ++ data).length field) := by
  rw [digest, List.append_assoc, absorb_append hn hfull]

/-- What is left and the field fit one block. -/
theorem digest_short (hfull : n ∣ full.length) (hfits : data.length + 1 + field.length ≤ n) :
    digest n compress s (full ++ data) field =
      compress (absorb n compress s full)
        (data ++ 0x80 :: (List.replicate (n - 1 - data.length - field.length) 0 ++ field)) := by
  have hn : 0 < n := by omega
  have hfill : fill n ((full ++ data).length + 1 + field.length) =
      n - 1 - data.length - field.length := by
    rw [List.length_append, Nat.add_assoc, Nat.add_assoc]
    apply fill_of_lt hfull (by omega)
    exact Dvd.intro 1 (by omega)
  rw [digest_eq hn hfull, padding, hfill, absorb_one hn]
  simp only [List.length_append, List.length_cons, List.length_replicate]
  omega

/-- They do not: the field gets a block of its own. -/
theorem digest_long (hfull : n ∣ full.length) (hdata : data.length < n)
    (hover : n < data.length + 1 + field.length) (hfield : field.length < n) :
    digest n compress s (full ++ data) field =
      compress (compress (absorb n compress s full)
        (data ++ 0x80 :: List.replicate (n - 1 - data.length) 0))
        (List.replicate (n - field.length) 0 ++ field) := by
  have hn : 0 < n := by omega
  have hfill : fill n ((full ++ data).length + 1 + field.length) =
      (n - 1 - data.length) + (n - field.length) := by
    rw [List.length_append, Nat.add_assoc, Nat.add_assoc]
    apply fill_of_lt hfull (by omega)
    exact Dvd.intro 2 (by omega)
  have hblocks : data ++ padding n (full ++ data).length field =
      (data ++ 0x80 :: List.replicate (n - 1 - data.length) 0) ++
        (List.replicate (n - field.length) 0 ++ field) := by
    rw [padding, hfill, ← List.replicate_append_replicate]
    simp only [List.append_assoc, List.cons_append]
  rw [digest_eq hn hfull, hblocks, absorb_block hn, absorb_one hn]
  · rw [List.length_append, List.length_replicate]
    omega
  · rw [List.length_append, List.length_cons, List.length_replicate]
    omega

end Last

/-! ## Byte by byte -/

/-- `h` has the whole blocks of `msg`, and `data` is what is left of it. -/
def Streamed (n : ℕ) (compress : σ → List UInt8 → σ) (s h : σ) (data msg : List UInt8) : Prop :=
  ∃ full, n ∣ full.length ∧ data.length < n ∧ full ++ data = msg ∧ absorb n compress s full = h

theorem streamed_nil (hn : 0 < n) (s : σ) : Streamed n compress s s [] [] :=
  ⟨[], Nat.dvd_zero n, hn, rfl, absorb_short hn⟩

theorem Streamed.push {s h : σ} {data msg : List UInt8} (hs : Streamed n compress s h data msg)
    (b : UInt8) : if data.length + 1 = n
      then Streamed n compress s (compress h (data ++ [b])) [] (msg ++ [b])
      else Streamed n compress s h (data ++ [b]) (msg ++ [b]) := by
  obtain ⟨full, hfull, hlt, rfl, rfl⟩ := hs
  have hn : 0 < n := by omega
  have hlen : (data ++ [b]).length = data.length + 1 := List.length_append
  split
  · next heq =>
    refine ⟨full ++ (data ++ [b]), ?_, hn, ?_, ?_⟩
    · rw [List.length_append, hlen, heq]
      exact Nat.dvd_add hfull (Nat.dvd_refl n)
    · rw [List.append_nil, List.append_assoc]
    · rw [absorb_append hn hfull, absorb_one hn (hlen.trans heq)]
  · next hne =>
    refine ⟨full, hfull, ?_, ?_, rfl⟩
    · rw [hlen]
      omega
    · rw [List.append_assoc]

end NavHAL.Blocks
