/-!
# Little-endian words

Words and their bytes, lowest first, with both round trips; `pack` and `unpack` are for
a string of bytes of any length, of which the last word is padded.
-/

namespace NavHAL.Bytes

def le16 (v : UInt16) : List UInt8 := [v.toUInt8, (v >>> 8).toUInt8]

def ofLe16 (b0 b1 : UInt8) : UInt16 := b0.toUInt16 ||| (b1.toUInt16 <<< 8)

def le32 (v : UInt32) : List UInt8 :=
  [v.toUInt8, (v >>> 8).toUInt8, (v >>> 16).toUInt8, (v >>> 24).toUInt8]

def ofLe32 (b0 b1 b2 b3 : UInt8) : UInt32 :=
  b0.toUInt32 ||| (b1.toUInt32 <<< 8) ||| (b2.toUInt32 <<< 16) ||| (b3.toUInt32 <<< 24)

@[simp] theorem le32_length (v : UInt32) : (le32 v).length = 4 := rfl

/-! ## From a word to its bytes and back -/

theorem ofLe16_bytes (v : UInt16) : ofLe16 v.toUInt8 (v >>> 8).toUInt8 = v := by
  apply UInt16.eq_of_toBitVec_eq
  simp only [ofLe16, UInt16.toBitVec_or, UInt16.toBitVec_shiftLeft, UInt8.toBitVec_toUInt16,
    UInt16.toBitVec_toUInt8, UInt16.toBitVec_shiftRight]
  apply BitVec.eq_of_getLsbD_eq
  intro i hi
  simp
  grind

theorem ofLe32_bytes (v : UInt32) :
    ofLe32 v.toUInt8 (v >>> 8).toUInt8 (v >>> 16).toUInt8 (v >>> 24).toUInt8 = v := by
  apply UInt32.eq_of_toBitVec_eq
  simp only [ofLe32, UInt32.toBitVec_or, UInt32.toBitVec_shiftLeft, UInt8.toBitVec_toUInt32,
    UInt32.toBitVec_toUInt8, UInt32.toBitVec_shiftRight]
  apply BitVec.eq_of_getLsbD_eq
  intro i hi
  simp
  grind

theorem le32_inj {v w : UInt32} (h : le32 v = le32 w) : v = w := by
  simp only [le32, List.cons.injEq, and_true] at h
  obtain ⟨h0, h1, h2, h3⟩ := h
  rw [← ofLe32_bytes v, h0, h1, h2, h3, ofLe32_bytes]

/-! ## From bytes to a word and back -/

theorem le32_ofLe32 (b0 b1 b2 b3 : UInt8) : le32 (ofLe32 b0 b1 b2 b3) = [b0, b1, b2, b3] := by
  have hbits : ∀ {b b' : UInt8}, (∀ i, i < 8 → b.toBitVec.getLsbD i = b'.toBitVec.getLsbD i) →
      b = b' := by
    intro b b' h
    exact UInt8.eq_of_toBitVec_eq (BitVec.eq_of_getLsbD_eq h)
  have h0 : (ofLe32 b0 b1 b2 b3).toUInt8 = b0 := by
    apply hbits
    intro i hi
    simp [ofLe32]
  have h1 : (ofLe32 b0 b1 b2 b3 >>> 8).toUInt8 = b1 := by
    apply hbits
    intro i hi
    simp [ofLe32]
    grind
  have h2 : (ofLe32 b0 b1 b2 b3 >>> 16).toUInt8 = b2 := by
    apply hbits
    intro i hi
    simp [ofLe32]
    grind
  have h3 : (ofLe32 b0 b1 b2 b3 >>> 24).toUInt8 = b3 := by
    apply hbits
    intro i hi
    simp [ofLe32]
    grind
  rw [le32, h0, h1, h2, h3]

/-! ## Strings of bytes -/

/-- The words that hold `bytes`, four in each. -/
def pack : List UInt8 → List UInt32
  | [] => []
  | [b0] => [ofLe32 b0 0 0 0]
  | [b0, b1] => [ofLe32 b0 b1 0 0]
  | [b0, b1, b2] => [ofLe32 b0 b1 b2 0]
  | b0 :: b1 :: b2 :: b3 :: bytes => ofLe32 b0 b1 b2 b3 :: pack bytes

def unpack (words : List UInt32) : List UInt8 := words.flatMap le32

@[simp] theorem unpack_cons (word : UInt32) (words : List UInt32) :
    unpack (word :: words) = le32 word ++ unpack words := rfl

@[simp] theorem unpack_append (words words' : List UInt32) :
    unpack (words ++ words') = unpack words ++ unpack words' := List.flatMap_append

@[simp] theorem unpack_length (words : List UInt32) :
    (unpack words).length = 4 * words.length := by
  induction words with
  | nil => rfl
  | cons word words ih =>
    rw [unpack_cons, List.length_append, ih, le32_length, List.length_cons]
    omega

theorem pack_length (bytes : List UInt8) : (pack bytes).length = (bytes.length + 3) / 4 := by
  induction bytes using pack.induct with
  | case1 => rfl
  | case2 => simp [pack]
  | case3 => simp [pack]
  | case4 => simp [pack]
  | case5 b0 b1 b2 b3 bytes ih =>
    simp only [pack, List.length_cons, ih]
    omega

/-- What is unpacked ends with the padding of the last word. -/
theorem take_unpack_pack (bytes : List UInt8) :
    (unpack (pack bytes)).take bytes.length = bytes := by
  induction bytes using pack.induct with
  | case1 => rfl
  | case2 b0 => simp [pack, unpack, le32_ofLe32]
  | case3 b0 b1 => simp [pack, unpack, le32_ofLe32]
  | case4 b0 b1 b2 => simp [pack, unpack, le32_ofLe32]
  | case5 b0 b1 b2 b3 bytes ih =>
    rw [pack, unpack_cons, le32_ofLe32]
    simpa using ih

/-- Past whole words the rest is packed on its own. -/
theorem drop_pack (bytes : List UInt8) (k : Nat) :
    (pack bytes).drop k = pack (bytes.drop (4 * k)) := by
  induction k generalizing bytes with
  | zero => rfl
  | succ k ih =>
    have hshort : ∀ {bytes : List UInt8}, bytes.length < 4 → bytes.drop (4 * (k + 1)) = [] :=
      fun hlt => List.drop_of_length_le (by omega)
    cases bytes using pack.induct with
    | case1 => simp [pack]
    | case2 b0 => rw [hshort (by simp)]; simp [pack]
    | case3 b0 b1 => rw [hshort (by simp)]; simp [pack]
    | case4 b0 b1 b2 => rw [hshort (by simp)]; simp [pack]
    | case5 b0 b1 b2 b3 bytes => rw [pack, List.drop_succ_cons, ih bytes]; rfl

/-- The first `n` of the bytes that the words hold. -/
theorem take_unpack {bytes : List UInt8} {words rest : List UInt32} {n : Nat}
    (h : words ++ rest = pack bytes) (hn : n ≤ 4 * words.length) (hbytes : n ≤ bytes.length) :
    (unpack words).take n = bytes.take n := by
  have hunpack : (unpack (words ++ rest)).take n = (unpack words).take n := by
    rw [unpack_append, List.take_append_of_le_length (by rw [unpack_length]; exact hn)]
  rw [← hunpack, h]
  calc (unpack (pack bytes)).take n
      = ((unpack (pack bytes)).take bytes.length).take n := by
        rw [List.take_take, Nat.min_eq_left hbytes]
    _ = bytes.take n := by rw [take_unpack_pack]

end NavHAL.Bytes
