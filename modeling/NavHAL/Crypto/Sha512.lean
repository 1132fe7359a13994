import NavHAL.Lib.Blocks

/-!
# SHA-512 (`sha512.c`)

* `sha512Block_eq` : the sixteen words that a block keeps are the schedule of all eighty;
* `sha512Final_eq` : the last block, or the last two, for a stream of less than `2 ^ 29` bytes;
* `sha512Get_eq` : any part of the result.
-/

namespace NavHAL.Crypto

open Blocks

/-! ## As in the source -/

/-- `struct sha512_state`, also the working variables of a block. -/
structure Sha512State where
  a : UInt64
  b : UInt64
  c : UInt64
  d : UInt64
  e : UInt64
  f : UInt64
  g : UInt64
  h : UInt64
  deriving DecidableEq, Repr

/-- `h[0]` to `h[7]` -/
def Sha512State.words (s : Sha512State) : List UInt64 := [s.a, s.b, s.c, s.d, s.e, s.f, s.g, s.h]

/-- `sha512_initial_state` -/
def sha512InitialState : Sha512State :=
  ⟨0x6a09e667f3bcc908, 0xbb67ae8584caa73b, 0x3c6ef372fe94f82b, 0xa54ff53a5f1d36f1,
    0x510e527fade682d1, 0x9b05688c2b3e6c1f, 0x1f83d9abfb41bd6b, 0x5be0cd19137e2179⟩

/-- `round_k` -/
def roundK : List UInt64 := [
  0x428a2f98d728ae22, 0x7137449123ef65cd, 0xb5c0fbcfec4d3b2f, 0xe9b5dba58189dbbc, 0x3956c25bf348b538,
  0x59f111f1b605d019, 0x923f82a4af194f9b, 0xab1c5ed5da6d8118, 0xd807aa98a3030242, 0x12835b0145706fbe,
  0x243185be4ee4b28c, 0x550c7dc3d5ffb4e2, 0x72be5d74f27b896f, 0x80deb1fe3b1696b1, 0x9bdc06a725c71235,
  0xc19bf174cf692694, 0xe49b69c19ef14ad2, 0xefbe4786384f25e3, 0x0fc19dc68b8cd5b5, 0x240ca1cc77ac9c65,
  0x2de92c6f592b0275, 0x4a7484aa6ea6e483, 0x5cb0a9dcbd41fbd4, 0x76f988da831153b5, 0x983e5152ee66dfab,
  0xa831c66d2db43210, 0xb00327c898fb213f, 0xbf597fc7beef0ee4, 0xc6e00bf33da88fc2, 0xd5a79147930aa725,
  0x06ca6351e003826f, 0x142929670a0e6e70, 0x27b70a8546d22ffc, 0x2e1b21385c26c926, 0x4d2c6dfc5ac42aed,
  0x53380d139d95b3df, 0x650a73548baf63de, 0x766a0abb3c77b2a8, 0x81c2c92e47edaee6, 0x92722c851482353b,
  0xa2bfe8a14cf10364, 0xa81a664bbc423001, 0xc24b8b70d0f89791, 0xc76c51a30654be30, 0xd192e819d6ef5218,
  0xd69906245565a910, 0xf40e35855771202a, 0x106aa07032bbd1b8, 0x19a4c116b8d2d0c8, 0x1e376c085141ab53,
  0x2748774cdf8eeb99, 0x34b0bcb5e19b48a8, 0x391c0cb3c5c95a63, 0x4ed8aa4ae3418acb, 0x5b9cca4f7763e373,
  0x682e6ff3d6b2b8a3, 0x748f82ee5defb2fc, 0x78a5636f43172f60, 0x84c87814a1f0ab72, 0x8cc702081a6439ec,
  0x90befffa23631e28, 0xa4506cebde82bde9, 0xbef9a3f7b2c67915, 0xc67178f2e372532b, 0xca273eceea26619c,
  0xd186b8c721c0c207, 0xeada7dd6cde0eb1e, 0xf57d4f7fee6ed178, 0x06f067aa72176fba, 0x0a637dc5a2c898a6,
  0x113f9804bef90dae, 0x1b710b35131c471b, 0x28db77f523047d84, 0x32caab7b40c72493, 0x3c9ebe0a15c9bebc,
  0x431d67c49c100d4c, 0x4cc5d4becb3e42b6, 0x597f299cfc657e2a, 0x5fcb6fab3ad6faec, 0x6c44198c4a475817]

/-- `SHA512_BLOCK_SIZE` -/
def sha512BlockSize : ℕ := 128

/-- `load64` -/
def load64 (x : List UInt8) : UInt64 := (x.take 8).foldl (fun r b => (r <<< 8) ||| b.toUInt64) 0

/-- `store64` -/
def store64 (v : UInt64) : List UInt8 :=
  [(v >>> 56).toUInt8, (v >>> 48).toUInt8, (v >>> 40).toUInt8, (v >>> 32).toUInt8,
    (v >>> 24).toUInt8, (v >>> 16).toUInt8, (v >>> 8).toUInt8, v.toUInt8]

/-- `rot64` -/
def rot64 (x bits : UInt64) : UInt64 := (x >>> bits) ||| (x <<< (64 - bits))

/-- `s0` and `s1` -/
def smallSigma0 (x : UInt64) : UInt64 := rot64 x 1 ^^^ rot64 x 8 ^^^ (x >>> 7)

def smallSigma1 (x : UInt64) : UInt64 := rot64 x 19 ^^^ rot64 x 61 ^^^ (x >>> 6)

/-- One round, with `round_k[i]` and `wi`. -/
def sha512Round (s : Sha512State) (k wi : UInt64) : Sha512State :=
  let bigS0 := rot64 s.a 28 ^^^ rot64 s.a 34 ^^^ rot64 s.a 39
  let bigS1 := rot64 s.e 14 ^^^ rot64 s.e 18 ^^^ rot64 s.e 41
  let ch := (s.e &&& s.f) ^^^ (~~~s.e &&& s.g)
  let temp1 := s.h + bigS1 + ch + k + wi
  let maj := (s.a &&& s.b) ^^^ (s.a &&& s.c) ^^^ (s.b &&& s.c)
  let temp2 := bigS0 + maj
  ⟨temp1 + temp2, s.a, s.b, s.c, s.d + temp1, s.e, s.f, s.g⟩

/-- What one pass of the loop makes of `w` and the variables. -/
def sha512Pass (r : List UInt64 × Sha512State) (i : ℕ) : List UInt64 × Sha512State :=
  let w := r.1
  let wi := w.getD (i &&& 15) 0
  let wi15 := w.getD ((i + 1) &&& 15) 0
  let wi2 := w.getD ((i + 14) &&& 15) 0
  let wi7 := w.getD ((i + 9) &&& 15) 0
  let s0 := smallSigma0 wi15
  let s1 := smallSigma1 wi2
  (w.set (i &&& 15) (wi + s0 + wi7 + s1), sha512Round r.2 (roundK.getD i 0) wi)

/-- `s->h[0] += a;` and the seven lines after it -/
def Sha512State.plus (s v : Sha512State) : Sha512State :=
  ⟨s.a + v.a, s.b + v.b, s.c + v.c, s.d + v.d, s.e + v.e, s.f + v.f, s.g + v.g, s.h + v.h⟩

/-- `sha512_block` -/
def sha512Block (s : Sha512State) (blk : List UInt8) : Sha512State :=
  let w := (List.range 16).map fun i => load64 (blk.drop (8 * i))
  s.plus ((List.range 80).foldl sha512Pass (w, s)).2

/-- `sha512_final`; `size_t` has 32 bits -/
def sha512Final (s : Sha512State) (blk : List UInt8) (totalSize : UInt32) : Sha512State :=
  let lastSize := (totalSize &&& 127).toNat
  let temp := blk.take lastSize ++ 0x80 :: List.replicate (sha512BlockSize - 1 - lastSize) 0
  let (s, temp) :=
    if 111 < lastSize then (sha512Block s temp, List.replicate sha512BlockSize 0) else (s, temp)
  sha512Block s (temp.take (sha512BlockSize - 8) ++ store64 (totalSize <<< 3).toUInt64)

/-- The two last loops of `sha512_get`: whole words, and the bytes of one more. -/
def readOut (s : Sha512State) (i len : ℕ) : List UInt8 :=
  if 8 ≤ len then store64 (s.words.getD i 0) ++ readOut s (i + 1) (len - 8)
  else (store64 (s.words.getD i 0)).take len
termination_by len

/-- `sha512_get` -/
def sha512Get (s : Sha512State) (offset len : ℕ) : List UInt8 :=
  if offset > sha512BlockSize then []
  else
    let len := if len > sha512BlockSize - offset then sha512BlockSize - offset else len
    let i := offset >>> 3
    let offset := offset &&& 7
    if offset ≠ 0 then
      let c := 8 - offset
      let c := if c > len then len else c
      ((store64 (s.words.getD i 0)).drop offset).take c ++ readOut s (i + 1) (len - c)
    else readOut s i len

/-! ## The schedule -/

/-- The word `t` of the eighty that a block is stretched to. -/
def scheduleWord (blk : List UInt8) (t : ℕ) : UInt64 :=
  if t < 16 then load64 (blk.drop (8 * t))
  else smallSigma1 (scheduleWord blk (t - 2)) + scheduleWord blk (t - 7) +
    smallSigma0 (scheduleWord blk (t - 15)) + scheduleWord blk (t - 16)

theorem scheduleWord_add (blk : List UInt8) (t : ℕ) : scheduleWord blk (t + 16) =
    smallSigma1 (scheduleWord blk (t + 14)) + scheduleWord blk (t + 9) +
      smallSigma0 (scheduleWord blk (t + 1)) + scheduleWord blk t := by
  conv_lhs => rw [scheduleWord, if_neg (Nat.not_lt.mpr (Nat.le_add_left 16 t))]
  rfl

/-- The eighty rounds, each with its word. -/
def sha512Rounds (s : Sha512State) (blk : List UInt8) (n : ℕ) : Sha512State :=
  (List.range n).foldl (fun v t => sha512Round v (roundK.getD t 0) (scheduleWord blk t)) s

/-- Before the pass `i` the ring has the words from `i` on, each at its number modulo 16. -/
def RingHolds (blk : List UInt8) (i : ℕ) (w : List UInt64) : Prop :=
  w.length = 16 ∧ ∀ t, i ≤ t → t < i + 16 → w.getD (t % 16) 0 = scheduleWord blk t

theorem and_15 (i : ℕ) : i &&& 15 = i % 16 := Nat.and_two_pow_sub_one_eq_mod i 4

theorem ring_start (blk : List UInt8) :
    RingHolds blk 0 ((List.range 16).map fun i => load64 (blk.drop (8 * i))) := by
  refine ⟨by rw [List.length_map, List.length_range], ?_⟩
  intro t _ ht
  rw [Nat.zero_add] at ht
  have hget : ((List.range 16).map fun i => load64 (blk.drop (8 * i)))[t]? =
      some (load64 (blk.drop (8 * t))) := by
    rw [List.getElem?_map, List.getElem?_range ht]
    rfl
  rw [Nat.mod_eq_of_lt ht, scheduleWord, if_pos ht, List.getD_eq_getElem?_getD, hget]
  rfl

/-- A pass takes the lowest word out and puts the next one in its place. -/
theorem ring_step {blk : List UInt8} {i : ℕ} {w : List UInt64} (h : RingHolds blk i w)
    (s : Sha512State) : RingHolds blk (i + 1) (sha512Pass (w, s) i).1 ∧
      (sha512Pass (w, s) i).2 = sha512Round s (roundK.getD i 0) (scheduleWord blk i) := by
  obtain ⟨hlen, hw⟩ := h
  have hwi := hw i le_rfl (by omega)
  have hwi15 := hw (i + 1) (by omega) (by omega)
  have hwi2 := hw (i + 14) (by omega) (by omega)
  have hwi7 := hw (i + 9) (by omega) (by omega)
  simp only [sha512Pass, and_15, hwi, hwi15, hwi2, hwi7]
  refine ⟨⟨List.length_set.trans hlen, ?_⟩, trivial⟩
  intro t hle hlt
  rw [List.getD_eq_getElem?_getD, List.getElem?_set]
  by_cases hnew : t = i + 16
  · have hsame : i % 16 = t % 16 := by omega
    have hin : i % 16 < w.length := by omega
    rw [if_pos hsame, if_pos (hsame ▸ hin), hnew, scheduleWord_add]
    show _ + _ + _ + _ = _ + _ + _ + _
    ac_rfl
  · have hother : i % 16 ≠ t % 16 := by omega
    rw [if_neg hother, ← List.getD_eq_getElem?_getD]
    exact hw t (by omega) (by omega)

theorem passes_eq (blk : List UInt8) (s : Sha512State) (n : ℕ) :
    let r := (List.range n).foldl sha512Pass
      ((List.range 16).map fun i => load64 (blk.drop (8 * i)), s)
    RingHolds blk n r.1 ∧ r.2 = sha512Rounds s blk n := by
  induction n with
  | zero => exact ⟨ring_start blk, rfl⟩
  | succ n ih =>
    obtain ⟨hring, hvars⟩ := ih
    obtain ⟨hnext, hround⟩ := ring_step hring
      ((List.range n).foldl sha512Pass
        ((List.range 16).map fun i => load64 (blk.drop (8 * i)), s)).2
    simp only [sha512Rounds, List.range_succ, List.foldl_append, List.foldl_cons, List.foldl_nil]
    rw [← sha512Rounds, ← hvars]
    exact ⟨hnext, hround⟩

/-- What a block makes of a state. -/
def compress512 (s : Sha512State) (blk : List UInt8) : Sha512State :=
  s.plus (sha512Rounds s blk 80)

theorem sha512Block_eq : sha512Block = compress512 := by
  funext s blk
  rw [sha512Block, (passes_eq blk s 80).2, compress512]

/-! ## The end of a stream -/

/-- The length in bits, in sixteen bytes. -/
def lengthField (len : ℕ) : List UInt8 := List.replicate 8 0 ++ store64 (UInt64.ofNat (len * 8))

theorem lengthField_length (len : ℕ) : (lengthField len).length = 16 := rfl

/-- What SHA-512 is of a string. -/
def sha512 (msg : List UInt8) : Sha512State :=
  digest 128 compress512 sha512InitialState msg (lengthField msg.length)

theorem zeros_append (m n : ℕ) (rest : List UInt8) :
    List.replicate m 0 ++ (List.replicate n 0 ++ rest) = List.replicate (m + n) 0 ++ rest := by
  rw [← List.append_assoc, List.replicate_append_replicate]

theorem take_zeros {d n : ℕ} (hn : d + 1 ≤ n) {data : List UInt8} (hdata : data.length = d)
    (k : ℕ) : (data ++ 0x80 :: List.replicate (n - 1 - d + k) 0).take n =
      data ++ 0x80 :: List.replicate (n - 1 - d) 0 := by
  rw [← List.replicate_append_replicate, ← List.cons_append, ← List.append_assoc]
  apply List.take_left'
  rw [List.length_append, List.length_cons, List.length_replicate]
  omega

theorem last_size {len : ℕ} (hlen : len < 2 ^ 29) : (UInt32.ofNat len &&& 127).toNat = len % 128 := by
  have hsize : len < UInt32.size := hlen.trans (by decide)
  rw [UInt32.toNat_and, UInt32.toNat_ofNat_of_lt' hsize]
  exact Nat.and_two_pow_sub_one_eq_mod _ 7

theorem total_bits {len : ℕ} (hlen : len < 2 ^ 29) :
    (UInt32.ofNat len <<< 3).toUInt64 = UInt64.ofNat (len * 8) := by
  have hsize : len < UInt32.size := hlen.trans (by decide)
  have hbits : len * 8 < UInt64.size := by
    have hle : 2 ^ 29 * 8 ≤ UInt64.size := by decide
    omega
  apply UInt64.toNat_inj.mp
  rw [UInt32.toNat_toUInt64, UInt32.toNat_shiftLeft, UInt32.toNat_ofNat_of_lt' hsize,
    UInt64.toNat_ofNat_of_lt' hbits, show (3 : UInt32).toNat % 32 = 3 from rfl, Nat.shiftLeft_eq]
  omega

/-- The state has the whole blocks, and `blk` starts with what is left. -/
theorem sha512Final_eq {full data : List UInt8} (hfull : 128 ∣ full.length)
    (hdata : data.length < 128) (hlen : (full ++ data).length < 2 ^ 29) {blk : List UInt8}
    (hblk : blk.take data.length = data) :
    sha512Final (absorb 128 sha512Block sha512InitialState full) blk
      (UInt32.ofNat (full ++ data).length) = sha512 (full ++ data) := by
  have hlast : (UInt32.ofNat (full ++ data).length &&& 127).toNat = data.length := by
    rw [last_size hlen, List.length_append]
    omega
  have hfield := lengthField_length (full ++ data).length
  simp only [sha512Final, hlast, hblk, total_bits hlen, sha512BlockSize, sha512, ← sha512Block_eq]
  by_cases hshort : data.length ≤ 111
  · have hzeros : 128 - 1 - data.length = 120 - 1 - data.length + 8 := by omega
    have hfill : 128 - 1 - data.length - 16 + 8 = 120 - 1 - data.length := by omega
    rw [if_neg (Nat.not_lt.mpr hshort), digest_short hfull (by omega), hfield, lengthField,
      zeros_append, hfill, hzeros]
    simp only [take_zeros (show data.length + 1 ≤ 120 by omega) rfl, List.append_assoc,
      List.cons_append]
  · have htake : (List.replicate 128 (0 : UInt8)).take (128 - 8) = List.replicate 120 0 := rfl
    rw [if_pos (by omega), digest_long hfull hdata (by omega) (by omega), hfield, lengthField,
      zeros_append, htake]

/-! ## Reading the result -/

/-- The hash, highest byte of every word first. -/
def Sha512State.bytes (s : Sha512State) : List UInt8 := s.words.flatMap store64

theorem words_from (ws : List UInt64) {i : ℕ} (hi : i < ws.length) :
    (ws.drop i).flatMap store64 = store64 (ws.getD i 0) ++ (ws.drop (i + 1)).flatMap store64 := by
  rw [List.drop_eq_getElem_cons hi, List.flatMap_cons, List.getD_eq_getElem?_getD,
    List.getElem?_eq_getElem hi]
  rfl

theorem store64_length (v : UInt64) : (store64 v).length = 8 := rfl

theorem readOut_eq (s : Sha512State) {i len : ℕ} (h : 8 * i + len ≤ 64) :
    readOut s i len = ((s.words.drop i).flatMap store64).take len := by
  induction i, len using readOut.induct with
  | case1 i len hlarge ih =>
    have hlt : i < s.words.length := show i < 8 by omega
    have hfirst : (store64 (s.words.getD i 0)).take len = store64 (s.words.getD i 0) :=
      List.take_of_length_le hlarge
    rw [readOut, if_pos hlarge, ih (by omega), words_from _ hlt, List.take_append, hfirst,
      store64_length]
  | case2 i len hsmall =>
    rw [readOut, if_neg hsmall]
    rcases Nat.eq_zero_or_pos len with rfl | hpos
    · rw [List.take_zero, List.take_zero]
    · have hlt : i < s.words.length := show i < 8 by omega
      rw [words_from _ hlt, List.take_append_of_le_length (by rw [store64_length]; omega)]

theorem drop_words (ws : List UInt64) (i : ℕ) :
    (ws.flatMap store64).drop (8 * i) = (ws.drop i).flatMap store64 := by
  induction i generalizing ws with
  | zero => rfl
  | succ i ih =>
    cases ws with
    | nil => rfl
    | cons v ws =>
      have hsum : 8 * (i + 1) = (store64 v).length + 8 * i := by
        rw [store64_length]
        omega
      rw [List.flatMap_cons, hsum, List.drop_length_add_append, ih, List.drop_succ_cons]

/-- `len` bytes of the hash, from `offset` on. -/
theorem sha512Get_eq (s : Sha512State) {offset len : ℕ} (h : offset + len ≤ 64) :
    sha512Get s offset len = (s.bytes.drop offset).take len := by
  have hand : offset &&& 7 = offset % 8 := Nat.and_two_pow_sub_one_eq_mod offset 3
  have hshift : offset >>> 3 = offset / 8 := Nat.shiftRight_eq_div_pow offset 3
  have hin : ¬ offset > sha512BlockSize := by
    unfold sha512BlockSize
    omega
  have hclamp : ¬ len > sha512BlockSize - offset := by
    unfold sha512BlockSize
    omega
  have hbytes : s.bytes.drop offset =
      ((s.words.drop (offset / 8)).flatMap store64).drop (offset % 8) := by
    rw [← drop_words, List.drop_drop, Nat.div_add_mod, Sha512State.bytes]
  simp only [sha512Get, if_neg hin, if_neg hclamp, hand, hshift]
  by_cases hwhole : offset % 8 = 0
  · rw [if_neg (not_not.mpr hwhole), readOut_eq s (by omega), hbytes, hwhole, List.drop_zero]
  · have hlt : offset / 8 < s.words.length := show offset / 8 < 8 by omega
    have hcount : (if 8 - offset % 8 > len then len else 8 - offset % 8) =
        min len (8 - offset % 8) := by
      split <;> omega
    have hpart : ((store64 (s.words.getD (offset / 8) 0)).drop (offset % 8)).length =
        8 - offset % 8 := by rw [List.length_drop, store64_length]
    have hleft : len - min len (8 - offset % 8) = len - (8 - offset % 8) := by omega
    rw [if_pos hwhole, hcount, readOut_eq s (by omega), hbytes, words_from _ hlt,
      List.drop_append_of_le_length (by rw [store64_length]; omega), List.take_append, hpart, hleft,
      ← List.take_take, List.take_of_length_le hpart.le]

theorem sha512Get_all (s : Sha512State) : sha512Get s 0 64 = s.bytes := by
  rw [sha512Get_eq s (by decide), List.drop_zero]
  exact List.take_of_length_le (Nat.le_refl 64)

end NavHAL.Crypto
