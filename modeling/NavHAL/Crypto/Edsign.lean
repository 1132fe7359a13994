import NavHAL.Crypto.Order
import NavHAL.Crypto.Sha512

/-!
# Signatures (`edsign.c`, `compact_ed25519.c`)

* `hashWithPrefix_eq` : the hash of two strings, put together in blocks on the way;
* `edsignVerify_iff` : what is accepted, as an equation between points;
* `verify_mod_order` : which signatures are accepted with the same first half;
* `sign_verifies` : what is signed is accepted.
-/

namespace NavHAL.Crypto

open Limbs Ladder Edwards Blocks

/-! ## As in the source -/

/-- The 32 bytes from `off` on. -/
def slice32 (l : List UInt8) (off : ℕ) : List.Vector UInt8 32 :=
  ⟨(List.range 32).map fun i => l.getD (off + i) 0, by rw [List.length_map, List.length_range]⟩

/-- `ed25519_prepare` -/
def ed25519Prepare (e : List UInt8) : List UInt8 :=
  let e := e.set 0 (e.getD 0 0 &&& 0xf8)
  let e := e.set 31 (e.getD 31 0 &&& 0x7f)
  e.set 31 (e.getD 31 0 ||| 0x40)

/-- `expand_key` -/
def expandKey (secret : List UInt8) : List UInt8 :=
  ed25519Prepare (sha512Get (sha512Final sha512InitialState secret 32) 0 64)

/-- `upp` -/
def upp (packed : List.Vector UInt8 32) : Ed25519Pt × UInt8 :=
  let r := ed25519TryUnpack packed
  (ed25519Project r.1 r.2.1, r.2.2)

/-- `pp` -/
def pp (p : Ed25519Pt) : List UInt8 :=
  let r := ed25519Unproject p
  ed25519Pack r.1 r.2

/-- `sm_pack` -/
def smPack (k : List.Vector UInt8 32) : List UInt8 := pp (ed25519Smult ed25519Base k)

/-- `edsign_sec_to_pub` -/
def edsignSecToPub (secret : List UInt8) : List UInt8 := smPack (slice32 (expandKey secret) 0)

/-- `for (; i + SHA512_BLOCK_SIZE <= len; i += SHA512_BLOCK_SIZE) sha512_block(&s, message + i);` -/
def blockLoop (message : List UInt8) (s : Sha512State) (i : ℕ) : Sha512State × ℕ :=
  if i + sha512BlockSize ≤ message.length then
    blockLoop message (sha512Block s ((message.drop i).take sha512BlockSize)) (i + sha512BlockSize)
  else (s, i)
termination_by message.length - i
decreasing_by
  unfold sha512BlockSize at *
  omega

/-- `hash_with_prefix`, where the bytes of `init_block` that are set are `initBlock` -/
def hashWithPrefix (initBlock message : List UInt8) : List UInt8 :=
  let prefixSize := initBlock.length
  let len := message.length
  let s :=
    if len < sha512BlockSize ∧ len + prefixSize < sha512BlockSize then
      sha512Final sha512InitialState (initBlock ++ message) (UInt32.ofNat (len + prefixSize))
    else
      let first := initBlock ++ message.take (sha512BlockSize - prefixSize)
      let s := sha512Block sha512InitialState first
      let r := blockLoop message s (sha512BlockSize - prefixSize)
      sha512Final r.1 (message.drop r.2) (UInt32.ofNat (len + prefixSize))
  fprimeFromBytes (sha512Get s 0 64) ed25519Order

/-- `generate_k` -/
def generateK (kgenKey message : List UInt8) : List UInt8 :=
  hashWithPrefix (slice32 kgenKey 0).1 message

/-- `hash_message` -/
def hashMessage (r a m : List UInt8) : List UInt8 :=
  hashWithPrefix ((slice32 r 0).1 ++ (slice32 a 0).1) m

/-- `edsign_sign` -/
def edsignSign (pub secret message : List UInt8) : List UInt8 :=
  let expanded := expandKey secret
  let k := generateK (expanded.drop 32) message
  let signature := smPack (slice32 k 0)
  let z := hashMessage signature pub message
  let e := fprimeFromBytes (slice32 expanded 0).1 ed25519Order
  let s := fprimeMul z e ed25519Order
  let s := fprimeAdd s k ed25519Order
  signature ++ s

/-- `edsign_verify` -/
def edsignVerify (signature pub message : List UInt8) : UInt8 :=
  let z := hashMessage signature pub message
  let lhs := smPack (slice32 signature 32)
  let p := upp (slice32 pub 0)
  let ok := 1 &&& p.2
  let p := ed25519Smult p.1 (slice32 z 0)
  let q := upp (slice32 signature 0)
  let ok := ok &&& q.2
  let p := ed25519Add p q.1
  let rhs := pp p
  ok &&& f25519Eq lhs rhs

/-- `compact_ed25519_keygen`: the private key and the public one -/
def compactEd25519Keygen (randomSeed : List UInt8) : List UInt8 × List UInt8 :=
  let publicKey := edsignSecToPub randomSeed
  (randomSeed ++ publicKey, publicKey)

/-- `compact_ed25519_sign` -/
def compactEd25519Sign (privateKey message : List UInt8) : List UInt8 :=
  edsignSign (privateKey.drop 32) (privateKey.take 32) message

/-- `compact_ed25519_verify` -/
def compactEd25519Verify (signature publicKey message : List UInt8) : Bool :=
  edsignVerify signature publicKey message != 0

/-! ## Hashing -/

theorem slice32_length (l : List UInt8) (off : ℕ) : (slice32 l off).1.length = 32 :=
  (slice32 l off).2

theorem slice32_self {l : List UInt8} (hlen : l.length = 32) : (slice32 l 0).1 = l := by
  apply List.ext_getElem
  · rw [slice32_length, hlen]
  · intro i h1 h2
    have hget : (slice32 l 0).1[i] = l.getD (0 + i) 0 := by
      simp only [slice32, List.getElem_map, List.getElem_range]
    rw [hget, Nat.zero_add]
    exact (List.getElem_eq_getD 0).symm

/-- The loop takes whole blocks, and stops before the last. -/
theorem blockLoop_spec (message : List UInt8) (s : Sha512State) (i : ℕ) :
    ∃ full, 128 ∣ full.length ∧
      message.drop i = full ++ message.drop (blockLoop message s i).2 ∧
      (message.drop (blockLoop message s i).2).length < 128 ∧
      (blockLoop message s i).1 = absorb 128 sha512Block s full := by
  induction s, i using blockLoop.induct message with
  | case1 s i hmore ih =>
    obtain ⟨full, hfull, hdrop, hlast, hstate⟩ := ih
    have hlen : ((message.drop i).take 128).length = 128 := by
      rw [List.length_take, List.length_drop]
      unfold sha512BlockSize at hmore
      omega
    rw [blockLoop, if_pos hmore]
    refine ⟨(message.drop i).take 128 ++ full, ?_, ?_, hlast, ?_⟩
    · rw [List.length_append, hlen]
      exact Nat.dvd_add (Nat.dvd_refl 128) hfull
    · rw [List.append_assoc, ← hdrop]
      conv_lhs => rw [← List.take_append_drop 128 (message.drop i), List.drop_drop]
      rfl
    · rw [hstate, absorb_block (by decide) hlen]
      rfl
  | case2 s i hdone =>
    rw [blockLoop, if_neg hdone]
    refine ⟨[], Nat.dvd_zero _, rfl, ?_, (absorb_short (by decide)).symm⟩
    rw [List.length_drop]
    unfold sha512BlockSize at hdone
    omega

/-- The blocks made on the way are those of the two strings put together. -/
theorem hashWithPrefix_eq {initBlock message : List UInt8} (hinit : initBlock.length < 128)
    (hlen : (initBlock ++ message).length < 2 ^ 29) : hashWithPrefix initBlock message =
      fprimeFromBytes (sha512 (initBlock ++ message)).bytes ed25519Order := by
  have hsum : message.length + initBlock.length = (initBlock ++ message).length := by
    rw [List.length_append, Nat.add_comm]
  simp only [hashWithPrefix, sha512Get_all, hsum, sha512BlockSize]
  congr 2
  split
  · next hone =>
    have hnone : 128 ∣ ([] : List UInt8).length := Nat.dvd_zero _
    have hfinal := sha512Final_eq hnone hone.2 hlen (List.take_of_length_le (Nat.le_refl _))
    rwa [absorb_short (by decide), List.nil_append] at hfinal
  · next hmany =>
    have hroom : 128 - initBlock.length ≤ message.length := by omega
    have hfirst : (initBlock ++ message.take (128 - initBlock.length)).length = 128 := by
      rw [List.length_append, List.length_take]
      omega
    obtain ⟨full, hfull, hdrop, hlast, hstate⟩ := blockLoop_spec message
      (sha512Block sha512InitialState (initBlock ++ message.take (128 - initBlock.length)))
      (128 - initBlock.length)
    have hall : initBlock ++ message =
        (initBlock ++ message.take (128 - initBlock.length) ++ full) ++
          message.drop (blockLoop message (sha512Block sha512InitialState
            (initBlock ++ message.take (128 - initBlock.length))) (128 - initBlock.length)).2 := by
      rw [List.append_assoc, ← hdrop, List.append_assoc, List.take_append_drop]
    have hwhole : 128 ∣ (initBlock ++ message.take (128 - initBlock.length) ++ full).length := by
      rw [List.length_append, hfirst]
      exact Nat.dvd_add (Nat.dvd_refl 128) hfull
    have hfinal := sha512Final_eq hwhole hlast (by rw [← hall]; exact hlen)
      (List.take_of_length_le (Nat.le_refl _))
    rw [← hall, absorb_block (by decide) hfirst, ← hstate] at hfinal
    exact hfinal

/-! ## Verifying -/

theorem pp_value {p : Ed25519Pt} {P : curve25519.Point} (h : Represents p P) :
    value (pp p) = encode P := by
  obtain ⟨hx, hy⟩ := unproject_toZ h
  show value (ed25519Pack (ed25519Unproject p).1 (ed25519Unproject p).2) = encode P
  rw [pack_value, hx, hy, encode]

theorem pp_length (p : Ed25519Pt) : (pp p).length = 32 := ed25519Pack_length _ _

/-- **The multiple of a point, packed**: for every exponent of 256 bits, whichever coordinates the
point is given in. -/
theorem smult_packed {p : Ed25519Pt} {P : curve25519.Point} (h : Represents p P)
    (e : List.Vector UInt8 32) : value (pp (ed25519Smult p e)) = encode (value e.1 • P) ∧
      ∀ Q, encode Q = encode (value e.1 • P) → Q = value e.1 • P :=
  ⟨pp_value (smult_represents h e), fun _ hQ => encode_inj hQ⟩

theorem smult_packed_base : value (pp (ed25519Smult ed25519Base ⟨ed25519Order, rfl⟩)) =
      encode (value ed25519Order • basePoint) ∧
    ∀ Q, encode Q = encode (value ed25519Order • basePoint) → Q = value ed25519Order • basePoint :=
  smult_packed base_represents ⟨ed25519Order, rfl⟩

/-- Packed points are compared as points. -/
theorem eq_pp {p q : Ed25519Pt} {P Q : curve25519.Point} (hP : Represents p P)
    (hQ : Represents q Q) : f25519Eq (pp p) (pp q) = 1 ↔ P = Q := by
  rw [f25519Eq_value ((pp_length p).trans (pp_length q).symm)]
  split
  · next heq =>
    have hencode := congrArg value heq
    rw [pp_value hP, pp_value hQ] at hencode
    exact iff_of_true rfl (encode_inj hencode)
  · next hne =>
    refine iff_of_false (by decide) ?_
    rintro rfl
    apply hne
    apply value_inj ((pp_length p).trans (pp_length q).symm)
    rw [pp_value hP, pp_value hQ]

theorem upp_represents {packed : List.Vector UInt8 32} {P : curve25519.Point}
    (h : Unpacks packed P) : Represents (upp packed).1 P := project_represents h.x_eq h.y_eq

theorem f25519Eq_bit {x y : List UInt8} (hlen : x.length = y.length) :
    f25519Eq x y = 0 ∨ f25519Eq x y = 1 := by
  rw [f25519Eq_value hlen]
  split
  · exact .inr rfl
  · exact .inl rfl

/-- Flags put together as `ok` is. -/
theorem all_flags {a b c : UInt8} (ha : a = 0 ∨ a = 1) (hb : b = 0 ∨ b = 1) (hc : c = 0 ∨ c = 1) :
    1 &&& a &&& b &&& c = 1 ↔ a = 1 ∧ b = 1 ∧ c = 1 := by
  rcases ha with rfl | rfl <;> rcases hb with rfl | rfl <;> rcases hc with rfl | rfl <;> decide

/-- `z` of a signature. -/
def challenge (signature pub message : List UInt8) : ℕ :=
  value (sha512 ((slice32 signature 0).1 ++ (slice32 pub 0).1 ++ message)).bytes % order

theorem hashMessage_value (signature pub : List UInt8) {message : List UInt8}
    (hlen : message.length + 64 < 2 ^ 29) :
    value (hashMessage signature pub message) = challenge signature pub message := by
  have hinit : ((slice32 signature 0).1 ++ (slice32 pub 0).1).length = 64 := by
    rw [List.length_append, slice32_length, slice32_length]
  have hall : ((slice32 signature 0).1 ++ (slice32 pub 0).1 ++ message).length < 2 ^ 29 := by
    rw [List.length_append, hinit]
    omega
  have hvalue := (Residue.fromBytes orderModulus
    (sha512 ((slice32 signature 0).1 ++ (slice32 pub 0).1 ++ message)).bytes).value_eq
  rw [show value orderModulus.bytes = order from value_order] at hvalue
  rw [hashMessage, hashWithPrefix_eq (by rw [hinit]; decide) hall]
  exact hvalue

theorem hashWithPrefix_length (initBlock message : List UInt8) :
    (hashWithPrefix initBlock message).length = 32 :=
  (Residue.fromBytes orderModulus _).size

theorem hashMessage_length (r a m : List UInt8) : (hashMessage r a m).length = 32 :=
  hashWithPrefix_length _ _

/-- `S * B = z * A + R` -/
def Signed (signature : List UInt8) (z : ℕ) (A R : curve25519.Point) : Prop :=
  value (slice32 signature 32).1 • basePoint = z • A + R

theorem edsignVerify_points (signature pub message : List UInt8) :
    edsignVerify signature pub message = 1 ↔
      ∃ A R, Unpacks (slice32 pub 0) A ∧ Unpacks (slice32 signature 0) R ∧
        Signed signature (value (hashMessage signature pub message)) A R := by
  have hz : value (slice32 (hashMessage signature pub message) 0).1 =
      value (hashMessage signature pub message) := by
    rw [slice32_self (hashMessage_length _ _ _)]
  have hflags := all_flags (flag_zero_or_one (slice32 pub 0))
    (flag_zero_or_one (slice32 signature 0))
    (f25519Eq_bit ((pp_length (ed25519Smult ed25519Base (slice32 signature 32))).trans
      (pp_length (ed25519Add (ed25519Smult (upp (slice32 pub 0)).1
        (slice32 (hashMessage signature pub message) 0)) (upp (slice32 signature 0)).1)).symm))
  refine hflags.trans ?_
  constructor
  · rintro ⟨hA, hR, heq⟩
    obtain ⟨A, hA⟩ := unpacks_of_flag hA
    obtain ⟨R, hR⟩ := unpacks_of_flag hR
    refine ⟨A, R, hA, hR, ?_⟩
    have hsum := add_represents (smult_represents (upp_represents hA)
      (slice32 (hashMessage signature pub message) 0)) (upp_represents hR)
    rw [hz] at hsum
    exact (eq_pp (smult_represents base_represents (slice32 signature 32)) hsum).mp heq
  · rintro ⟨A, R, hA, hR, hsigned⟩
    refine ⟨hA.flag, hR.flag, ?_⟩
    have hsum := add_represents (smult_represents (upp_represents hA)
      (slice32 (hashMessage signature pub message) 0)) (upp_represents hR)
    rw [hz] at hsum
    exact (eq_pp (smult_represents base_represents (slice32 signature 32)) hsum).mpr hsigned

theorem edsignVerify_iff {signature pub message : List UInt8}
    (hlen : message.length + 64 < 2 ^ 29) : edsignVerify signature pub message = 1 ↔
      ∃ A R, Unpacks (slice32 pub 0) A ∧ Unpacks (slice32 signature 0) R ∧
        Signed signature (challenge signature pub message) A R := by
  rw [edsignVerify_points, hashMessage_value signature pub hlen]

/-! ## What is accepted -/

theorem edsignVerify_bit (signature pub message : List UInt8) :
    edsignVerify signature pub message = 0 ∨ edsignVerify signature pub message = 1 := by
  have hand : ∀ {a b : UInt8}, a = 0 ∨ a = 1 → b = 0 ∨ b = 1 → a &&& b = 0 ∨ a &&& b = 1 := by
    rintro a b (rfl | rfl) (rfl | rfl) <;> decide
  unfold edsignVerify
  apply hand
  · exact hand (hand (.inr rfl) (flag_zero_or_one _)) (flag_zero_or_one _)
  · exact f25519Eq_bit ((pp_length _).trans (pp_length _).symm)

theorem compactEd25519Verify_eq_true (signature pub message : List UInt8) :
    compactEd25519Verify signature pub message = true ↔ edsignVerify signature pub message = 1 := by
  rw [compactEd25519Verify]
  rcases edsignVerify_bit signature pub message with h | h
  · rw [h]
    exact iff_of_false (by decide) (by decide)
  · rw [h]
    exact iff_of_true rfl rfl

/-- **What the signature check accepts**: both strings unpack, and the equation holds between
their points, without the cofactor and for any `S` of 256 bits. -/
theorem compact_verify_iff {signature pub message : List UInt8}
    (hlen : message.length + 64 < 2 ^ 29) :
    compactEd25519Verify signature pub message = true ↔
      ∃ A R, Unpacks (slice32 pub 0) A ∧ Unpacks (slice32 signature 0) R ∧
        Signed signature (challenge signature pub message) A R := by
  rw [compactEd25519Verify_eq_true, edsignVerify_iff hlen]

/-- `S` counts modulo the order: of the signatures that share their first half with an accepted
one, those are accepted whose `S` leaves the same remainder. -/
theorem verify_mod_order {signature other pub message : List UInt8}
    (hfirst : slice32 other 0 = slice32 signature 0)
    (hok : edsignVerify signature pub message = 1) : edsignVerify other pub message = 1 ↔
      value (slice32 other 32).1 % order = value (slice32 signature 32).1 % order := by
  rw [edsignVerify_points] at hok
  obtain ⟨A, R, hA, hR, hsigned⟩ := hok
  have hz : hashMessage other pub message = hashMessage signature pub message := by
    rw [hashMessage, hashMessage, hfirst]
  rw [edsignVerify_points, ← nsmul_base_eq_iff, hfirst, hz]
  constructor
  · rintro ⟨A', R', hA', hR', hsigned'⟩
    rw [hA'.unique hA, hR'.unique hR] at hsigned'
    exact hsigned'.trans hsigned.symm
  · intro hsame
    exact ⟨A, R, hA, hR, hsame.trans hsigned⟩

/-! A key and a signature that need no secret: both points are the neutral element. -/

/-- The packed form of the neutral element. -/
def neutralKey : List UInt8 := f25519One

theorem neutralKey_unpacks {l : List UInt8} (h : slice32 l 0 = slice32 neutralKey 0) :
    Unpacks (slice32 l 0) 0 := by
  have hvalue : value (slice32 neutralKey 0).1 % 2 ^ 255 = 1 := by decide
  have hy : (0 : curve25519.Point).y = (unpackY (slice32 neutralKey 0)).toZ := by
    rw [toZ_unpackY, hvalue, Nat.cast_one]
    rfl
  obtain ⟨hflag, hx⟩ := flag_of_point hy
  have hx' : (chosenX (slice32 neutralKey 0)).toZ = (0 : curve25519.Point).x := by
    rw [neg_zero] at hx
    exact hx.elim id id
  rw [h]
  exact ⟨hflag, hx', hy.symm⟩

theorem neutral_accepted {signature : List UInt8} (message : List UInt8)
    (hR : slice32 signature 0 = slice32 neutralKey 0)
    (hS : value (slice32 signature 32).1 % order = 0) :
    edsignVerify signature neutralKey message = 1 := by
  rw [edsignVerify_points]
  refine ⟨0, 0, neutralKey_unpacks rfl, neutralKey_unpacks hR, ?_⟩
  unfold Signed
  rw [nsmul_zero, zero_add, ← zero_nsmul basePoint, nsmul_base_eq_iff, hS, Nat.zero_mod]

theorem compact_verify_iff_neutral :
    compactEd25519Verify (neutralKey ++ ed25519Order) neutralKey [] = true ↔
      ∃ A R, Unpacks (slice32 neutralKey 0) A ∧ Unpacks (slice32 (neutralKey ++ ed25519Order) 0) R ∧
        Signed (neutralKey ++ ed25519Order)
          (challenge (neutralKey ++ ed25519Order) neutralKey []) A R :=
  compact_verify_iff (by decide)

/-! ## Signing -/

theorem slice32_first {a b : List UInt8} (ha : a.length = 32) : (slice32 (a ++ b) 0).1 = a := by
  apply List.ext_getElem
  · rw [slice32_length, ha]
  · intro i h1 h2
    have hget : (slice32 (a ++ b) 0).1[i] = (a ++ b).getD (0 + i) 0 := by
      simp only [slice32, List.getElem_map, List.getElem_range]
    rw [hget, Nat.zero_add, List.getD_append _ _ _ _ h2]
    exact (List.getElem_eq_getD 0).symm

theorem slice32_second {a b : List UInt8} (ha : a.length = 32) (hb : b.length = 32) :
    (slice32 (a ++ b) 32).1 = b := by
  apply List.ext_getElem
  · rw [slice32_length, hb]
  · intro i h1 h2
    have hget : (slice32 (a ++ b) 32).1[i] = (a ++ b).getD (32 + i) 0 := by
      simp only [slice32, List.getElem_map, List.getElem_range]
    rw [hget, List.getD_append_right _ _ _ _ (by omega), ha, Nat.add_sub_cancel_left]
    exact (List.getElem_eq_getD 0).symm

/-- The secret number that a seed is expanded to. -/
def secretScalar (secret : List UInt8) : ℕ := value (slice32 (expandKey secret) 0).1

/-- `k` of a signature. -/
def nonce (secret message : List UInt8) : ℕ :=
  value (sha512 ((slice32 ((expandKey secret).drop 32) 0).1 ++ message)).bytes % order

/-- The `x` of a point, and of its negative, is far enough from zero for `pack_unpack`. -/
def FarFromZero (P : curve25519.Point) : Prop :=
  2 ^ 24 ≤ P.x.val ∧ P.x.val ≤ p25519 - 2 ^ 24

theorem pp_unpacks {p : Ed25519Pt} {P : curve25519.Point} (hP : Represents p P)
    (hfar : FarFromZero P) {l : List UInt8} (hl : (slice32 l 0).1 = pp p) :
    Unpacks (slice32 l 0) P := by
  obtain ⟨hx, hy⟩ := unproject_toZ hP
  have hpacked : slice32 l 0 = packed (ed25519Unproject p).1 (ed25519Unproject p).2 := by
    apply Subtype.ext
    rw [hl, packed, pp]
  rw [hpacked]
  exact unpacks_of_range hx hy hfar.1 hfar.2

theorem generateK_residue (key : List UInt8) {message : List UInt8}
    (hlen : message.length + 64 < 2 ^ 29) : Residue orderModulus (generateK key message)
      (value (sha512 ((slice32 key 0).1 ++ message)).bytes) := by
  have hinit := slice32_length key 0
  have hall : ((slice32 key 0).1 ++ message).length < 2 ^ 29 := by
    rw [List.length_append, hinit]
    omega
  rw [generateK, hashWithPrefix_eq (by rw [hinit]; decide) hall]
  exact Residue.fromBytes orderModulus _

theorem smPack_length (k : List.Vector UInt8 32) : (smPack k).length = 32 := by
  rw [smPack]
  exact pp_length _

theorem slice32_slice32 {a b : List UInt8} (ha : a.length = 32) :
    slice32 (a ++ b) 0 = slice32 a 0 :=
  Subtype.ext ((slice32_first ha).trans (slice32_self ha).symm)

/-- `s = ze + k` -/
theorem sign_scalar (secret pub : List UInt8) {message : List UInt8}
    (hlen : message.length + 64 < 2 ^ 29) :
    ∃ R s, edsignSign pub secret message = R ++ s ∧
      R = smPack (slice32 (generateK ((expandKey secret).drop 32) message) 0) ∧ s.length = 32 ∧
      value s % order =
        (challenge (R ++ s) pub message * secretScalar secret + nonce secret message) % order := by
  have hk := generateK_residue ((expandKey secret).drop 32) hlen
  have he := Residue.fromBytes orderModulus (slice32 (expandKey secret) 0).1
  have hvalue : value orderModulus.bytes = order := value_order
  generalize hR : smPack (slice32 (generateK ((expandKey secret).drop 32) message) 0) = R
  have hRlen : R.length = 32 := by
    rw [← hR]
    exact smPack_length _
  have hzlen := hashMessage_length R pub message
  have hz := hashMessage_value R pub hlen
  have hzlt : value (hashMessage R pub message) < value orderModulus.bytes := by
    rw [hz, hvalue]
    exact Nat.mod_lt _ (by decide)
  have hsum := ((Residue.of_lt hzlen hzlt).mul he.lt).add hk
  refine ⟨R, _, ?_, rfl, hsum.size, ?_⟩
  · rw [← hR]
    rfl
  · have hsame : ∀ s, challenge (R ++ s) pub message = challenge R pub message := by
      intro s
      rw [challenge, challenge, slice32_slice32 hRlen]
    rw [hsame, hsum.value_eq, hvalue, Nat.mod_mod, he.value_eq, hz, hvalue, Nat.mul_comm, nonce]
    exact ((Nat.mod_modEq _ _).mul_left _).add (Nat.mod_modEq _ _).symm

/-- **What is signed is accepted**, under the public key made of the same seed, where the key and
the first half of the signature are points that unpack. -/
theorem sign_verifies {seed message : List UInt8} (hseed : seed.length = 32)
    (hlen : message.length + 64 < 2 ^ 29) (hA : FarFromZero (secretScalar seed • basePoint))
    (hR : FarFromZero (nonce seed message • basePoint)) :
    compactEd25519Verify (compactEd25519Sign (compactEd25519Keygen seed).1 message)
      (compactEd25519Keygen seed).2 message = true := by
  have hsecret : (compactEd25519Keygen seed).1.take 32 = seed := List.take_left' hseed
  have hpub : (compactEd25519Keygen seed).1.drop 32 = edsignSecToPub seed := List.drop_left' hseed
  have hpub' : (compactEd25519Keygen seed).2 = edsignSecToPub seed := by rw [compactEd25519Keygen]
  have hpublen : (edsignSecToPub seed).length = 32 := by
    rw [edsignSecToPub]
    exact smPack_length _
  have hk := generateK_residue ((expandKey seed).drop 32) hlen
  have hvalue : value orderModulus.bytes = order := value_order
  have hknum : value (slice32 (generateK ((expandKey seed).drop 32) message) 0).1 =
      nonce seed message := by
    rw [slice32_self hk.size, hk.value_eq, hvalue, nonce]
  obtain ⟨R, s, hsign, hRdef, hslen, hs⟩ :=
    sign_scalar seed (edsignSecToPub seed) hlen
  have hRlen : R.length = 32 := by
    rw [hRdef]
    exact smPack_length _
  have hrepR := smult_represents base_represents
    (slice32 (generateK ((expandKey seed).drop 32) message) 0)
  rw [hknum] at hrepR
  rw [compactEd25519Sign, hsecret, hpub, hpub', hsign, compactEd25519Verify_eq_true, edsignVerify_iff hlen]
  refine ⟨secretScalar seed • basePoint, nonce seed message • basePoint, ?_, ?_, ?_⟩
  · have hpp := slice32_self hpublen
    conv_rhs at hpp => rw [edsignSecToPub, smPack]
    exact pp_unpacks (smult_represents base_represents _) hA hpp
  · rw [smPack] at hRdef
    exact pp_unpacks hrepR hR ((slice32_first hRlen).trans hRdef)
  · unfold Signed
    rw [slice32_second hRlen hslen, ← mul_nsmul', ← add_nsmul, nsmul_base_eq_iff, hs]

/-! The seed of zeros, and the empty message. -/

theorem secretScalar_zeros : secretScalar (List.replicate 32 0) =
    39325648866980652792715009169219496062012184734522019333892538943312776480336 := by
  rw [secretScalar, expandKey, sha512Get_all]
  decide +kernel

theorem nonce_zeros : nonce (List.replicate 32 0) [] =
    4334699622090393966885506642521100938393546973059631095244783230759491876073 := by
  have hstate : ∀ {l : List UInt8}, l.length = 32 →
      sha512 (l ++ []) = sha512Final sha512InitialState l 32 := by
    intro l hl
    have hnone : 128 ∣ ([] : List UInt8).length := Nat.dvd_zero _
    have hfinal := sha512Final_eq hnone (show l.length < 128 by omega)
      (by rw [List.nil_append, hl]; decide) (List.take_of_length_le (Nat.le_refl _))
    rw [absorb_short (by decide), List.nil_append, hl] at hfinal
    rw [List.append_nil, ← hfinal]
    rfl
  rw [nonce, hstate (slice32_length _ _), expandKey, sha512Get_all]
  decide +kernel

theorem sign_verifies_zeros :
    compactEd25519Verify
      (compactEd25519Sign (compactEd25519Keygen (List.replicate 32 0)).1 [])
      (compactEd25519Keygen (List.replicate 32 0)).2 [] = true := by
  have hA : FarFromZero (secretScalar (List.replicate 32 0) • basePoint) := by
    rw [secretScalar_zeros, FarFromZero, nsmul_x_val (by decide)]
    decide +kernel
  have hR : FarFromZero (nonce (List.replicate 32 0) [] • basePoint) := by
    rw [nonce_zeros, FarFromZero, nsmul_x_val (by decide)]
    decide +kernel
  exact sign_verifies List.length_replicate (by decide) hA hR

end NavHAL.Crypto
