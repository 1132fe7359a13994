import NavHAL.Crypto.Field
import NavHAL.Lib.Edwards
import Mathlib.Data.Nat.Bitwise

/-!
# The curve (`ed25519.c`)

Points are kept in extended coordinates, and `Represents` says of which point of
`curve25519` they are.

* `add_represents`, `double_represents`, `smult_represents` : the operations of the group;
* `pack_value`, `encode_inj` : the packed form of a point, which no two points share;
* `tryUnpack_accepts`, `pack_unpack` : what is unpacked, and when it is the point packed.
-/

namespace NavHAL.Crypto

open Limbs Ladder Edwards

/-! ## As in the source -/

namespace Fe

theorem one_bit (c : UInt8) : c &&& 1 = 0 ∨ c &&& 1 = 1 := by
  have hmod : (c &&& 1).toNat = c.toNat % 2 := by
    rw [UInt8.toNat_and]
    exact Nat.and_one_is_mod _
  rcases Nat.mod_two_eq_zero_or_one c.toNat with h | h
  · exact .inl (UInt8.toNat_inj.mp (hmod.trans h))
  · exact .inr (UInt8.toNat_inj.mp (hmod.trans h))

theorem select_lt (zero one : Fe) (c : UInt8) :
    value (f25519Select zero.bytes one.bytes (c &&& 1)) < 2 * p25519 := by
  have hlen := zero.size.trans one.size.symm
  rcases one_bit c with h | h
  · rw [h, select_zero hlen]
    exact zero.lt
  · rw [h, select_one hlen]
    exact one.lt

/-- `f25519_select`, on one bit -/
def select (zero one : Fe) (condition : UInt8) : Fe where
  bytes := f25519Select zero.bytes one.bytes (condition &&& 1)
  size := (f25519Select_length (zero.size.trans one.size.symm) _).trans zero.size
  lt := select_lt zero one condition

end Fe

/-- `struct ed25519_pt` -/
structure Ed25519Pt where
  x : Fe
  y : Fe
  t : Fe
  z : Fe
  deriving DecidableEq

/-- `ed25519_base` -/
def ed25519Base : Ed25519Pt where
  x := ⟨[0x1a, 0xd5, 0x25, 0x8f, 0x60, 0x2d, 0x56, 0xc9, 0xb2, 0xa7, 0x25, 0x95, 0x60, 0xc7, 0x2c,
    0x69, 0x5c, 0xdc, 0xd6, 0xfd, 0x31, 0xe2, 0xa4, 0xc0, 0xfe, 0x53, 0x6e, 0xcd, 0xd3, 0x36, 0x69,
    0x21], rfl, by decide⟩
  y := ⟨[0x58, 0x66, 0x66, 0x66, 0x66, 0x66, 0x66, 0x66, 0x66, 0x66, 0x66, 0x66, 0x66, 0x66, 0x66,
    0x66, 0x66, 0x66, 0x66, 0x66, 0x66, 0x66, 0x66, 0x66, 0x66, 0x66, 0x66, 0x66, 0x66, 0x66, 0x66,
    0x66], rfl, by decide⟩
  t := ⟨[0xa3, 0xdd, 0xb7, 0xa5, 0xb3, 0x8a, 0xde, 0x6d, 0xf5, 0x52, 0x51, 0x77, 0x80, 0x9f, 0xf0,
    0x20, 0x7d, 0xe3, 0xab, 0x64, 0x8e, 0x4e, 0xea, 0x66, 0x65, 0x76, 0x8b, 0xd7, 0x0f, 0x5f, 0x87,
    0x67], rfl, by decide⟩
  z := Fe.one

/-- `ed25519_neutral` -/
def ed25519Neutral : Ed25519Pt where
  x := Fe.zero
  y := Fe.one
  t := Fe.zero
  z := Fe.one

/-- `ed25519_d` -/
def ed25519D : Fe :=
  ⟨[0xa3, 0x78, 0x59, 0x13, 0xca, 0x4d, 0xeb, 0x75, 0xab, 0xd8, 0x41, 0x41, 0x4d, 0x0a, 0x70, 0x00,
    0x98, 0xe8, 0x79, 0x77, 0x79, 0x40, 0xc7, 0x8c, 0x73, 0xfe, 0x6f, 0x2b, 0xee, 0x6c, 0x03, 0x52],
    rfl, by decide⟩

/-- `ed25519_k` -/
def ed25519K : Fe :=
  ⟨[0x59, 0xf1, 0xb2, 0x26, 0x94, 0x9b, 0xd6, 0xeb, 0x56, 0xb1, 0x83, 0x82, 0x9a, 0x14, 0xe0, 0x00,
    0x30, 0xd1, 0xf3, 0xee, 0xf2, 0x80, 0x8e, 0x19, 0xe7, 0xfc, 0xdf, 0x56, 0xdc, 0xd9, 0x06, 0x24],
    rfl, by decide⟩

/-- `ed25519_project` -/
def ed25519Project (x y : Fe) : Ed25519Pt where
  x := x
  y := y
  z := Fe.one
  t := x.mul y

/-- `ed25519_unproject` -/
def ed25519Unproject (p : Ed25519Pt) : Fe × Fe :=
  let z1 := p.z.inv
  let x := p.x.mul z1
  let y := p.y.mul z1
  (x.normalize, y.normalize)

/-- `ed25519_pack` -/
def ed25519Pack (x y : Fe) : List UInt8 :=
  let parity := (x.normalize.bytes.getD 0 0 &&& 1) <<< 7
  let c := y.normalize.bytes
  c.set 31 (c.getD 31 0 ||| parity)

theorem maskTop_lt {comp : List UInt8} (hlen : comp.length = 32) :
    value (maskTop comp) < 2 ^ 255 := by
  have hfront : (comp.take 31).length = 31 := by rw [List.length_take, hlen]; rfl
  have hmask := maskTop_value hfront (comp.getD 31 0)
  have hsmall := value_lt (comp.take 31)
  rw [take_concat hlen] at hmask
  rw [hfront] at hsmall
  omega

/-- `f25519_copy(y, comp); y[31] &= 127;` -/
def unpackY (comp : List.Vector UInt8 32) : Fe where
  bytes := maskTop comp.1
  size := (maskTop_length _).trans comp.2
  lt := (maskTop_lt comp.2).trans (by decide)

/-- `ed25519_try_unpack`, with `x`, `y` and what it returns. -/
def ed25519TryUnpack (comp : List.Vector UInt8 32) : Fe × Fe × UInt8 :=
  let parity := comp.1.getD 31 0 >>> 7
  let y := unpackY comp
  let c := y.mul y
  let b := c.mul ed25519D
  let a := b.add Fe.one
  let b := a.inv
  let a := c.sub Fe.one
  let c := a.mul b
  let a := c.sqrt
  let b := a.neg
  let x := a.select b ((a.bytes.getD 0 0 ^^^ parity) &&& 1)
  let a := x.mul x
  (x, y, f25519Eq a.normalize.bytes c.normalize.bytes)

/-- `ed25519_add` -/
def ed25519Add (p1 p2 : Ed25519Pt) : Ed25519Pt :=
  let a := (p1.y.sub p1.x).mul (p2.y.sub p2.x)
  let b := (p1.y.add p1.x).mul (p2.y.add p2.x)
  let c := (p1.t.mul p2.t).mul ed25519K
  let d := p1.z.mul p2.z
  let d := d.add d
  let e := b.sub a
  let f := d.sub c
  let g := d.add c
  let h := b.add a
  { x := e.mul f, y := g.mul h, t := e.mul h, z := f.mul g }

/-- `ed25519_double` -/
def ed25519Double (p : Ed25519Pt) : Ed25519Pt :=
  let a := p.x.mul p.x
  let b := p.y.mul p.y
  let c := p.z.mul p.z
  let c := c.add c
  let f := p.x.add p.y
  let e := f.mul f
  let e := e.sub a
  let e := e.sub b
  let g := b.sub a
  let f := g.sub c
  let h := b.neg
  let h := h.sub a
  { x := e.mul f, y := g.mul h, t := e.mul h, z := f.mul g }

/-- One bit of `ed25519_smult`. -/
def smultBit (p r : Ed25519Pt) (bit : UInt8) : Ed25519Pt :=
  let r := ed25519Double r
  let s := ed25519Add r p
  { x := r.x.select s.x bit
    y := r.y.select s.y bit
    z := r.z.select s.z bit
    t := r.t.select s.t bit }

/-- `ed25519_smult` -/
def ed25519Smult (p : Ed25519Pt) (e : List.Vector UInt8 32) : Ed25519Pt :=
  (List.range 256).reverse.foldl (fun r i => smultBit p r (bitAt e.1 i)) ed25519Neutral

/-! ## The group -/

/-- A relation between numbers, read in the field. -/
theorem cast_eq_of_mod {m n : ℕ} (h : m % p25519 = n % p25519) : (m : ZMod p25519) = n :=
  (ZMod.natCast_eq_natCast_iff' m n p25519).mpr h

/-- What the constants have to do with one another. -/
theorem constants_mod :
    value ed25519K.bytes % p25519 = 2 * value ed25519D.bytes % p25519 ∧
      (121666 * value ed25519D.bytes + 121665) % p25519 = 0 % p25519 ∧
      powMod p25519 (value ed25519D.bytes) 256 (p25519 / 2) = p25519 - 1 ∧
      value ed25519Base.t.bytes % p25519 =
        value ed25519Base.x.bytes * value ed25519Base.y.bytes % p25519 ∧
      value ed25519Base.y.bytes ^ 2 % p25519 =
        (1 + value ed25519D.bytes * value ed25519Base.x.bytes ^ 2 *
          value ed25519Base.y.bytes ^ 2 + value ed25519Base.x.bytes ^ 2) % p25519 := by
  decide +kernel

theorem toZ_k : ed25519K.toZ = 2 * ed25519D.toZ := by
  rw [Fe.toZ, Fe.toZ, cast_eq_of_mod constants_mod.1, Nat.cast_mul, Nat.cast_ofNat]

theorem two_ne_zero_field : (2 : ZMod p25519) ≠ 0 := by
  intro hzero
  apply two_not_isSquare
  rw [hzero]
  exact IsSquare.zero

/-- `-x^2 + y^2 = 1 - (121665/121666)x^2y^2` -/
def curve25519 : Curve (ZMod p25519) where
  d := ed25519D.toZ
  two_ne := two_ne_zero_field
  neg_one := neg_one_isSquare
  nonsquare := not_isSquare_of_powMod constants_mod.2.2.1

theorem d_fraction : 121666 * curve25519.d = -121665 := by
  have hcast := cast_eq_of_mod constants_mod.2.1
  rw [Nat.cast_add, Nat.cast_mul, Nat.cast_ofNat, Nat.cast_ofNat, Nat.cast_zero] at hcast
  exact eq_neg_of_add_eq_zero_left hcast

/-- The point with `y = 4/5`. -/
def basePoint : curve25519.Point where
  x := ed25519Base.x.toZ
  y := ed25519Base.y.toZ
  on := by
    have hcast := cast_eq_of_mod constants_mod.2.2.2.2
    push_cast at hcast
    exact sub_eq_of_eq_add hcast

/-- `p` is of the point `P`. -/
def Represents (p : Ed25519Pt) (P : curve25519.Point) : Prop :=
  Shows p.x.toZ p.y.toZ p.t.toZ p.z.toZ P

theorem neutral_represents : Represents ed25519Neutral 0 := by
  unfold Represents ed25519Neutral
  rw [Fe.toZ_zero, Fe.toZ_one]
  exact shows_zero

theorem project_represents {x y : Fe} {P : curve25519.Point} (hx : x.toZ = P.x)
    (hy : y.toZ = P.y) : Represents (ed25519Project x y) P := by
  unfold Represents ed25519Project
  rw [Fe.toZ_mul, Fe.toZ_one, hx, hy]
  exact shows_self P

theorem base_represents : Represents ed25519Base basePoint := by
  have ht : ed25519Base.t.toZ = basePoint.x * basePoint.y := by
    rw [Fe.toZ, cast_eq_of_mod constants_mod.2.2.2.1, Nat.cast_mul]
    rfl
  have hself := shows_self basePoint
  rw [← ht, ← Fe.toZ_one] at hself
  exact hself

theorem add_represents {p1 p2 : Ed25519Pt} {P Q : curve25519.Point} (hP : Represents p1 P)
    (hQ : Represents p2 Q) : Represents (ed25519Add p1 p2) (P + Q) := by
  unfold Represents ed25519Add
  simp only [Fe.toZ_mul, Fe.toZ_add, Fe.toZ_sub, toZ_k]
  exact Shows.add hP hQ rfl rfl rfl rfl

theorem double_represents {p : Ed25519Pt} {P : curve25519.Point} (hP : Represents p P) :
    Represents (ed25519Double p) (P + P) := by
  unfold Represents ed25519Double
  simp only [Fe.toZ_mul, Fe.toZ_add, Fe.toZ_sub, Fe.toZ_neg]
  exact Shows.double hP rfl rfl rfl rfl rfl rfl rfl

theorem Fe.select_bit (zero one : Fe) (b : Bool) :
    zero.select one (if b then 1 else 0) = if b then one else zero := by
  have hlen := zero.size.trans one.size.symm
  apply Fe.ext_bytes
  cases b with
  | false => exact select_zero hlen
  | true => exact select_one hlen

theorem smultBit_eq (p r : Ed25519Pt) (b : Bool) : smultBit p r (if b then 1 else 0) =
    if b then ed25519Add (ed25519Double r) p else ed25519Double r := by
  unfold smultBit
  simp only [Fe.select_bit]
  cases b with
  | false => rfl
  | true => rfl

theorem smultBit_represents {p r : Ed25519Pt} {P : curve25519.Point} (hP : Represents p P) {m : ℕ}
    (hr : Represents r (m • P)) (b : Bool) :
    Represents (smultBit p r (if b then 1 else 0)) ((2 * m + b.toNat) • P) := by
  have hdouble := double_represents hr
  rw [← two_nsmul, ← mul_nsmul'] at hdouble
  rw [smultBit_eq]
  cases b with
  | false => exact hdouble
  | true =>
    have hadd := add_represents hdouble hP
    rw [← succ_nsmul] at hadd
    exact hadd

/-- The multiple of a point, for any exponent of 256 bits. -/
theorem smult_represents {p : Ed25519Pt} {P : curve25519.Point} (hP : Represents p P)
    (e : List.Vector UInt8 32) : Represents (ed25519Smult p e) (value e.1 • P) := by
  have hlt := value_lt e.1
  rw [e.2] at hlt
  have hstart : Represents ed25519Neutral (0 • P) := by
    rw [zero_nsmul]
    exact neutral_represents
  have hall := ladder_start (fun r m => Represents r (m • P))
    (fun r b => smultBit p r (if b then 1 else 0))
    (fun r m b hr => smultBit_represents hP hr b) (k := 256) hlt hstart
  rw [bitsDown_eq, List.foldl_map] at hall
  simp only [← bitAt_eq] at hall
  exact hall

theorem unproject_toZ {p : Ed25519Pt} {P : curve25519.Point} (hP : Represents p P) :
    (ed25519Unproject p).1.toZ = P.x ∧ (ed25519Unproject p).2.toZ = P.y := by
  simp only [ed25519Unproject, Fe.toZ_normalize, Fe.toZ_mul, Fe.toZ_inv]
  exact Shows.affine hP

/-! ## Packed points -/

/-- The number of a packed point: `y`, with the parity of `x` above it. -/
def encode (P : curve25519.Point) : ℕ := P.y.val + 2 ^ 255 * (P.x.val % 2)

theorem lowest_bit (bytes : List UInt8) : (bytes.getD 0 0).toNat % 2 = value bytes % 2 := by
  cases bytes with
  | nil => rfl
  | cons b bytes =>
    rw [List.getD_cons_zero, value_cons]
    omega

theorem val_lt_top (z : ZMod p25519) : z.val < 2 ^ 255 := (ZMod.val_lt z).trans (by decide)

theorem pack_value (x y : Fe) :
    value (ed25519Pack x y) = y.toZ.val + 2 ^ 255 * (x.toZ.val % 2) := by
  have hsize := y.normalize.size
  have hvalue : value y.normalize.bytes = y.toZ.val := Fe.value_normalize y
  have hsplit := value_split hsize
  have hfront : (y.normalize.bytes.take 31).length = 31 := by
    rw [List.length_take, hsize]
    rfl
  have htop : (y.normalize.bytes.getD 31 0).toNat < 2 ^ 7 := by
    have hlt := val_lt_top y.toZ
    omega
  have hbit : ((x.normalize.bytes.getD 0 0 &&& 1) <<< 7).toNat = 2 ^ 7 * (x.toZ.val % 2) := by
    have hlow : (x.normalize.bytes.getD 0 0 &&& 1).toNat = x.toZ.val % 2 := by
      rw [UInt8.toNat_and, show (1 : UInt8).toNat = 1 from rfl, Nat.and_one_is_mod, lowest_bit,
        show value x.normalize.bytes = x.toZ.val from Fe.value_normalize x]
    rw [UInt8.toNat_shiftLeft, hlow, show (7 : UInt8).toNat % 8 = 7 from rfl, Nat.shiftLeft_eq]
    omega
  have hor : (y.normalize.bytes.getD 31 0 ||| (x.normalize.bytes.getD 0 0 &&& 1) <<< 7).toNat =
      2 ^ 7 * (x.toZ.val % 2) + (y.normalize.bytes.getD 31 0).toNat := by
    rw [UInt8.toNat_or, hbit, Nat.or_comm, Nat.two_pow_add_eq_or_of_lt htop]
  have hset : ed25519Pack x y = y.normalize.bytes.take 31 ++
      [y.normalize.bytes.getD 31 0 ||| (x.normalize.bytes.getD 0 0 &&& 1) <<< 7] := by
    simp only [ed25519Pack]
    conv_lhs => rw [← take_concat hsize]
    rw [List.set_append_right _ _ hfront.le, hfront, take_concat hsize]
    rfl
  rw [hset, value_append, hfront, value_cons, value_nil, hor]
  omega

theorem ed25519Pack_length (x y : Fe) : (ed25519Pack x y).length = 32 :=
  List.length_set.trans y.normalize.size

/-- A number other than zero and its negative differ in parity: `p` is odd. -/
theorem parity_neg {z : ZMod p25519} (hz : z ≠ 0) : ((-z).val + z.val) % 2 = 1 := by
  have hneg : (-z).val = p25519 - z.val := by rw [ZMod.neg_val, if_neg hz]
  rw [hneg, Nat.sub_add_cancel (ZMod.val_lt z).le]
  decide

theorem eq_of_sq {z w : ZMod p25519} (hsq : z ^ 2 = w ^ 2) (hpar : z.val % 2 = w.val % 2) :
    z = w := by
  rcases sq_eq_sq_iff_eq_or_eq_neg.mp hsq with h | h
  · exact h
  · by_cases hw : w = 0
    · rw [h, hw, neg_zero]
    · have hodd := parity_neg hw
      rw [← h] at hodd
      omega

theorem encode_inj {P Q : curve25519.Point} (h : encode P = encode Q) : P = Q := by
  have hP := val_lt_top P.y
  have hQ := val_lt_top Q.y
  unfold encode at h
  have hy : P.y = Q.y := ZMod.val_injective _ (by omega)
  have hpar : P.x.val % 2 = Q.x.val % 2 := by omega
  have hx : P.x = Q.x := eq_of_sq (by rw [P.x_sq, Q.x_sq, hy]) hpar
  exact Curve.Point.ext hx hy

/-! ## Unpacking -/

/-- `c` of `ed25519_try_unpack`: what `x^2` has to be. -/
def squareOfX (y : Fe) : Fe :=
  let c := y.mul y
  let b := c.mul ed25519D
  let a := b.add Fe.one
  let b := a.inv
  let a := c.sub Fe.one
  a.mul b

theorem toZ_squareOfX (y : Fe) :
    (squareOfX y).toZ = (y.toZ ^ 2 - 1) / (1 + curve25519.d * y.toZ ^ 2) := by
  have hd : curve25519.d = ed25519D.toZ := rfl
  simp only [squareOfX, Fe.toZ_mul, Fe.toZ_sub, Fe.toZ_inv, Fe.toZ_add, Fe.toZ_one, hd]
  rw [div_eq_mul_inv]
  ring

/-- The `x` that is chosen. -/
def chosenX (comp : List.Vector UInt8 32) : Fe :=
  let a := (squareOfX (unpackY comp)).sqrt
  a.select a.neg ((a.bytes.getD 0 0 ^^^ (comp.1.getD 31 0 >>> 7)) &&& 1)

theorem tryUnpack_eq (comp : List.Vector UInt8 32) : ed25519TryUnpack comp =
    (chosenX comp, unpackY comp, f25519Eq ((chosenX comp).mul (chosenX comp)).normalize.bytes
      (squareOfX (unpackY comp)).normalize.bytes) := rfl

theorem toZ_unpackY (comp : List.Vector UInt8 32) :
    (unpackY comp).toZ = ((value comp.1 % 2 ^ 255 : ℕ) : ZMod p25519) := by
  have hfront : (comp.1.take 31).length = 31 := by rw [List.length_take, comp.2]; rfl
  have hmask := maskTop_value hfront (comp.1.getD 31 0)
  have hsmall := value_lt (comp.1.take 31)
  have hsplit := value_split comp.2
  have htop := (comp.1.getD 31 0).toNat_lt
  rw [take_concat comp.2] at hmask
  rw [hfront] at hsmall
  rw [Fe.toZ, show value (unpackY comp).bytes = value comp.1 % 2 ^ 255 by
    show value (maskTop comp.1) = _
    omega]

/-! ## What is accepted -/

theorem Fe.select_cases (zero one : Fe) (c : UInt8) :
    c &&& 1 = 0 ∧ zero.select one c = zero ∨ c &&& 1 = 1 ∧ zero.select one c = one := by
  have hlen := zero.size.trans one.size.symm
  rcases Fe.one_bit c with h | h
  · refine .inl ⟨h, Fe.ext_bytes ?_⟩
    show f25519Select zero.bytes one.bytes (c &&& 1) = zero.bytes
    rw [h, select_zero hlen]
  · refine .inr ⟨h, Fe.ext_bytes ?_⟩
    show f25519Select zero.bytes one.bytes (c &&& 1) = one.bytes
    rw [h, select_one hlen]

theorem chosenX_sq (comp : List.Vector UInt8 32) :
    (chosenX comp).toZ ^ 2 = (squareOfX (unpackY comp)).sqrt.toZ ^ 2 := by
  rcases Fe.select_cases (squareOfX (unpackY comp)).sqrt (squareOfX (unpackY comp)).sqrt.neg
    (((squareOfX (unpackY comp)).sqrt.bytes.getD 0 0 ^^^ (comp.1.getD 31 0 >>> 7)) &&& 1)
    with ⟨-, h⟩ | ⟨-, h⟩
  · rw [chosenX, h]
  · rw [chosenX, h, Fe.toZ_neg, neg_sq]

theorem tryUnpack_flag (comp : List.Vector UInt8 32) : (ed25519TryUnpack comp).2.2 =
    if (chosenX comp).toZ ^ 2 = (squareOfX (unpackY comp)).toZ then 1 else 0 := by
  have heq := Fe.eq_normalize ((chosenX comp).mul (chosenX comp)) (squareOfX (unpackY comp))
  rw [Fe.toZ_mul, ← sq] at heq
  rw [tryUnpack_eq]
  exact heq

/-- The coordinates are of a point when the flag is set. -/
theorem point_of_flag {comp : List.Vector UInt8 32} (h : (ed25519TryUnpack comp).2.2 = 1) :
    ∃ P : curve25519.Point, P.x = (ed25519TryUnpack comp).1.toZ ∧
      P.y = (ed25519TryUnpack comp).2.1.toZ := by
  rw [tryUnpack_flag] at h
  split at h
  · next hsq =>
    rw [toZ_squareOfX, eq_div_iff (den_sq_ne_zero curve25519 _)] at hsq
    refine ⟨⟨(chosenX comp).toZ, (unpackY comp).toZ, ?_⟩, rfl, rfl⟩
    linear_combination -hsq
  · cases h

/-- A point with this `y` sets the flag, and comes out as itself or as its negative. -/
theorem flag_of_point {comp : List.Vector UInt8 32} {P : curve25519.Point}
    (h : P.y = (unpackY comp).toZ) : (ed25519TryUnpack comp).2.2 = 1 ∧
      ((chosenX comp).toZ = P.x ∨ (chosenX comp).toZ = (-P).x) := by
  have hc : (squareOfX (unpackY comp)).toZ = P.x ^ 2 := by rw [toZ_squareOfX, ← h, ← P.x_sq]
  have hsquare : IsSquare (squareOfX (unpackY comp)).toZ := ⟨P.x, hc.trans (sq P.x)⟩
  have hx : (chosenX comp).toZ ^ 2 = P.x ^ 2 := by
    rw [chosenX_sq, Fe.toZ_sqrt hsquare, hc]
  refine ⟨?_, sq_eq_sq_iff_eq_or_eq_neg.mp hx⟩
  rw [tryUnpack_flag, if_pos (hx.trans hc.symm)]

/-- The root that the exponent chain ends with, read without `f25519_normalize`, has the
parity of the number it stands for exactly where it is below `p`. -/
theorem root_parity (a : Fe) :
    value a.bytes % 2 = a.toZ.val % 2 ↔ value a.bytes < p25519 := by
  have hval : a.toZ.val = value a.bytes % p25519 := ZMod.val_natCast p25519 _
  have hlt := a.lt
  rw [hval]
  by_cases hsmall : value a.bytes < p25519
  · rw [Nat.mod_eq_of_lt hsmall]
    exact iff_of_true rfl hsmall
  · have hsub : value a.bytes % p25519 = value a.bytes - p25519 := by
      rw [Nat.mod_eq_sub_mod (Nat.le_of_not_lt hsmall), Nat.mod_eq_of_lt (by omega)]
    rw [hsub]
    have hodd : p25519 % 2 = 1 := by decide
    refine iff_of_false ?_ hsmall
    omega

theorem top_bit (comp : List.Vector UInt8 32) :
    (comp.1.getD 31 0 >>> 7).toNat = value comp.1 / 2 ^ 255 := by
  have hfront : (comp.1.take 31).length = 31 := by rw [List.length_take, comp.2]; rfl
  have hsmall := value_lt (comp.1.take 31)
  have hsplit := value_split comp.2
  rw [hfront] at hsmall
  rw [shift_7]
  omega

theorem xor_parity (b c : UInt8) :
    (b ^^^ c) &&& 1 = 0 ↔ b.toNat % 2 = c.toNat % 2 := by
  rw [← UInt8.toNat_inj, UInt8.toNat_and, UInt8.toNat_xor, show (1 : UInt8).toNat = 1 from rfl,
    show (0 : UInt8).toNat = 0 from rfl, Nat.and_one_is_mod, Nat.xor_mod_two_eq]
  omega

/-- The parity asked for is the one of the chosen `x` unless the root was not reduced. -/
theorem chosenX_parity {comp : List.Vector UInt8 32} (hne : (chosenX comp).toZ ≠ 0) :
    (chosenX comp).toZ.val % 2 = value comp.1 / 2 ^ 255 ↔
      value (squareOfX (unpackY comp)).sqrt.bytes < p25519 := by
  have htop := top_bit comp
  have hlt := value_lt comp.1
  rw [comp.2] at hlt
  unfold chosenX at *
  generalize (squareOfX (unpackY comp)).sqrt = a at *
  have hlow := lowest_bit a.bytes
  have hxor := xor_parity (a.bytes.getD 0 0) (comp.1.getD 31 0 >>> 7)
  have honce : ∀ c : UInt8, c &&& 1 &&& 1 = c &&& 1 := by
    intro c
    rw [UInt8.and_assoc, UInt8.and_self]
  rcases Fe.select_cases a a.neg ((a.bytes.getD 0 0 ^^^ (comp.1.getD 31 0 >>> 7)) &&& 1)
    with ⟨hbit, h⟩ | ⟨hbit, h⟩
  · rw [honce] at hbit
    rw [h] at hne ⊢
    rw [← root_parity]
    have hsame := hxor.mp hbit
    omega
  · rw [honce] at hbit
    rw [h, Fe.toZ_neg] at hne ⊢
    have hne' : a.toZ ≠ 0 := neg_ne_zero.mp hne
    have hodd := parity_neg hne'
    have hdiff : ¬ (a.bytes.getD 0 0).toNat % 2 = (comp.1.getD 31 0 >>> 7).toNat % 2 := by
      intro hsame
      rw [hxor.mpr hsame] at hbit
      cases hbit
    rw [← root_parity]
    omega

/-- The packed form of a point, with room for its parity. -/
def packed (x y : Fe) : List.Vector UInt8 32 := ⟨ed25519Pack x y, ed25519Pack_length x y⟩

theorem unpackY_packed (x y : Fe) : (unpackY (packed x y)).toZ = y.toZ := by
  have hlt := val_lt_top y.toZ
  rw [toZ_unpackY, show value (packed x y).1 = _ from pack_value x y, Nat.add_mul_mod_self_left,
    Nat.mod_eq_of_lt hlt, ZMod.natCast_zmod_val]

theorem top_packed (x y : Fe) : value (packed x y).1 / 2 ^ 255 = x.toZ.val % 2 := by
  have hlt := val_lt_top y.toZ
  rw [show value (packed x y).1 = _ from pack_value x y, Nat.add_mul_div_left _ _ (by decide),
    Nat.div_eq_of_lt hlt, Nat.zero_add]

/-- The root is below `p` where neither it nor its negative is small. -/
theorem sqrt_lt {c : Fe} (h : 2 ^ 24 ≤ c.sqrt.toZ.val) : value c.sqrt.bytes < p25519 := by
  have hnear : value c.sqrt.bytes < p25519 + 2 ^ 24 := Fe.mul_lt_near _ _
  have hval : c.sqrt.toZ.val = value c.sqrt.bytes % p25519 := ZMod.val_natCast p25519 _
  by_contra hge
  rw [hval, Nat.mod_eq_sub_mod (Nat.le_of_not_lt hge)] at h
  have hmod := Nat.mod_le (value c.sqrt.bytes - p25519) p25519
  omega

/-- `comp` is accepted, and read as `P`. -/
structure Unpacks (comp : List.Vector UInt8 32) (P : curve25519.Point) : Prop where
  flag : (ed25519TryUnpack comp).2.2 = 1
  x_eq : (ed25519TryUnpack comp).1.toZ = P.x
  y_eq : (ed25519TryUnpack comp).2.1.toZ = P.y

theorem unpacks_of_flag {comp : List.Vector UInt8 32} (h : (ed25519TryUnpack comp).2.2 = 1) :
    ∃ P, Unpacks comp P := by
  obtain ⟨P, hx, hy⟩ := point_of_flag h
  exact ⟨P, h, hx.symm, hy.symm⟩

theorem Unpacks.unique {comp : List.Vector UInt8 32} {P Q : curve25519.Point}
    (hP : Unpacks comp P) (hQ : Unpacks comp Q) : P = Q :=
  Curve.Point.ext (hP.x_eq.symm.trans hQ.x_eq) (hP.y_eq.symm.trans hQ.y_eq)

theorem flag_zero_or_one (comp : List.Vector UInt8 32) :
    (ed25519TryUnpack comp).2.2 = 0 ∨ (ed25519TryUnpack comp).2.2 = 1 := by
  rw [tryUnpack_flag]
  split
  · exact .inr rfl
  · exact .inl rfl

/-- **What `ed25519_try_unpack` accepts**: the low 255 bits have to be the `y` of a point, also
where they are not below `p`, and the point read is one of the two that have it. -/
theorem tryUnpack_accepts (comp : List.Vector UInt8 32) :
    ((ed25519TryUnpack comp).2.2 = 1 ↔
      ∃ P : curve25519.Point, P.y = ((value comp.1 % 2 ^ 255 : ℕ) : ZMod p25519)) ∧
    ∀ P : curve25519.Point, P.y = ((value comp.1 % 2 ^ 255 : ℕ) : ZMod p25519) →
      Unpacks comp P ∨ Unpacks comp (-P) := by
  rw [← toZ_unpackY]
  constructor
  · constructor
    · intro h
      obtain ⟨P, -, hy⟩ := point_of_flag h
      exact ⟨P, hy⟩
    · rintro ⟨P, hP⟩
      exact (flag_of_point hP).1
  · intro P hP
    obtain ⟨hflag, hx | hx⟩ := flag_of_point hP
    · exact .inl ⟨hflag, hx, hP.symm⟩
    · exact .inr ⟨hflag, hx, hP.symm⟩

/-- The point comes back from its packed form unless the root was not reduced. -/
theorem unpacks_packed {x y : Fe} {P : curve25519.Point} (hx : x.toZ = P.x) (hy : y.toZ = P.y)
    (hne : P.x ≠ 0) :
    Unpacks (packed x y) P ↔ value (squareOfX (unpackY (packed x y))).sqrt.bytes < p25519 := by
  have hP : P.y = (unpackY (packed x y)).toZ := hy.symm.trans (unpackY_packed x y).symm
  obtain ⟨hflag, hcases⟩ := flag_of_point hP
  have hchosen : (chosenX (packed x y)).toZ ≠ 0 := by
    rcases hcases with h | h
    · rw [h]; exact hne
    · rw [h, Curve.Point.neg_x]; exact neg_ne_zero.mpr hne
  rw [← chosenX_parity hchosen, top_packed, hx]
  constructor
  · intro h
    rw [show (chosenX (packed x y)).toZ = P.x from h.x_eq]
  · intro h
    refine ⟨hflag, ?_, hP.symm⟩
    apply eq_of_sq _ h
    rcases hcases with h | h
    · exact congrArg (· ^ 2) h
    · rw [h, Curve.Point.neg_x, neg_sq]

theorem unpacks_of_range {x y : Fe} {P : curve25519.Point} (hx : x.toZ = P.x) (hy : y.toZ = P.y)
    (hlow : 2 ^ 24 ≤ P.x.val) (hhigh : P.x.val ≤ p25519 - 2 ^ 24) :
    Unpacks (packed x y) P := by
  have hne : P.x ≠ 0 := by
    intro hzero
    rw [hzero, ZMod.val_zero] at hlow
    omega
  have hP : P.y = (unpackY (packed x y)).toZ := hy.symm.trans (unpackY_packed x y).symm
  have hc : (squareOfX (unpackY (packed x y))).toZ = P.x ^ 2 := by
    rw [toZ_squareOfX, ← hP, ← P.x_sq]
  have hsquare : IsSquare (squareOfX (unpackY (packed x y))).toZ := ⟨P.x, hc.trans (sq P.x)⟩
  rw [unpacks_packed hx hy hne]
  apply sqrt_lt
  rcases sq_eq_sq_iff_eq_or_eq_neg.mp ((Fe.toZ_sqrt hsquare).trans hc) with h | h
  · rw [h]
    exact hlow
  · have hneg : (-P.x).val = p25519 - P.x.val := by rw [ZMod.neg_val, if_neg hne]
    rw [h, hneg]
    omega

/-- **Packed and unpacked again**, a point comes back as itself or its negative: as itself
unless `x` or `-x` is below `2 ^ 24`, where the root may have been left above `p`. -/
theorem pack_unpack {x y : Fe} {P : curve25519.Point} (hx : x.toZ = P.x) (hy : y.toZ = P.y) :
    (Unpacks (packed x y) P ∨ Unpacks (packed x y) (-P)) ∧
      (2 ^ 24 ≤ P.x.val → P.x.val ≤ p25519 - 2 ^ 24 → Unpacks (packed x y) P) := by
  have hP : P.y = (unpackY (packed x y)).toZ := hy.symm.trans (unpackY_packed x y).symm
  refine ⟨?_, unpacks_of_range hx hy⟩
  obtain ⟨hflag, h | h⟩ := flag_of_point hP
  · exact .inl ⟨hflag, h, hP.symm⟩
  · exact .inr ⟨hflag, h, hP.symm⟩

theorem pack_unpack_base :
    Unpacks (packed ed25519Base.x ed25519Base.y) basePoint := by
  have hval : basePoint.x.val = value ed25519Base.x.bytes % p25519 := ZMod.val_natCast p25519 _
  have hrange : 2 ^ 24 ≤ value ed25519Base.x.bytes % p25519 ∧
      value ed25519Base.x.bytes % p25519 ≤ p25519 - 2 ^ 24 := by decide +kernel
  rw [← hval] at hrange
  exact (pack_unpack rfl rfl).2 hrange.1 hrange.2

end NavHAL.Crypto
