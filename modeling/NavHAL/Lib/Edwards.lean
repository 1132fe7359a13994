import Mathlib.Algebra.Field.Basic
import Mathlib.Algebra.Group.Even
import Mathlib.Tactic.FieldSimp
import Mathlib.Tactic.LinearCombination
import Mathlib.Tactic.Ring

/-!
# Complete twisted Edwards curves

The curve `y ^ 2 - x ^ 2 = 1 + d * x ^ 2 * y ^ 2` over a field in which `-1` is a square
and `d` is not.  The addition law has no exceptions there, and its points are a group.

* `den_ne_zero` : no two points of the curve bring a denominator to zero;
* `Curve.Point.add_assoc'` : the group law, of which the rest is short;
* `Shows.add`, `Shows.double` : addition and doubling in extended coordinates.
-/

namespace NavHAL.Edwards

variable {K : Type*} [Field K]

structure Curve (K : Type*) [Field K] where
  d : K
  two_ne : (2 : K) ≠ 0
  neg_one : IsSquare (-1 : K)
  nonsquare : ¬ IsSquare d

@[ext]
structure Curve.Point (C : Curve K) where
  x : K
  y : K
  on : y ^ 2 - x ^ 2 = 1 + C.d * x ^ 2 * y ^ 2

/-! ## No exceptions -/

section Complete

variable (C : Curve K) {x1 y1 x2 y2 : K}

theorem square_ne_one (h1 : y1 ^ 2 - x1 ^ 2 = 1 + C.d * x1 ^ 2 * y1 ^ 2)
    (h2 : y2 ^ 2 - x2 ^ 2 = 1 + C.d * x2 ^ 2 * y2 ^ 2) :
    (C.d * x1 * x2 * y1 * y2) ^ 2 ≠ 1 := by
  intro hsq
  obtain ⟨i, hi⟩ := C.neg_one
  have hne : C.d * x1 * x2 * y1 * y2 ≠ 0 := by
    intro hzero
    rw [hzero] at hsq
    simp at hsq
  have hxy : x1 * y1 ≠ 0 := by
    intro hzero
    apply hne
    linear_combination C.d * x2 * y2 * hzero
  have hx2 : x2 ≠ 0 := by
    rintro rfl
    apply hne
    ring
  -- Either way `d` would be the square of a quotient.
  have hd : ∀ s : K, s ^ 2 = 1 → y2 + s * i * x2 = 0 := by
    intro s hs
    by_contra hsum
    apply C.nonsquare
    refine ⟨(i * x1 + s * (C.d * x1 * x2 * y1 * y2) * y1) / (x1 * y1 * (y2 + s * i * x2)), ?_⟩
    rw [← sq, div_pow, eq_div_iff (pow_ne_zero 2 (mul_ne_zero hxy hsum))]
    linear_combination (C.d * x1 ^ 2 * y1 ^ 2 * i ^ 2 * x2 ^ 2 -
        (C.d * x1 * x2 * y1 * y2) ^ 2 * y1 ^ 2) * hs -
      (C.d * x1 ^ 2 * y1 ^ 2 * x2 ^ 2 - x1 ^ 2) * hi + C.d * x1 ^ 2 * y1 ^ 2 * h2 +
      (1 - y1 ^ 2) * hsq - h1
  have hplus := hd 1 (by ring)
  have hminus := hd (-1) (by ring)
  have hi0 : i ≠ 0 := by
    rintro rfl
    simp at hi
  have htwo : 2 * (i * x2) = 0 := by linear_combination hplus - hminus
  exact mul_ne_zero C.two_ne (mul_ne_zero hi0 hx2) htwo

theorem den_ne_zero (h1 : y1 ^ 2 - x1 ^ 2 = 1 + C.d * x1 ^ 2 * y1 ^ 2)
    (h2 : y2 ^ 2 - x2 ^ 2 = 1 + C.d * x2 ^ 2 * y2 ^ 2) :
    1 + C.d * x1 * x2 * y1 * y2 ≠ 0 ∧ 1 - C.d * x1 * x2 * y1 * y2 ≠ 0 := by
  have hne := square_ne_one C h1 h2
  constructor
  · intro hzero
    apply hne
    linear_combination (C.d * x1 * x2 * y1 * y2 - 1) * hzero
  · intro hzero
    apply hne
    linear_combination (-C.d * x1 * x2 * y1 * y2 - 1) * hzero

/-- What divides where `x` is computed from `y`. -/
theorem den_sq_ne_zero (y : K) : 1 + C.d * y ^ 2 ≠ 0 := by
  intro hzero
  obtain ⟨i, hi⟩ := C.neg_one
  have hy : y ≠ 0 := by
    rintro rfl
    simp at hzero
  apply C.nonsquare
  refine ⟨i / y, ?_⟩
  field_simp
  linear_combination hzero + hi

end Complete

/-! ## The group -/

namespace Curve.Point

variable {C : Curve K}

/-! The numerators and denominators of a sum. -/

section Coordinates

variable (P Q : C.Point)

def numX : K := P.x * Q.y + P.y * Q.x

def numY : K := P.y * Q.y + P.x * Q.x

def denX : K := 1 + C.d * P.x * Q.x * P.y * Q.y

def denY : K := 1 - C.d * P.x * Q.x * P.y * Q.y

theorem denX_ne_zero : denX P Q ≠ 0 := (den_ne_zero C P.on Q.on).1

theorem denY_ne_zero : denY P Q ≠ 0 := (den_ne_zero C P.on Q.on).2

end Coordinates

def zero : C.Point := ⟨0, 1, by ring⟩

def neg (P : C.Point) : C.Point := ⟨-P.x, P.y, by linear_combination P.on⟩

theorem add_on {d x1 y1 x2 y2 : K} (h1 : y1 ^ 2 - x1 ^ 2 = 1 + d * x1 ^ 2 * y1 ^ 2)
    (h2 : y2 ^ 2 - x2 ^ 2 = 1 + d * x2 ^ 2 * y2 ^ 2) :
    ((y1 * y2 + x1 * x2) * (1 + d * x1 * x2 * y1 * y2)) ^ 2 -
        ((x1 * y2 + y1 * x2) * (1 - d * x1 * x2 * y1 * y2)) ^ 2 =
      ((1 + d * x1 * x2 * y1 * y2) * (1 - d * x1 * x2 * y1 * y2)) ^ 2 +
        d * ((x1 * y2 + y1 * x2) * (y1 * y2 + x1 * x2)) ^ 2 := by
  linear_combination
    (x1^2 * y1^2 * x2^4 * y2^4 * d^3 - x1^2 * x2^4 * y2^4 * d^2 - x1^2 * x2^4 * y2^2 * d
     + x1^2 * x2^2 * y2^4 * d + y1^2 * x2^4 * y2^4 * d^2 + y1^2 * x2^4 * y2^2 * d
     - y1^2 * x2^2 * y2^4 * d - x2^4 * y2^4 * d^2 - 2 * x2^4 * y2^4 * d - 2 * x2^4 * y2^2 + x2^4
     + 2 * x2^2 * y2^4 - 2 * x2^2 * y2^2 * d - 4 * x2^2 * y2^2 + y2^4) * h1 +
    (x1^4 * x2^2 * y2^2 * d + 2 * x1^2 * x2^2 * y2^2 * d + 2 * x1^2 * x2^2 * y2^2 - x1^2 * x2^2
     + x1^2 * y2^2 + y1^4 * x2^2 * y2^2 * d - 2 * y1^2 * x2^2 * y2^2 * d - 2 * y1^2 * x2^2 * y2^2
     + y1^2 * x2^2 - y1^2 * y2^2 + x2^2 * y2^2 * d + 2 * x2^2 * y2^2 - x2^2 + y2^2 + 1) * h2

def add (P Q : C.Point) : C.Point where
  x := numX P Q / denX P Q
  y := numY P Q / denY P Q
  on := by
    have hx := denX_ne_zero P Q
    have hy := denY_ne_zero P Q
    have hclosed := add_on P.on Q.on
    rw [← numX, ← numY, ← denX, ← denY] at hclosed
    field_simp
    linear_combination hclosed

@[simp] theorem add_x (P Q : C.Point) : (add P Q).x = numX P Q / denX P Q := rfl

@[simp] theorem add_y (P Q : C.Point) : (add P Q).y = numY P Q / denY P Q := rfl

theorem add_comm' (P Q : C.Point) : add P Q = add Q P := by
  have hnumX : numX P Q = numX Q P := by unfold numX; ring
  have hnumY : numY P Q = numY Q P := by unfold numY; ring
  have hdenX : denX P Q = denX Q P := by unfold denX; ring
  have hdenY : denY P Q = denY Q P := by unfold denY; ring
  ext
  · rw [add_x, add_x, hnumX, hdenX]
  · rw [add_y, add_y, hnumY, hdenY]

theorem zero_add' (P : C.Point) : add zero P = P := by
  ext
  · simp [add, zero, numX, denX]
  · simp [add, zero, numY, denY]

theorem neg_add' (P : C.Point) : add (neg P) P = zero := by
  have hy := denY_ne_zero (neg P) P
  ext
  · have hnum : numX (neg P) P = 0 := by
      simp only [numX, neg]
      ring
    rw [add_x, hnum, zero_div]
    rfl
  · have hnum : numY (neg P) P = denY (neg P) P := by
      simp only [numY, denY, neg]
      linear_combination P.on
    rw [add_y, hnum, div_self hy]
    rfl

/-! Associativity, first of the numerators and denominators.  The factors are those with
which the three curve equations add up to the difference of the two sides. -/

section Associativity

variable {d x1 y1 x2 y2 x3 y3 : K}

theorem assoc_x (h1 : y1 ^ 2 - x1 ^ 2 = 1 + d * x1 ^ 2 * y1 ^ 2)
    (h2 : y2 ^ 2 - x2 ^ 2 = 1 + d * x2 ^ 2 * y2 ^ 2)
    (h3 : y3 ^ 2 - x3 ^ 2 = 1 + d * x3 ^ 2 * y3 ^ 2) :
    ((x1 * y2 + y1 * x2) * (1 - d * x1 * x2 * y1 * y2) * y3 +
        (y1 * y2 + x1 * x2) * (1 + d * x1 * x2 * y1 * y2) * x3) *
      ((1 + d * x2 * x3 * y2 * y3) * (1 - d * x2 * x3 * y2 * y3) +
        d * x1 * (x2 * y3 + y2 * x3) * y1 * (y2 * y3 + x2 * x3)) =
    (x1 * ((y2 * y3 + x2 * x3) * (1 + d * x2 * x3 * y2 * y3)) +
        y1 * ((x2 * y3 + y2 * x3) * (1 - d * x2 * x3 * y2 * y3))) *
      ((1 + d * x1 * x2 * y1 * y2) * (1 - d * x1 * x2 * y1 * y2) +
        d * (x1 * y2 + y1 * x2) * x3 * (y1 * y2 + x1 * x2) * y3) := by
  linear_combination
    (-x1 * x2^4 * y2^3 * x3^2 * y3 * d^2 - x1 * x2^4 * y2 * x3^2 * y3 * d
     - x1 * x2^3 * y2^4 * x3 * y3^2 * d^2 - x1 * x2^3 * y2^2 * x3^3 * d
     - x1 * x2^3 * y2^2 * x3 * d + x1 * x2^2 * y2^3 * y3^3 * d - x1 * x2^2 * y2^3 * y3 * d
     + x1 * x2 * y2^4 * x3 * y3^2 * d + y1 * x2^4 * y2^3 * x3 * y3^2 * d^2
     + y1 * x2^4 * y2 * x3 * y3^2 * d + y1 * x2^3 * y2^4 * x3^2 * y3 * d^2
     + y1 * x2^3 * y2^2 * y3^3 * d - y1 * x2^3 * y2^2 * y3 * d - y1 * x2^2 * y2^3 * x3^3 * d
     - y1 * x2^2 * y2^3 * x3 * d - y1 * x2 * y2^4 * x3^2 * y3 * d) * h1 +
    (x1^3 * x2^2 * y2 * x3^2 * y3 * d + x1^3 * x2 * y2^2 * x3 * y3^2 * d
     - x1^2 * y1 * x2^2 * y2 * x3^3 * d - x1^2 * y1 * x2^2 * y2 * x3 * d
     - x1^2 * y1 * x2 * y2^2 * y3^3 * d + x1^2 * y1 * x2 * y2^2 * y3 * d
     - x1 * y1^2 * x2^2 * y2 * y3^3 * d + x1 * y1^2 * x2^2 * y2 * y3 * d
     - x1 * y1^2 * x2 * y2^2 * x3^3 * d - x1 * y1^2 * x2 * y2^2 * x3 * d
     + x1 * x2^2 * y2 * x3^2 * y3 * d + x1 * x2 * y2^2 * x3 * y3^2 * d
     + y1^3 * x2^2 * y2 * x3 * y3^2 * d + y1^3 * x2 * y2^2 * x3^2 * y3 * d
     - y1 * x2^2 * y2 * x3 * y3^2 * d - y1 * x2 * y2^2 * x3^2 * y3 * d) * h2 +
    (x1^3 * x2^3 * y2^2 * x3 * d + x1^3 * x2^2 * y2^3 * y3 * d
     + x1^2 * y1 * x2^4 * y2^3 * x3 * d^2 + x1^2 * y1 * x2^4 * y2 * x3 * d
     - x1^2 * y1 * x2^3 * y2^4 * y3 * d^2 + x1^2 * y1 * x2 * y2^4 * y3 * d
     - x1 * y1^2 * x2^4 * y2^3 * y3 * d^2 - x1 * y1^2 * x2^4 * y2 * y3 * d
     + x1 * y1^2 * x2^3 * y2^4 * x3 * d^2 - x1 * y1^2 * x2 * y2^4 * x3 * d
     + x1 * x2^3 * y2^2 * x3 * d + x1 * x2^2 * y2^3 * y3 * d - y1^3 * x2^3 * y2^2 * y3 * d
     - y1^3 * x2^2 * y2^3 * x3 * d + y1 * x2^3 * y2^2 * y3 * d + y1 * x2^2 * y2^3 * x3 * d) * h3

theorem assoc_y (h1 : y1 ^ 2 - x1 ^ 2 = 1 + d * x1 ^ 2 * y1 ^ 2)
    (h2 : y2 ^ 2 - x2 ^ 2 = 1 + d * x2 ^ 2 * y2 ^ 2)
    (h3 : y3 ^ 2 - x3 ^ 2 = 1 + d * x3 ^ 2 * y3 ^ 2) :
    ((y1 * y2 + x1 * x2) * (1 + d * x1 * x2 * y1 * y2) * y3 +
        (x1 * y2 + y1 * x2) * (1 - d * x1 * x2 * y1 * y2) * x3) *
      ((1 + d * x2 * x3 * y2 * y3) * (1 - d * x2 * x3 * y2 * y3) -
        d * x1 * (x2 * y3 + y2 * x3) * y1 * (y2 * y3 + x2 * x3)) =
    (y1 * ((y2 * y3 + x2 * x3) * (1 + d * x2 * x3 * y2 * y3)) +
        x1 * ((x2 * y3 + y2 * x3) * (1 - d * x2 * x3 * y2 * y3))) *
      ((1 + d * x1 * x2 * y1 * y2) * (1 - d * x1 * x2 * y1 * y2) -
        d * (x1 * y2 + y1 * x2) * x3 * (y1 * y2 + x1 * x2) * y3) := by
  linear_combination
    (x1 * x2^4 * y2^3 * x3 * y3^2 * d^2 + x1 * x2^4 * y2 * x3 * y3^2 * d
     + x1 * x2^3 * y2^4 * x3^2 * y3 * d^2 + x1 * x2^3 * y2^2 * y3^3 * d
     - x1 * x2^3 * y2^2 * y3 * d - x1 * x2^2 * y2^3 * x3^3 * d - x1 * x2^2 * y2^3 * x3 * d
     - x1 * x2 * y2^4 * x3^2 * y3 * d - y1 * x2^4 * y2^3 * x3^2 * y3 * d^2
     - y1 * x2^4 * y2 * x3^2 * y3 * d - y1 * x2^3 * y2^4 * x3 * y3^2 * d^2
     - y1 * x2^3 * y2^2 * x3^3 * d - y1 * x2^3 * y2^2 * x3 * d + y1 * x2^2 * y2^3 * y3^3 * d
     - y1 * x2^2 * y2^3 * y3 * d + y1 * x2 * y2^4 * x3 * y3^2 * d) * h1 +
    (-x1^3 * x2^2 * y2 * x3 * y3^2 * d - x1^3 * x2 * y2^2 * x3^2 * y3 * d
     + x1^2 * y1 * x2^2 * y2 * y3^3 * d - x1^2 * y1 * x2^2 * y2 * y3 * d
     + x1^2 * y1 * x2 * y2^2 * x3^3 * d + x1^2 * y1 * x2 * y2^2 * x3 * d
     + x1 * y1^2 * x2^2 * y2 * x3^3 * d + x1 * y1^2 * x2^2 * y2 * x3 * d
     + x1 * y1^2 * x2 * y2^2 * y3^3 * d - x1 * y1^2 * x2 * y2^2 * y3 * d
     - x1 * x2^2 * y2 * x3 * y3^2 * d - x1 * x2 * y2^2 * x3^2 * y3 * d
     - y1^3 * x2^2 * y2 * x3^2 * y3 * d - y1^3 * x2 * y2^2 * x3 * y3^2 * d
     + y1 * x2^2 * y2 * x3^2 * y3 * d + y1 * x2 * y2^2 * x3 * y3^2 * d) * h2 +
    (x1^3 * x2^3 * y2^2 * y3 * d + x1^3 * x2^2 * y2^3 * x3 * d
     + x1^2 * y1 * x2^4 * y2^3 * y3 * d^2 + x1^2 * y1 * x2^4 * y2 * y3 * d
     - x1^2 * y1 * x2^3 * y2^4 * x3 * d^2 + x1^2 * y1 * x2 * y2^4 * x3 * d
     - x1 * y1^2 * x2^4 * y2^3 * x3 * d^2 - x1 * y1^2 * x2^4 * y2 * x3 * d
     + x1 * y1^2 * x2^3 * y2^4 * y3 * d^2 - x1 * y1^2 * x2 * y2^4 * y3 * d
     + x1 * x2^3 * y2^2 * y3 * d + x1 * x2^2 * y2^3 * x3 * d - y1^3 * x2^3 * y2^2 * x3 * d
     - y1^3 * x2^2 * y2^3 * y3 * d + y1 * x2^3 * y2^2 * x3 * d + y1 * x2^2 * y2^3 * y3 * d) * h3

end Associativity

theorem add_assoc' (P Q R : C.Point) : add (add P Q) R = add P (add Q R) := by
  have hPQx := denX_ne_zero P Q
  have hPQy := denY_ne_zero P Q
  have hQRx := denX_ne_zero Q R
  have hQRy := denY_ne_zero Q R
  have hleftx := denX_ne_zero (add P Q) R
  have hlefty := denY_ne_zero (add P Q) R
  have hrightx := denX_ne_zero P (add Q R)
  have hrighty := denY_ne_zero P (add Q R)
  have hx := assoc_x P.on Q.on R.on
  have hy := assoc_y P.on Q.on R.on
  rw [← numX, ← numY, ← denX, ← denY, ← numX, ← numY, ← denX, ← denY] at hx hy
  ext
  · rw [add_x, add_x, div_eq_div_iff hleftx hrightx]
    show (numX P Q / denX P Q * R.y + numY P Q / denY P Q * R.x) *
        (1 + C.d * P.x * (numX Q R / denX Q R) * P.y * (numY Q R / denY Q R)) =
      (P.x * (numY Q R / denY Q R) + P.y * (numX Q R / denX Q R)) *
        (1 + C.d * (numX P Q / denX P Q) * R.x * (numY P Q / denY P Q) * R.y)
    field_simp
    linear_combination hx
  · rw [add_y, add_y, div_eq_div_iff hlefty hrighty]
    show (numY P Q / denY P Q * R.y + numX P Q / denX P Q * R.x) *
        (1 - C.d * P.x * (numX Q R / denX Q R) * P.y * (numY Q R / denY Q R)) =
      (P.y * (numY Q R / denY Q R) + P.x * (numX Q R / denX Q R)) *
        (1 - C.d * (numX P Q / denX P Q) * R.x * (numY P Q / denY P Q) * R.y)
    field_simp
    linear_combination hy

instance : Add C.Point := ⟨add⟩

instance : Zero C.Point := ⟨zero⟩

instance : Neg C.Point := ⟨neg⟩

instance : AddCommGroup C.Point where
  add_assoc := add_assoc'
  zero_add := zero_add'
  add_zero := fun P => (add_comm' P zero).trans (zero_add' P)
  neg_add_cancel := neg_add'
  add_comm := add_comm'
  nsmul := nsmulRec
  zsmul := zsmulRec

theorem zero_def : (0 : C.Point) = ⟨0, 1, by ring⟩ := rfl

theorem add_def (P Q : C.Point) : P + Q = add P Q := rfl

/-- The other point with this `y`. -/
theorem neg_x (P : C.Point) : (-P).x = -P.x := rfl

/-- `y` and the curve give the square of `x`. -/
theorem x_sq (P : C.Point) : P.x ^ 2 = (P.y ^ 2 - 1) / (1 + C.d * P.y ^ 2) := by
  rw [eq_div_iff (den_sq_ne_zero C P.y)]
  linear_combination -P.on

end Curve.Point

/-! ## Extended coordinates -/

section Extended

variable {C : Curve K} {P Q : C.Point} {x1 y1 t1 z1 x2 y2 t2 z2 : K}

/-- Four coordinates of a point, up to the factor `z`. -/
structure Shows (x y t z : K) (P : C.Point) : Prop where
  z_ne : z ≠ 0
  x_eq : x = z * P.x
  y_eq : y = z * P.y
  t_eq : t = z * (P.x * P.y)

theorem shows_zero : Shows 0 1 0 1 (0 : C.Point) where
  z_ne := one_ne_zero
  x_eq := (mul_zero _).symm
  y_eq := (mul_one _).symm
  t_eq := by simp [Curve.Point.zero_def]

/-- A point is shown by its own coordinates. -/
theorem shows_self (P : C.Point) : Shows P.x P.y (P.x * P.y) 1 P where
  z_ne := one_ne_zero
  x_eq := (one_mul _).symm
  y_eq := (one_mul _).symm
  t_eq := (one_mul _).symm

open Curve.Point

theorem Shows.add (hP : Shows x1 y1 t1 z1 P) (hQ : Shows x2 y2 t2 z2 Q) {a b c e : K}
    (ha : a = (y1 - x1) * (y2 - x2)) (hb : b = (y1 + x1) * (y2 + x2))
    (hc : c = t1 * t2 * (2 * C.d)) (he : e = z1 * z2 + z1 * z2) :
    Shows ((b - a) * (e - c)) ((e + c) * (b + a)) ((b - a) * (b + a)) ((e - c) * (e + c))
      (P + Q) := by
  have hnumX : b - a = 2 * (z1 * z2) * numX P Q := by
    rw [ha, hb, hP.x_eq, hP.y_eq, hQ.x_eq, hQ.y_eq, numX]
    ring
  have hnumY : b + a = 2 * (z1 * z2) * numY P Q := by
    rw [ha, hb, hP.x_eq, hP.y_eq, hQ.x_eq, hQ.y_eq, numY]
    ring
  have hdenX : e + c = 2 * (z1 * z2) * denX P Q := by
    rw [he, hc, hP.t_eq, hQ.t_eq, denX]
    ring
  have hdenY : e - c = 2 * (z1 * z2) * denY P Q := by
    rw [he, hc, hP.t_eq, hQ.t_eq, denY]
    ring
  have hx := denX_ne_zero P Q
  have hy := denY_ne_zero P Q
  have hz : 2 * (z1 * z2) ≠ 0 := mul_ne_zero C.two_ne (mul_ne_zero hP.z_ne hQ.z_ne)
  rw [hnumX, hnumY, hdenX, hdenY]
  constructor
  · exact mul_ne_zero (mul_ne_zero hz hy) (mul_ne_zero hz hx)
  · rw [add_def, add_x]
    field_simp
  · rw [add_def, add_y]
    field_simp
  · rw [add_def, add_x, add_y]
    field_simp

theorem Shows.double (hP : Shows x1 y1 t1 z1 P) {a b c e f g h : K} (ha : a = x1 * x1)
    (hb : b = y1 * y1) (hc : c = z1 * z1 + z1 * z1) (he : e = (x1 + y1) * (x1 + y1) - a - b)
    (hg : g = b - a) (hf : f = g - c) (hh : h = -b - a) :
    Shows (e * f) (g * h) (e * h) (f * g) (P + P) := by
  have hnumX : e = z1 * z1 * numX P P := by
    rw [he, ha, hb, hP.x_eq, hP.y_eq, numX]
    ring
  have hnumY : h = -(z1 * z1) * numY P P := by
    rw [hh, ha, hb, hP.x_eq, hP.y_eq, numY]
    ring
  have hdenX : g = z1 * z1 * denX P P := by
    rw [hg, ha, hb, hP.x_eq, hP.y_eq, denX]
    linear_combination z1 ^ 2 * P.on
  have hdenY : f = -(z1 * z1) * denY P P := by
    rw [hf, hdenX, hc, denX, denY]
    ring
  have hx := denX_ne_zero P P
  have hy := denY_ne_zero P P
  have hz : z1 ≠ 0 := hP.z_ne
  rw [hnumX, hnumY, hdenX, hdenY]
  constructor
  · exact mul_ne_zero (mul_ne_zero (neg_ne_zero.mpr (mul_ne_zero hz hz)) hy)
      (mul_ne_zero (mul_ne_zero hz hz) hx)
  · rw [add_def, add_x]
    field_simp
  · rw [add_def, add_y]
    field_simp
  · rw [add_def, add_x, add_y]
    field_simp

/-- Dividing by `z` gives the point back. -/
theorem Shows.affine (hP : Shows x1 y1 t1 z1 P) : x1 * z1⁻¹ = P.x ∧ y1 * z1⁻¹ = P.y := by
  have hz := hP.z_ne
  constructor
  · rw [hP.x_eq]
    field_simp
  · rw [hP.y_eq]
    field_simp

end Extended

end NavHAL.Edwards
