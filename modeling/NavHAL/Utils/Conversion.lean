import NavHAL.Lib.Decimal
import NavHAL.Status

/-!
# Numbers out and in (`hal_uart_write_int`, `hal_console_write_uint`, `str_to_int`)

The writers put the digits of a number into a buffer from its end, `str_to_int` reads
digits from the left.  `Int32.minValue` is written right; its magnitude has no room in the
`int32_t` that it is read into before the sign is applied (`round_trips_iff`).
-/

namespace NavHAL.Utils

open Decimal

/-! ## Out -/

section

variable {σ : Type} (writeChar : UInt8 → σ → HalStatus × σ)

/-- `do { buf[n++] = '0' + num % 10; num /= 10; } while (num != 0)` -/
def fillDigits (num : UInt32) : List UInt8 :=
  (('0'.toUInt8) + (num % 10).toUInt8) :: if num / 10 = 0 then [] else fillDigits (num / 10)
termination_by num.toNat
decreasing_by
  have hne : ¬ num.toNat / 10 = 0 := fun h => ‹¬ num / 10 = 0› (UInt32.toNat_inj.mp h)
  change num.toNat / 10 < num.toNat
  omega

/-- `while (n != 0)`, until a character fails. -/
def writeAll : List UInt8 → σ → HalStatus × σ
  | [], s => (.ok, s)
  | c :: cs, s =>
    match writeChar c s with
    | (.ok, s) => writeAll cs s
    | (status, s) => (status, s)

def halUartWriteUint (num : UInt32) (s : σ) : HalStatus × σ :=
  writeAll writeChar (fillDigits num).reverse s

def halUartWriteInt (num : Int32) (s : σ) : HalStatus × σ :=
  if num < 0 then
    match writeChar '-'.toUInt8 s with
    | (.ok, s) => halUartWriteUint writeChar (0 - num.toUInt32) s
    | (status, s) => (status, s)
  else halUartWriteUint writeChar num.toUInt32 s

end

/-- `while (v != 0u && i > 0u) buf[--i] = ..`, in front of what the buffer has. -/
def fillBack (v : UInt32) : Nat → List UInt8 → List UInt8
  | 0, buf => buf
  | i + 1, buf =>
    if v ≠ 0 then fillBack (v / 10) i (('0'.toUInt8 + (v % 10).toUInt8) :: buf) else buf

def consoleDecMax : Nat := 11

/-- The string that `hal_console_write_uint` hands to `console_put`. -/
def halConsoleWriteUint (v : UInt32) : List UInt8 :=
  if v = 0 then fillBack v (consoleDecMax - 1) ['0'.toUInt8]
  else fillBack v consoleDecMax []

/-- A transport that takes every character. -/
def logChar (c : UInt8) (log : List UInt8) : HalStatus × List UInt8 := (.ok, log ++ [c])

/-- The characters that `hal_uart_write_int` passes on. -/
def writtenInt (num : Int32) : List UInt8 := (halUartWriteInt logChar num []).2

/-! ## In -/

def IsBlank (c : UInt8) : Prop := c = ' '.toUInt8 ∨ c = '\t'.toUInt8

instance (c : UInt8) : Decidable (IsBlank c) := inferInstanceAs (Decidable (_ ∨ _))

/-- A result of `int32_t` arithmetic, unless it overflows. -/
def int32 (v : Int) : Option Int := if -2147483648 ≤ v ∧ v < 2147483648 then some v else none

/-- `while (*s >= '0' && *s <= '9')` -/
def digitsLoop : Int → List UInt8 → Option Int
  | result, [] => some result
  | result, c :: s =>
    if '0'.toUInt8 ≤ c ∧ c ≤ '9'.toUInt8 then do
      let shifted ← int32 (result * 10)
      let result ← int32 (shifted + ((c.toNat : Int) - '0'.toNat))
      digitsLoop result s
    else some result

/-- The string ends with the list; `none` when a step overflows. -/
def strToInt (s : List UInt8) : Option Int :=
  match s.dropWhile fun c => decide (IsBlank c) with
  | [] => some 0
  | c :: s =>
    if c = '-'.toUInt8 then do
      let result ← digitsLoop 0 s
      int32 (-1 * result)
    else do
      let result ← digitsLoop 0 (if c = '+'.toUInt8 then s else c :: s)
      int32 (1 * result)

/-! ## What is written -/

theorem digit_toUInt8 (v : UInt32) :
    '0'.toUInt8 + (v % 10).toUInt8 = digit (v.toNat % 10) := by
  have hmod : (v % 10).toNat = v.toNat % 10 := UInt32.toNat_mod v 10
  apply UInt8.toNat_inj.mp
  rw [digit_toNat (Nat.mod_lt _ (by decide)), UInt8.toNat_add, UInt32.toNat_toUInt8, hmod]
  change (48 + v.toNat % 10 % 256) % 256 = 48 + v.toNat % 10
  omega

theorem div_eq_zero_iff (v : UInt32) : v / 10 = 0 ↔ v.toNat / 10 = 0 := by
  rw [← UInt32.toNat_inj, UInt32.toNat_div]
  rfl

theorem fillDigits_eq (num : UInt32) : fillDigits num = (lowFirst num.toNat).map digit := by
  induction num using fillDigits.induct with
  | case1 num ih =>
    rw [fillDigits, lowFirst_eq, digit_toUInt8, List.map_cons]
    by_cases hlast : num / 10 = 0
    · rw [if_pos hlast, if_pos ((div_eq_zero_iff num).mp hlast), List.map_nil]
    · rw [if_neg hlast, if_neg (mt (div_eq_zero_iff num).mpr hlast), ih hlast, UInt32.toNat_div]
      rfl

theorem fillBack_zero (i : Nat) (buf : List UInt8) : fillBack 0 i buf = buf := by
  cases i <;> rfl

/-- The buffer of the console has room for all the digits. -/
theorem fillBack_eq {v : UInt32} {i : Nat} {buf : List UInt8} (hv : v ≠ 0)
    (hroom : v.toNat < 10 ^ i) : fillBack v i buf = decimal v.toNat ++ buf := by
  induction i generalizing v buf with
  | zero => exact absurd (UInt32.toNat_inj.mp (Nat.lt_one_iff.mp hroom)) hv
  | succ i ih =>
    have hdiv : (v / 10).toNat = v.toNat / 10 := UInt32.toNat_div v 10
    have hnext : (v / 10).toNat < 10 ^ i := by
      rw [hdiv]
      exact Nat.div_lt_of_lt_mul (by rwa [Nat.pow_succ'] at hroom)
    rw [fillBack, if_pos hv, digit_toUInt8, decimal, lowFirst_eq, List.map_cons,
      List.reverse_cons, List.append_assoc, List.singleton_append]
    by_cases hlast : v / 10 = 0
    · rw [if_pos ((div_eq_zero_iff v).mp hlast), hlast, fillBack_zero]
      rfl
    · rw [if_neg (mt (div_eq_zero_iff v).mpr hlast), ih hlast hnext, hdiv, decimal]

theorem halConsoleWriteUint_eq (v : UInt32) : halConsoleWriteUint v = decimal v.toNat := by
  unfold halConsoleWriteUint
  by_cases hv : v = 0
  · rw [if_pos hv, hv, fillBack_zero]
    rfl
  · have hroom : v.toNat < 10 ^ consoleDecMax := Nat.lt_trans v.toNat_lt (by decide)
    rw [if_neg hv, fillBack_eq hv hroom, List.append_nil]

theorem writeAll_logChar (cs log : List UInt8) : writeAll logChar cs log = (.ok, log ++ cs) := by
  induction cs generalizing log with
  | nil => rw [writeAll, List.append_nil]
  | cons c cs ih =>
    rw [writeAll, logChar]
    dsimp only
    rw [ih, List.append_assoc, List.singleton_append]

theorem halUartWriteUint_logChar (num : UInt32) (log : List UInt8) :
    halUartWriteUint logChar num log = (.ok, log ++ decimal num.toNat) := by
  rw [halUartWriteUint, writeAll_logChar, fillDigits_eq, decimal]

theorem toInt_eq (num : Int32) :
    num.toInt = if 2 * num.toUInt32.toNat < 4294967296 then (num.toUInt32.toNat : Int)
      else num.toUInt32.toNat - 4294967296 :=
  BitVec.toInt_eq_toNat_cond num.toBitVec

theorem lt_zero_iff (num : Int32) : num < 0 ↔ num.toInt < 0 := Int32.lt_iff_toInt_lt

/-- The magnitude, which `INT32_MIN` has as well. -/
theorem magnitude_toNat {num : Int32} (h : num < 0) :
    (0 - num.toUInt32).toNat = num.toInt.natAbs := by
  have hneg := (lt_zero_iff num).mp h
  have hlt := num.toUInt32.toNat_lt
  have hint := toInt_eq num
  rw [UInt32.toNat_sub]
  change (4294967296 - num.toUInt32.toNat + 0) % 4294967296 = _
  split at hint <;> omega

theorem toUInt32_toNat {num : Int32} (h : ¬ num < 0) : num.toUInt32.toNat = num.toInt.natAbs := by
  have hpos := mt (lt_zero_iff num).mpr h
  have hlt := num.toUInt32.toNat_lt
  have hint := toInt_eq num
  split at hint <;> omega

theorem writtenInt_eq (num : Int32) :
    writtenInt num = (if num < 0 then ['-'.toUInt8] else []) ++ decimal num.toInt.natAbs := by
  unfold writtenInt halUartWriteInt
  by_cases hneg : num < 0
  · rw [if_pos hneg, if_pos hneg, logChar]
    dsimp only
    rw [halUartWriteUint_logChar, magnitude_toNat hneg]
    rfl
  · rw [if_neg hneg, if_neg hneg, halUartWriteUint_logChar, toUInt32_toNat hneg]

/-! ## What is read -/

theorem int32_eq_some {v : Int} (h : -2147483648 ≤ v ∧ v < 2147483648) : int32 v = some v :=
  if_pos h

theorem int32_eq_none {v : Int} (h : 2147483648 ≤ v) : int32 v = none :=
  if_neg fun hin => by omega

theorem isDigit_chars (c : UInt8) : ('0'.toUInt8 ≤ c ∧ c ≤ '9'.toUInt8) ↔ IsDigit c := Iff.rfl

theorem digitsLoop_stop {r : Int} {rest : List UInt8}
    (hrest : ∀ c ∈ rest.head?, ¬ IsDigit c) : digitsLoop r rest = some r := by
  cases rest with
  | nil => rfl
  | cons c rest =>
    rw [digitsLoop, if_neg]
    exact hrest c rfl

/-- Read from the left, the value only grows: it fits if what it ends with does. -/
theorem digitsLoop_digits {r : Nat} {ds rest : List UInt8} (hr : r < 2147483648)
    (hds : ∀ c ∈ ds, IsDigit c) (hrest : ∀ c ∈ rest.head?, ¬ IsDigit c) :
    digitsLoop r (ds ++ rest) =
      if valueFrom r ds < 2147483648 then some (valueFrom r ds : Int) else none := by
  induction ds generalizing r with
  | nil =>
    have hvalue : valueFrom r [] = r := rfl
    rw [List.nil_append, digitsLoop_stop hrest, hvalue, if_pos hr]
  | cons c ds ih =>
    have hc := hds c List.mem_cons_self
    have hdigit := isDigit_iff.mp hc
    have hvalue : valueFrom r (c :: ds) = valueFrom (r * 10 + digitVal c) ds := rfl
    have hle := le_valueFrom (r * 10 + digitVal c) ds
    have hadd : (r : Int) * 10 + ((c.toNat : Int) - '0'.toNat) = (r * 10 + digitVal c : Nat) := by
      have hzero : '0'.toNat = 48 := rfl
      rw [hzero, digitVal]
      omega
    rw [List.cons_append, digitsLoop, if_pos ((isDigit_chars c).mpr hc), hvalue]
    by_cases hshift : r * 10 < 2147483648
    · rw [int32_eq_some (by omega)]
      by_cases hnext : r * 10 + digitVal c < 2147483648
      · rw [Option.bind_eq_bind, Option.bind_some, hadd, int32_eq_some (by omega)]
        exact ih hnext fun d hd => hds d (List.mem_cons_of_mem c hd)
      · rw [Option.bind_eq_bind, Option.bind_some, hadd, int32_eq_none (by omega),
          if_neg (by omega)]
        rfl
    · rw [int32_eq_none (by omega), if_neg (by omega)]
      rfl

theorem not_blank_of_digit {c : UInt8} (h : IsDigit c) : ¬ IsBlank c := by
  rintro (rfl | rfl) <;> revert h <;> decide

theorem not_sign_of_digit {c : UInt8} (h : IsDigit c) : c ≠ '-'.toUInt8 ∧ c ≠ '+'.toUInt8 := by
  constructor <;> (rintro rfl; revert h; decide)

theorem dropWhile_blanks {ws s : List UInt8} (hws : ∀ c ∈ ws, IsBlank c)
    (hs : ∀ c ∈ s.head?, ¬ IsBlank c) :
    (ws ++ s).dropWhile (fun c => decide (IsBlank c)) = s := by
  rw [List.dropWhile_append_of_pos fun c hc => decide_eq_true (hws c hc)]
  cases s with
  | nil => rfl
  | cons c s =>
    rw [List.dropWhile_cons_of_neg]
    rw [decide_eq_true_eq]
    exact hs c rfl

theorem digitsLoop_decimal (m : Nat) {rest : List UInt8} (hrest : ∀ c ∈ rest.head?, ¬ IsDigit c) :
    digitsLoop 0 (decimal m ++ rest) = if m < 2147483648 then some (m : Int) else none := by
  have hdigits : ∀ c ∈ decimal m, IsDigit c := fun c hc => decimal_isDigit hc
  have hread := digitsLoop_digits (r := 0) (by decide) hdigits hrest
  rwa [valueFrom_decimal] at hread

theorem eq_minValue_iff (num : Int32) :
    num = Int32.minValue ↔ num < 0 ∧ ¬ num.toInt.natAbs < 2147483648 := by
  have hmin : Int32.minValue.toInt = -2147483648 := by decide
  have hlt := num.toUInt32.toNat_lt
  have hint := toInt_eq num
  rw [← Int32.toInt_inj, hmin, lt_zero_iff]
  split at hint <;> omega

/-- Only `INT32_MIN` does not fit before its sign is applied. -/
theorem strToInt_written (num : Int32) {ws rest : List UInt8} (hws : ∀ c ∈ ws, IsBlank c)
    (hrest : ∀ c ∈ rest.head?, ¬ IsDigit c) :
    strToInt (ws ++ writtenInt num ++ rest) =
      if num = Int32.minValue then none else some num.toInt := by
  have hmin := eq_minValue_iff num
  rw [writtenInt_eq, List.append_assoc]
  unfold strToInt
  by_cases hneg : num < 0
  · have hint := (lt_zero_iff num).mp hneg
    have hblank : ∀ c ∈ (['-'.toUInt8] ++ decimal num.toInt.natAbs ++ rest).head?,
        ¬ IsBlank c := by
      rintro c ⟨⟩
      decide
    rw [if_pos hneg, dropWhile_blanks hws hblank]
    change (if '-'.toUInt8 = '-'.toUInt8 then
      digitsLoop 0 (decimal num.toInt.natAbs ++ rest) >>= fun result => int32 (-1 * result)
      else _) = _
    rw [if_pos rfl, digitsLoop_decimal _ hrest]
    by_cases hfits : num.toInt.natAbs < 2147483648
    · have hvalue : -1 * (num.toInt.natAbs : Int) = num.toInt := by omega
      rw [if_pos hfits, Option.bind_eq_bind, Option.bind_some, hvalue, int32_eq_some (by omega),
        if_neg fun h => (hmin.mp h).2 hfits]
    · rw [if_neg hfits, if_pos (hmin.mpr ⟨hneg, hfits⟩)]
      rfl
  · have hint := mt (lt_zero_iff num).mpr hneg
    have hfits : num.toInt.natAbs < 2147483648 :=
      Decidable.of_not_not fun h => by
        have hlt := num.toUInt32.toNat_lt
        have hcases := toInt_eq num
        split at hcases <;> omega
    cases hdigits : decimal num.toInt.natAbs with
    | nil => exact absurd hdigits (decimal_ne_nil _)
    | cons c ds =>
      have hc : IsDigit c := decimal_isDigit (hdigits ▸ List.mem_cons_self)
      obtain ⟨hminus, hplus⟩ := not_sign_of_digit hc
      have hblank : ∀ d ∈ ([] ++ c :: ds ++ rest).head?, ¬ IsBlank d := by
        rintro d ⟨⟩
        exact not_blank_of_digit hc
      rw [if_neg hneg, dropWhile_blanks hws hblank]
      change (if c = '-'.toUInt8 then _ else
        digitsLoop 0 (if c = '+'.toUInt8 then ds ++ rest else (c :: ds) ++ rest) >>=
          fun result => int32 (1 * result)) = _
      have hvalue : 1 * (num.toInt.natAbs : Int) = num.toInt := by omega
      rw [if_neg hminus, if_neg hplus, ← hdigits, digitsLoop_decimal _ hrest, if_pos hfits,
        Option.bind_eq_bind, Option.bind_some, hvalue, int32_eq_some (by omega),
        if_neg fun h => hneg (hmin.mp h).1]

/-! ## The round trip -/

/-- What is written is the decimal of the number, and is read back as it. -/
structure RoundTrips (num : Int32) : Prop where
  canonical : ∃ ds, IsDecimal num.toInt.natAbs ds ∧
    writtenInt num = (if num < 0 then ['-'.toUInt8] else []) ++ ds
  short : (writtenInt num).length ≤ 11
  inverse : ∀ ws rest : List UInt8, (∀ c ∈ ws, IsBlank c) → (∀ c ∈ rest.head?, ¬ IsDigit c) →
    strToInt (ws ++ writtenInt num ++ rest) = some num.toInt
  console : ¬ num < 0 → halConsoleWriteUint num.toUInt32 = writtenInt num

theorem writtenInt_length_le (num : Int32) : (writtenInt num).length ≤ 11 := by
  have hlt := num.toUInt32.toNat_lt
  have hint := toInt_eq num
  have hfits : num.toInt.natAbs < 10 ^ 10 := by
    change _ < 10000000000
    split at hint <;> omega
  have hlen := decimal_length_le (by decide) hfits
  rw [writtenInt_eq, List.length_append]
  split
  · rw [List.length_singleton]
    omega
  · rw [List.length_nil]
    omega

/-- Already without blanks and without anything behind it. -/
theorem RoundTrips.ne_min {num : Int32} (h : RoundTrips num) : num ≠ Int32.minValue := by
  intro hmin
  have hws : ∀ c ∈ ([] : List UInt8), IsBlank c := by simp
  have hrest : ∀ c ∈ ([] : List UInt8).head?, ¬ IsDigit c := by simp
  have hread := h.inverse [] [] hws hrest
  rw [strToInt_written num hws hrest, if_pos hmin] at hread
  exact nomatch hread

theorem round_trips_iff (num : Int32) : RoundTrips num ↔ num ≠ Int32.minValue := by
  constructor
  · exact RoundTrips.ne_min
  · intro hne
    refine ⟨⟨_, decimal_isDecimal _, writtenInt_eq num⟩, writtenInt_length_le num, ?_, ?_⟩
    · intro ws rest hws hrest
      rw [strToInt_written num hws hrest, if_neg hne]
    · intro hpos
      rw [halConsoleWriteUint_eq, writtenInt_eq, if_neg hpos, toUInt32_toNat hpos, List.nil_append]

/-- "-2147483648" is written, and `214748364 * 10 + 8` overflows. -/
theorem int32_min_overflows : ¬ RoundTrips Int32.minValue :=
  fun h => h.ne_min rfl

end NavHAL.Utils
