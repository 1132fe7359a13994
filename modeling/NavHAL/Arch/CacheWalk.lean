import Mathlib.Algebra.Ring.Nat
import Mathlib.Data.List.Nodup
import Mathlib.Data.List.ProdSigma
import Mathlib.Data.Nat.Size

/-!
# The walkers of the data cache (`cache.c`)

`dcache_walk_range` visits the lines of a buffer, `dcache_walk_sets_ways` all sets and ways.
`walkRange_lines` and `walkSetsWays_eq` say which operands they write and in which order;
`walk_exact_iff` is where that is each line, or each set and way, once;
`dcache_calls_write_lines` is what the calls on a buffer make of it.
-/

namespace NavHAL.Arch.CacheWalk

/-- Operands written one after the other. -/
def issue {σ : Type} (write : UInt32 → σ → σ) (ops : List UInt32) (s : σ) : σ :=
  ops.foldl (fun s op => write op s) s

/-- A register that keeps what is written to it. -/
def record (op : UInt32) (log : List UInt32) : List UInt32 := log ++ [op]

section

variable {σ : Type} (write : UInt32 → σ → σ)

/-! ## By address -/

def navhalCacheLine : UInt32 := 32

/-- `while (p < end)`; `none` where the fuel is spent. -/
def rangeLoop (stop : UInt32) : Nat → UInt32 → σ → Option σ
  | 0, _, _ => none
  | fuel + 1, p, s =>
    if p < stop then rangeLoop stop fuel (p + navhalCacheLine) (write p s) else some s

def dcacheWalkRange (addr size : UInt32) (fuel : Nat) (s : σ) : Option σ :=
  if size = 0 then some s
  else rangeLoop write (addr + size) fuel (addr &&& ~~~(navhalCacheLine - 1)) s

/-! ## By set and way -/

/-- `__builtin_clz`, which is undefined for 0. -/
def builtinClz (v : UInt32) : Option UInt32 :=
  if v = 0 then none else some (UInt32.ofBitVec v.toBitVec.clz)

theorem toNat_ne_zero {v : UInt32} (h : v ≠ 0) : v.toNat ≠ 0 :=
  fun hz => h (UInt32.toNat_inj.mp hz)

/-- The post-decrement, where the loop goes on. -/
theorem pred_toNat {v : UInt32} (h : v ≠ 0) : (v - 1).toNat = v.toNat - 1 := by
  have hone : (1 : UInt32) ≤ v := by
    rw [UInt32.le_iff_toNat_le]
    exact Nat.one_le_iff_ne_zero.mpr (toNat_ne_zero h)
  rw [UInt32.toNat_sub_of_le _ _ hone]
  rfl

/-- The inner loop, for one set. -/
def waysLoop (setShift wayShift sets w : UInt32) (s : σ) : σ :=
  let s := write (sets <<< setShift ||| w <<< wayShift) s
  if w = 0 then s else waysLoop setShift wayShift sets (w - 1) s
termination_by w.toNat
decreasing_by
  rw [pred_toNat ‹¬ w = 0›]
  exact Nat.sub_one_lt (toNat_ne_zero ‹¬ w = 0›)

/-- The outer loop, for this set and those below. -/
def setsLoop (setShift wayShift ways sets : UInt32) (s : σ) : σ :=
  let s := waysLoop write setShift wayShift sets ways s
  if sets = 0 then s else setsLoop setShift wayShift ways (sets - 1) s
termination_by sets.toNat
decreasing_by
  rw [pred_toNat ‹¬ sets = 0›]
  exact Nat.sub_one_lt (toNat_ne_zero ‹¬ sets = 0›)

/-- The fields of `CCSIDR`, as they are read. -/
def setShift (ccsidr : UInt32) : UInt32 := (ccsidr &&& 7) + 4

def waysField (ccsidr : UInt32) : UInt32 := (ccsidr >>> 3) &&& 0x3FF

def setsField (ccsidr : UInt32) : UInt32 := (ccsidr >>> 13) &&& 0x7FFF

def dcacheWalkSetsWays (ccsidr : UInt32) (s : σ) : Option σ := do
  let wayShift ← builtinClz (waysField ccsidr)
  some (setsLoop write (setShift ccsidr) wayShift (waysField ccsidr) (setsField ccsidr) s)

end

/-! ## The data cache -/

/-- The maintenance registers. -/
inductive ScbReg
  | dcimvac
  | dcisw
  | dccmvac
  | dccimvac
  | dccisw
  deriving DecidableEq

/-- The system control block, with what was written to the maintenance registers. -/
structure Scb where
  ccr : UInt32
  ccsidr : UInt32
  writes : List (ScbReg × UInt32)

def scbCcrDc : UInt32 := (1 : UInt32) <<< 16

def Scb.write (reg : ScbReg) (op : UInt32) (s : Scb) : Scb :=
  { s with writes := s.writes ++ [(reg, op)] }

def halDcacheEnable (s : Scb) : Option Scb :=
  if s.ccr &&& scbCcrDc ≠ 0 then some s
  else do
    let s ← dcacheWalkSetsWays (Scb.write .dcisw) s.ccsidr s
    some { s with ccr := s.ccr ||| scbCcrDc }

def halDcacheDisable (s : Scb) : Option Scb :=
  let s := { s with ccr := s.ccr &&& ~~~scbCcrDc }
  dcacheWalkSetsWays (Scb.write .dccisw) s.ccsidr s

def halDcacheClean (addr size : UInt32) (fuel : Nat) (s : Scb) : Option Scb :=
  dcacheWalkRange (Scb.write .dccmvac) addr size fuel s

def halDcacheInvalidate (addr size : UInt32) (fuel : Nat) (s : Scb) : Option Scb :=
  dcacheWalkRange (Scb.write .dcimvac) addr size fuel s

def halDcacheCleanInvalidate (addr size : UInt32) (fuel : Nat) (s : Scb) : Option Scb :=
  dcacheWalkRange (Scb.write .dccimvac) addr size fuel s

/-! ## What the walkers write -/

theorem issue_record (ops log : List UInt32) : issue record ops log = log ++ ops := by
  induction ops generalizing log with
  | nil => exact (List.append_nil log).symm
  | cons op ops ih =>
    have hstep : issue record (op :: ops) log = issue record ops (log ++ [op]) := rfl
    rw [hstep, ih, List.append_assoc, List.singleton_append]

theorem issue_append {σ : Type} (write : UInt32 → σ → σ) (ops ops' : List UInt32) (s : σ) :
    issue write (ops ++ ops') s = issue write ops' (issue write ops s) :=
  List.foldl_append

theorem issue_scb (reg : ScbReg) (ops : List UInt32) (s : Scb) :
    issue (Scb.write reg) ops s = { s with writes := s.writes ++ ops.map fun op => (reg, op) } := by
  induction ops generalizing s with
  | nil => simp [issue]
  | cons op ops ih =>
    have hstep : issue (Scb.write reg) (op :: ops) s =
        issue (Scb.write reg) ops (s.write reg op) := rfl
    rw [hstep, ih]
    simp [Scb.write]

section

variable {σ : Type} (write : UInt32 → σ → σ)

def lineAddr (l : Nat) : UInt32 := UInt32.ofNat (32 * l)

theorem lineAddr_toNat {l : Nat} (h : 32 * l < 4294967296) : (lineAddr l).toNat = 32 * l := by
  rw [lineAddr, UInt32.toNat_ofNat']
  exact Nat.mod_eq_of_lt h

theorem lineAddr_succ (l : Nat) : lineAddr l + navhalCacheLine = lineAddr (l + 1) := by
  apply UInt32.toNat_inj.mp
  rw [lineAddr, lineAddr, navhalCacheLine, UInt32.toNat_add, UInt32.toNat_ofNat',
    UInt32.toNat_ofNat']
  change (_ % 4294967296 + 32) % 4294967296 = _ % 4294967296
  omega

/-- With room for a line behind the end, the loop visits the lines in their order. -/
theorem rangeLoop_lines {stop : UInt32} {first n fuel : Nat} (s : σ)
    (hroom : stop.toNat ≤ 4294967264) (hcount : (stop.toNat + 31) / 32 = first + n)
    (hfuel : n < fuel) :
    rangeLoop write stop fuel (lineAddr first) s =
      some (issue write ((List.range' first n).map lineAddr) s) := by
  induction n generalizing first fuel s with
  | zero =>
    obtain ⟨fuel, rfl⟩ : ∃ k, fuel = k + 1 := ⟨fuel - 1, by omega⟩
    have hend : ¬ lineAddr first < stop := by
      rw [UInt32.lt_iff_toNat_lt, lineAddr_toNat (by omega)]
      omega
    rw [rangeLoop, if_neg hend]
    rfl
  | succ n ih =>
    obtain ⟨fuel, rfl⟩ : ∃ k, fuel = k + 1 := ⟨fuel - 1, by omega⟩
    have hgoes : lineAddr first < stop := by
      rw [UInt32.lt_iff_toNat_lt, lineAddr_toNat (by omega)]
      omega
    rw [rangeLoop, if_pos hgoes, lineAddr_succ, ih _ (by omega) (by omega)]
    rfl

/-- Behind the last line but one the address wraps before it reaches the end. -/
theorem rangeLoop_never {stop : UInt32} (hstop : 4294967264 < stop.toNat) (fuel : Nat)
    {p : UInt32} (hp : p.toNat % 32 = 0) (s : σ) : rangeLoop write stop fuel p s = none := by
  induction fuel generalizing p s with
  | zero => rfl
  | succ fuel ih =>
    have hlt := p.toNat_lt
    have hgoes : p < stop := by
      rw [UInt32.lt_iff_toNat_lt]
      omega
    have hnext : (p + navhalCacheLine).toNat % 32 = 0 := by
      rw [UInt32.toNat_add]
      change (p.toNat + 32) % 4294967296 % 32 = 0
      omega
    rw [rangeLoop, if_pos hgoes, ih hnext]

/-- Rounding down to a line. -/
theorem toNat_and_not_mask (x : UInt32) : (x &&& ~~~(32 - 1)).toNat = x.toNat / 32 * 32 := by
  have hmask : (~~~(32 - 1) : UInt32).toNat = (2 ^ 27 - 1) <<< 5 := by decide
  have hdiv : x.toNat / 32 * 32 = (x.toNat >>> 5) <<< 5 := by
    rw [Nat.shiftLeft_eq, Nat.shiftRight_eq_div_pow]
  rw [UInt32.toNat_and, hmask, hdiv]
  apply Nat.eq_of_testBit_eq
  intro i
  rw [Nat.testBit_and, Nat.testBit_shiftLeft, Nat.testBit_shiftLeft, Nat.testBit_shiftRight,
    Nat.testBit_two_pow_sub_one]
  by_cases hi : 5 ≤ i
  · by_cases hlow : i - 5 < 27
    · simp [hi, hlow]
    · have hbit : x.toNat.testBit i = false :=
        Nat.testBit_lt_two_pow
          (Nat.lt_of_lt_of_le x.toNat_lt (Nat.pow_le_pow_right (by decide) (by omega)))
      simp [hi, hbit]
  · simp [hi]

theorem roundDown_eq (addr : UInt32) :
    addr &&& ~~~(navhalCacheLine - 1) = lineAddr (addr.toNat / 32) := by
  have hlt := addr.toNat_lt
  apply UInt32.toNat_inj.mp
  rw [lineAddr_toNat (by omega)]
  exact (toNat_and_not_mask addr).trans (Nat.mul_comm _ _)

/-- The lines of the buffer, in their order. -/
theorem walkRange_lines {addr size : UInt32} (hsize : size ≠ 0)
    (hroom : addr.toNat + size.toNat ≤ 4294967264) (s : σ) :
    ∃ fuel, dcacheWalkRange write addr size fuel s =
      some (issue write ((List.range' (addr.toNat / 32)
        ((addr.toNat + size.toNat + 31) / 32 - addr.toNat / 32)).map lineAddr) s) := by
  have hstop : (addr + size).toNat = addr.toNat + size.toNat := by
    rw [UInt32.toNat_add]
    exact Nat.mod_eq_of_lt (by omega)
  refine ⟨(addr.toNat + size.toNat + 31) / 32 - addr.toNat / 32 + 1, ?_⟩
  rw [dcacheWalkRange, if_neg hsize, roundDown_eq]
  exact rangeLoop_lines write s (by omega) (by omega) (Nat.lt_succ_self _)

/-- The operand as the loops put it together. -/
def operandWord (setShift wayShift : UInt32) (p : Nat × Nat) : UInt32 :=
  UInt32.ofNat p.1 <<< setShift ||| UInt32.ofNat p.2 <<< wayShift

/-- From `n` down to 0, as the loops count. -/
def down (n : Nat) : List Nat := (List.range (n + 1)).reverse

theorem down_succ (n : Nat) : down (n + 1) = (n + 1) :: down n := by
  rw [down, List.range_succ, List.reverse_append, List.reverse_singleton, List.singleton_append]
  rfl

theorem down_of_ne {v : UInt32} (h : v ≠ 0) : down v.toNat = v.toNat :: down (v - 1).toNat := by
  have hv : v.toNat = (v - 1).toNat + 1 := by
    rw [pred_toNat h]
    have hpos := toNat_ne_zero h
    omega
  rw [hv, down_succ]

theorem waysLoop_eq (setShift wayShift sets w : UInt32) (s : σ) :
    waysLoop write setShift wayShift sets w s =
      issue write
        ((down w.toNat).map fun i => operandWord setShift wayShift (sets.toNat, i)) s := by
  have hop : ∀ w : UInt32, operandWord setShift wayShift (sets.toNat, w.toNat) =
      sets <<< setShift ||| w <<< wayShift := fun w => by
    rw [operandWord, UInt32.ofNat_toNat, UInt32.ofNat_toNat]
  induction w, s using waysLoop.induct write setShift wayShift sets with
  | case1 s =>
    have hlast : (down (UInt32.toNat 0)).map (fun i =>
        operandWord setShift wayShift (sets.toNat, i)) = [sets <<< setShift ||| 0 <<< wayShift] :=
      congrArg (fun op => [op]) (hop 0)
    rw [waysLoop, if_pos rfl, hlast]
    rfl
  | case2 w s t hne ih =>
    rw [waysLoop, if_neg hne, ih, down_of_ne hne, List.map_cons, hop]
    rfl

/-- Every set and way, from the last down. -/
def setsWays (sets ways : Nat) : List (Nat × Nat) := down sets ×ˢ down ways

theorem setsLoop_eq (setShift wayShift ways sets : UInt32) (s : σ) :
    setsLoop write setShift wayShift ways sets s =
      issue write ((setsWays sets.toNat ways.toNat).map (operandWord setShift wayShift)) s := by
  have hrow : ∀ (sets : UInt32) (s : σ), waysLoop write setShift wayShift sets ways s =
      issue write (((down ways.toNat).map (Prod.mk sets.toNat)).map
        (operandWord setShift wayShift)) s := by
    intro sets s
    rw [waysLoop_eq, List.map_map]
    rfl
  induction sets, s using setsLoop.induct write setShift wayShift ways with
  | case1 s =>
    have hlast : setsWays (UInt32.toNat 0) ways.toNat =
        (down ways.toNat).map (Prod.mk (UInt32.toNat 0)) := List.append_nil _
    rw [setsLoop, if_pos rfl, hrow, hlast]
  | case2 sets s t hne ih =>
    have hpairs : setsWays sets.toNat ways.toNat =
        (down ways.toNat).map (Prod.mk sets.toNat) ++ setsWays (sets - 1).toNat ways.toNat := by
      rw [setsWays, down_of_ne hne]
      rfl
    rw [setsLoop, if_neg hne, ih, hpairs, List.map_append, issue_append, ← hrow]

end

/-! ## What they are to write -/

/-- A line with a byte of the buffer. -/
def Touches (addr size : UInt32) (l : Nat) : Prop :=
  ∃ a, addr.toNat ≤ a ∧ a < addr.toNat + size.toNat ∧ a / 32 = l

/-- The walk ends, with every line of the buffer once, in ascending order, and no other. -/
def CoversRange (addr size : UInt32) : Prop :=
  ∃ fuel ops, dcacheWalkRange record addr size fuel [] = some ops ∧
    ops.Pairwise (fun op op' => op.toNat < op'.toNat) ∧
      ∀ op : UInt32, op ∈ ops ↔ op.toNat % 32 = 0 ∧ Touches addr size (op.toNat / 32)

/-- The operand of a set and a way: the set above the line, the way at the top of the word. -/
def operand (ccsidr : UInt32) (p : Nat × Nat) : Nat :=
  p.1 * 2 ^ (setShift ccsidr).toNat + p.2 * 2 ^ (32 - (waysField ccsidr).toNat.size)

/-- The fields of the operand do not overlap. -/
def FieldsApart (ccsidr : UInt32) : Prop :=
  (setShift ccsidr).toNat + (setsField ccsidr).toNat.size + (waysField ccsidr).toNat.size ≤ 32

/-- The walk is defined, and writes the operand of every set and way once. -/
def CoversSetsWays (ccsidr : UInt32) : Prop :=
  ∃ (ops : List UInt32) (pairs : List (Nat × Nat)), dcacheWalkSetsWays record ccsidr [] = some ops ∧
    pairs.Nodup ∧
      (∀ p : Nat × Nat, p ∈ pairs ↔
        p.1 ≤ (setsField ccsidr).toNat ∧ p.2 ≤ (waysField ccsidr).toNat) ∧
      ops.map UInt32.toNat = pairs.map (operand ccsidr) ∧ ops.Nodup

/-- A walk, with what it starts from. -/
inductive Walk
  | range (addr size : UInt32)
  | setsWays (ccsidr : UInt32)

/-- Some bytes of the address space, or a cache whose operand fits a word. -/
def Walk.Proper : Walk → Prop
  | .range addr size => size ≠ 0 ∧ addr.toNat + size.toNat ≤ 4294967296
  | .setsWays ccsidr => FieldsApart ccsidr

def Walk.Exact : Walk → Prop
  | .range addr size => CoversRange addr size
  | .setsWays ccsidr => CoversSetsWays ccsidr

/-! ## When they do -/

theorem touches_iff {addr size : UInt32} (hsize : size ≠ 0) (l : Nat) :
    Touches addr size l ↔ addr.toNat / 32 ≤ l ∧ 32 * l < addr.toNat + size.toNat := by
  have hpos := toNat_ne_zero hsize
  constructor
  · rintro ⟨a, hlow, hhigh, rfl⟩
    omega
  · rintro ⟨hlow, hhigh⟩
    exact ⟨max addr.toNat (32 * l), by omega, by omega, by omega⟩

theorem coversRange_of_room {addr size : UInt32} (hsize : size ≠ 0)
    (hroom : addr.toNat + size.toNat ≤ 4294967264) : CoversRange addr size := by
  obtain ⟨fuel, hwalk⟩ := walkRange_lines record hsize hroom []
  have hinside : ∀ l, l ∈ List.range' (addr.toNat / 32)
      ((addr.toNat + size.toNat + 31) / 32 - addr.toNat / 32) ↔ Touches addr size l := by
    intro l
    rw [List.mem_range'_1, touches_iff hsize]
    omega
  have hsmall : ∀ {l}, Touches addr size l → (lineAddr l).toNat = 32 * l := fun h => by
    have hl := (touches_iff hsize _).mp h
    exact lineAddr_toNat (by omega)
  rw [issue_record, List.nil_append] at hwalk
  refine ⟨fuel, _, hwalk, ?_, fun op => ?_⟩
  · rw [List.pairwise_map]
    refine List.Pairwise.imp_of_mem ?_ List.pairwise_lt_range'
    intro l l' hl hl' hlt
    rw [hsmall ((hinside l).mp hl), hsmall ((hinside l').mp hl')]
    omega
  · rw [List.mem_map]
    constructor
    · rintro ⟨l, hl, rfl⟩
      have htouch := (hinside l).mp hl
      rw [hsmall htouch]
      refine ⟨by omega, ?_⟩
      rwa [Nat.mul_div_cancel_left _ (by decide)]
    · rintro ⟨hline, htouch⟩
      refine ⟨op.toNat / 32, (hinside _).mpr htouch, ?_⟩
      apply UInt32.toNat_inj.mp
      rw [hsmall htouch]
      omega

theorem coversRange_iff {addr size : UInt32} (hsize : size ≠ 0)
    (hspace : addr.toNat + size.toNat ≤ 4294967296) :
    CoversRange addr size ↔ addr.toNat + size.toNat ≤ 4294967264 := by
  refine ⟨fun h => ?_, coversRange_of_room hsize⟩
  refine Nat.not_lt.mp fun hlast => ?_
  obtain ⟨fuel, ops, hwalk, -, hmem⟩ := h
  have haddr := addr.toNat_lt
  have hsum : (addr + size).toNat = (addr.toNat + size.toNat) % 4294967296 := UInt32.toNat_add _ _
  rw [dcacheWalkRange, if_neg hsize, roundDown_eq] at hwalk
  by_cases hend : addr.toNat + size.toNat = 4294967296
  · -- the end is address 0, and nothing is below it
    have hstop : addr + size = 0 := by
      apply UInt32.toNat_inj.mp
      rw [hsum, hend]
      rfl
    have hops : ops = [] := by
      cases fuel with
      | zero => exact nomatch hwalk
      | succ fuel =>
        rw [hstop, rangeLoop, if_neg UInt32.not_lt_zero] at hwalk
        exact (Option.some_inj.mp hwalk).symm
    have hfirst : (lineAddr (addr.toNat / 32)).toNat = 32 * (addr.toNat / 32) :=
      lineAddr_toNat (by omega)
    have hno := (hmem (lineAddr (addr.toNat / 32))).mpr
    rw [hfirst, hops, touches_iff hsize] at hno
    exact List.not_mem_nil (hno ⟨by omega, by omega, by omega⟩)
  · have hstop : 4294967264 < (addr + size).toNat := by
      rw [hsum]
      omega
    have hp : (lineAddr (addr.toNat / 32)).toNat % 32 = 0 := by
      rw [lineAddr_toNat (by omega)]
      omega
    rw [rangeLoop_never record hstop fuel hp []] at hwalk
    exact nomatch hwalk

theorem setShift_toNat_le (ccsidr : UInt32) : (setShift ccsidr).toNat ≤ 11 := by
  have hmask : (ccsidr &&& 7).toNat = ccsidr.toNat % 8 :=
    (UInt32.toNat_and _ _).trans (Nat.and_two_pow_sub_one_eq_mod _ 3)
  rw [setShift, UInt32.toNat_add, hmask]
  change (ccsidr.toNat % 8 + 4) % 4294967296 ≤ 11
  omega

theorem waysField_toNat_lt (ccsidr : UInt32) : (waysField ccsidr).toNat < 1024 := by
  have hmask : (waysField ccsidr).toNat = (ccsidr >>> 3).toNat % 1024 :=
    (UInt32.toNat_and _ _).trans (Nat.and_two_pow_sub_one_eq_mod _ 10)
  rw [hmask]
  exact Nat.mod_lt _ (by decide)

/-- The count of leading zeros is the place of the way, if there is more than one. -/
theorem builtinClz_of_ne {v : UInt32} (h : v ≠ 0) :
    ∃ shift, builtinClz v = some shift ∧ shift.toNat = 32 - v.toNat.size := by
  have hne : v.toBitVec ≠ 0#32 := fun hz => h (UInt32.toBitVec_inj.mp hz)
  have hlow := BitVec.two_pow_sub_clz_le_toNat_of_ne_zero (by decide) hne
  have hhigh := @BitVec.toNat_lt_two_pow_sub_clz 32 v.toBitVec
  have hlt : v.toBitVec.clz.toNat < 32 := BitVec.lt_def.mp (BitVec.clz_lt_iff_ne_zero.mpr hne)
  have hv : v.toBitVec.toNat = v.toNat := rfl
  rw [hv, ← Nat.lt_size] at hlow
  rw [hv, ← Nat.size_le] at hhigh
  refine ⟨_, if_neg h, ?_⟩
  rw [UInt32.toNat_ofBitVec]
  omega

theorem size_waysField_le (ccsidr : UInt32) : (waysField ccsidr).toNat.size ≤ 10 :=
  Nat.size_le.mpr (waysField_toNat_lt ccsidr)

/-- The set stays below the way. -/
theorem set_lt {ccsidr : UInt32} (h : FieldsApart ccsidr) {set : Nat}
    (hset : set ≤ (setsField ccsidr).toNat) :
    set * 2 ^ (setShift ccsidr).toNat < 2 ^ (32 - (waysField ccsidr).toNat.size) := by
  have hsize : set < 2 ^ (setsField ccsidr).toNat.size :=
    Nat.lt_of_le_of_lt hset (Nat.lt_size_self _)
  calc set * 2 ^ (setShift ccsidr).toNat
      < 2 ^ (setsField ccsidr).toNat.size * 2 ^ (setShift ccsidr).toNat :=
        Nat.mul_lt_mul_of_pos_right hsize (Nat.two_pow_pos _)
    _ = 2 ^ ((setsField ccsidr).toNat.size + (setShift ccsidr).toNat) := (Nat.pow_add _ _ _).symm
    _ ≤ 2 ^ (32 - (waysField ccsidr).toNat.size) :=
        Nat.pow_le_pow_right (by decide) (by unfold FieldsApart at h; omega)

theorem way_lt {ccsidr : UInt32} {way : Nat} (hway : way ≤ (waysField ccsidr).toNat) :
    way * 2 ^ (32 - (waysField ccsidr).toNat.size) + 2 ^ (32 - (waysField ccsidr).toNat.size) ≤
      4294967296 := by
  have hsize := size_waysField_le ccsidr
  have hlt : way < 2 ^ (waysField ccsidr).toNat.size := Nat.lt_of_le_of_lt hway (Nat.lt_size_self _)
  calc way * 2 ^ (32 - (waysField ccsidr).toNat.size) + 2 ^ (32 - (waysField ccsidr).toNat.size)
      = (way + 1) * 2 ^ (32 - (waysField ccsidr).toNat.size) := by rw [Nat.add_mul, Nat.one_mul]
    _ ≤ 2 ^ (waysField ccsidr).toNat.size * 2 ^ (32 - (waysField ccsidr).toNat.size) :=
        Nat.mul_le_mul_right _ hlt
    _ = 2 ^ ((waysField ccsidr).toNat.size + (32 - (waysField ccsidr).toNat.size)) :=
        (Nat.pow_add _ _ _).symm
    _ = 2 ^ 32 := by rw [Nat.add_sub_cancel' (by omega)]
    _ = 4294967296 := rfl

/-- With the fields apart, putting the operand together is adding. -/
theorem operandWord_toNat {ccsidr shift : UInt32} (h : FieldsApart ccsidr)
    (hne : waysField ccsidr ≠ 0) (hshift : shift.toNat = 32 - (waysField ccsidr).toNat.size)
    {p : Nat × Nat} (hset : p.1 ≤ (setsField ccsidr).toNat)
    (hway : p.2 ≤ (waysField ccsidr).toNat) :
    (operandWord (setShift ccsidr) shift p).toNat = operand ccsidr p := by
  have hlow := set_lt h hset
  have hhigh := way_lt hway
  have hset31 := setShift_toNat_le ccsidr
  have hsize : 0 < (waysField ccsidr).toNat.size :=
    Nat.size_pos.mpr (Nat.pos_of_ne_zero (toNat_ne_zero hne))
  have hpos := Nat.two_pow_pos (32 - (waysField ccsidr).toNat.size)
  have hsetPos := Nat.le_mul_of_pos_right p.1 (Nat.two_pow_pos (setShift ccsidr).toNat)
  have hwayPos := Nat.le_mul_of_pos_right p.2 hpos
  rw [operandWord, UInt32.toNat_or, UInt32.toNat_shiftLeft, UInt32.toNat_shiftLeft,
    UInt32.toNat_ofNat', UInt32.toNat_ofNat', hshift, Nat.mod_eq_of_lt (by omega : p.1 < _),
    Nat.mod_eq_of_lt (by omega : p.2 < _),
    Nat.mod_eq_of_lt (by omega : (setShift ccsidr).toNat < 32),
    Nat.mod_eq_of_lt (by omega : 32 - (waysField ccsidr).toNat.size < 32), Nat.shiftLeft_eq,
    Nat.shiftLeft_eq, Nat.mod_eq_of_lt (by omega), Nat.mod_eq_of_lt (by omega), Nat.or_comm,
    Nat.mul_comm p.2, ← Nat.two_pow_add_eq_or_of_lt hlow, operand, Nat.add_comm, Nat.mul_comm p.2]

theorem operand_injective {ccsidr : UInt32} (h : FieldsApart ccsidr) {p q : Nat × Nat}
    (hp : p.1 ≤ (setsField ccsidr).toNat) (hq : q.1 ≤ (setsField ccsidr).toNat)
    (heq : operand ccsidr p = operand ccsidr q) : p = q := by
  have hpos := Nat.two_pow_pos (32 - (waysField ccsidr).toNat.size)
  have hdiv : ∀ {r : Nat × Nat}, r.1 ≤ (setsField ccsidr).toNat →
      operand ccsidr r / 2 ^ (32 - (waysField ccsidr).toNat.size) = r.2 := fun hr => by
    rw [operand, Nat.add_mul_div_right _ _ hpos, Nat.div_eq_of_lt (set_lt h hr), Nat.zero_add]
  have hway : p.2 = q.2 := by rw [← hdiv hp, ← hdiv hq, heq]
  have hset : p.1 * 2 ^ (setShift ccsidr).toNat = q.1 * 2 ^ (setShift ccsidr).toNat := by
    rw [operand, operand, hway] at heq
    exact Nat.add_right_cancel heq
  exact Prod.ext (Nat.eq_of_mul_eq_mul_right (Nat.two_pow_pos _) hset) hway

theorem mem_down {n i : Nat} : i ∈ down n ↔ i ≤ n := by
  rw [down, List.mem_reverse, List.mem_range, Nat.lt_succ_iff]

theorem mem_setsWays {sets ways : Nat} {p : Nat × Nat} :
    p ∈ setsWays sets ways ↔ p.1 ≤ sets ∧ p.2 ≤ ways := by
  rw [setsWays, List.mem_product, mem_down, mem_down]

theorem setsWays_nodup (sets ways : Nat) : (setsWays sets ways).Nodup :=
  List.Nodup.product (List.nodup_reverse.mpr List.nodup_range)
    (List.nodup_reverse.mpr List.nodup_range)

theorem coversSetsWays_iff {ccsidr : UInt32} (h : FieldsApart ccsidr) :
    CoversSetsWays ccsidr ↔ waysField ccsidr ≠ 0 := by
  constructor
  · rintro ⟨ops, pairs, hwalk, -⟩ hzero
    have hclz : builtinClz (waysField ccsidr) = none := if_pos hzero
    rw [dcacheWalkSetsWays, hclz] at hwalk
    exact nomatch hwalk
  · intro hne
    obtain ⟨shift, hclz, hshift⟩ := builtinClz_of_ne hne
    have hwords : ∀ p ∈ setsWays (setsField ccsidr).toNat (waysField ccsidr).toNat,
        (operandWord (setShift ccsidr) shift p).toNat = operand ccsidr p := fun p hp => by
      obtain ⟨hset, hway⟩ := mem_setsWays.mp hp
      exact operandWord_toNat h hne hshift hset hway
    refine ⟨(setsWays (setsField ccsidr).toNat (waysField ccsidr).toNat).map
        (operandWord (setShift ccsidr) shift),
      _, ?_, setsWays_nodup _ _, fun _ => mem_setsWays, ?_, ?_⟩
    · rw [dcacheWalkSetsWays, hclz, Option.bind_eq_bind, Option.bind_some, setsLoop_eq,
        issue_record, List.nil_append]
    · rw [List.map_map]
      exact List.map_congr_left hwords
    · refine List.Nodup.map_on ?_ (setsWays_nodup _ _)
      intro p hp q hq heq
      have hsame : operand ccsidr p = operand ccsidr q := by rw [← hwords p hp, ← hwords q hq, heq]
      exact operand_injective h (mem_setsWays.mp hp).1 (mem_setsWays.mp hq).1 hsame

/-- There is a line behind the end, or there is more than one way. -/
def Walk.Fits : Walk → Prop
  | .range addr size => addr.toNat + size.toNat ≤ 4294967264
  | .setsWays ccsidr => waysField ccsidr ≠ 0

theorem walk_exact_iff (walk : Walk) (h : walk.Proper) : walk.Exact ↔ walk.Fits := by
  cases walk with
  | range addr size => exact coversRange_iff h.1 h.2
  | setsWays ccsidr => exact coversSetsWays_iff h

/-- The data cache of the F767: 16 KB in four ways. -/
theorem walk_f767 : CoversSetsWays 0xF00FE019 :=
  (walk_exact_iff (.setsWays 0xF00FE019) (by unfold Walk.Proper FieldsApart; decide)).mpr
    (by unfold Walk.Fits; decide)

/-- Eight bytes in the last line of the address space. -/
theorem last_line_never_ends :
    (Walk.range 0xFFFFFFF0 8).Proper ∧ ¬ (Walk.range 0xFFFFFFF0 8).Exact := by
  refine ⟨⟨by decide, by decide⟩, fun hcovers => ?_⟩
  have hroom := (coversRange_iff (by decide) (by decide)).mp hcovers
  exact absurd hroom (by decide)

/-! ## The calls of the driver -/

/-- The lines of a buffer, the first one first. -/
def linesOf (addr size : UInt32) : List UInt32 :=
  (List.range' (addr.toNat / 32) ((addr.toNat + size.toNat + 31) / 32 - addr.toNat / 32)).map
    lineAddr

/-- Operands written to one register, and nothing else changed. -/
def Scb.issued (s : Scb) (reg : ScbReg) (ops : List UInt32) : Scb :=
  { s with writes := s.writes ++ ops.map fun op => (reg, op) }

theorem walkRange_issued (reg : ScbReg) {addr size : UInt32} (hsize : size ≠ 0)
    (hroom : addr.toNat + size.toNat ≤ 4294967264) (s : Scb) :
    ∃ fuel, dcacheWalkRange (Scb.write reg) addr size fuel s =
      some (s.issued reg (linesOf addr size)) := by
  obtain ⟨fuel, hwalk⟩ := walkRange_lines (Scb.write reg) hsize hroom s
  exact ⟨fuel, hwalk.trans (congrArg some (issue_scb reg _ s))⟩

/-- A second enable would drop live data, and does nothing. -/
theorem halDcacheEnable_twice {s s' : Scb} (h : halDcacheEnable s = some s') :
    halDcacheEnable s' = some s' := by
  have habsorb : ∀ v : UInt32, (v ||| scbCcrDc) &&& scbCcrDc = scbCcrDc := fun v => by
    rw [UInt32.and_comm]
    apply UInt32.toBitVec_inj.mp
    ext i hi
    simp only [UInt32.toBitVec_and, UInt32.toBitVec_or, BitVec.getElem_and, BitVec.getElem_or]
    cases scbCcrDc.toBitVec[i] <;> simp
  refine if_pos ?_
  unfold halDcacheEnable at h
  split at h
  · next hon =>
    rw [← Option.some_inj.mp h]
    exact hon
  · obtain ⟨t, -, ht⟩ := Option.bind_eq_some_iff.mp h
    rw [← Option.some_inj.mp ht]
    dsimp only
    rw [habsorb]
    decide

/-- **The calls on a buffer write its lines to their own register, and change nothing else**; on a
cache that is on, an enable does nothing. -/
theorem dcache_calls_write_lines {addr size : UInt32} (hsize : size ≠ 0)
    (hroom : addr.toNat + size.toNat ≤ 4294967264) (s : Scb) :
    (∃ fuel, halDcacheClean addr size fuel s = some (s.issued .dccmvac (linesOf addr size))) ∧
      (∃ fuel, halDcacheInvalidate addr size fuel s =
        some (s.issued .dcimvac (linesOf addr size))) ∧
      (∃ fuel, halDcacheCleanInvalidate addr size fuel s =
        some (s.issued .dccimvac (linesOf addr size))) ∧
      ∀ s', halDcacheEnable s = some s' → halDcacheEnable s' = some s' :=
  ⟨walkRange_issued .dccmvac hsize hroom s, walkRange_issued .dcimvac hsize hroom s,
    walkRange_issued .dccimvac hsize hroom s, fun _ => halDcacheEnable_twice⟩

/-- 40 bytes that begin in the middle of a line are in two. -/
theorem clean_two_lines :
    ∃ fuel, halDcacheClean 0x20020010 40 fuel ⟨scbCcrDc, 0xF00FE019, []⟩ =
      some ⟨scbCcrDc, 0xF00FE019, [(.dccmvac, 0x20020000), (.dccmvac, 0x20020020)]⟩ :=
  (dcache_calls_write_lines (by decide) (by decide) ⟨scbCcrDc, 0xF00FE019, []⟩).1

end NavHAL.Arch.CacheWalk
