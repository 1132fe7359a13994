import NavHAL.Lib.BitField
import NavHAL.Status

/-!
# The memory protection unit (`mpu.c`)

`hal_mpu_configure_region` validates and selects a region through RNR;
`hal_mpu_apply` writes pairs that `hal_mpu_encode` validated earlier, and selects
the region by the VALID bit of RBAR.  `fast_path_agrees` says that both leave the
same registers, accept the same descriptors and lose nothing of those whose memory
type and permission are named; the switch statements take any other value for the
first name (`unnamed_encodes_alike`).
-/

namespace NavHAL.Arch

open BitField

/-! ## Registers -/

/-- RBAR without VALID and REGION, and RASR. -/
structure MpuRegion where
  addr : BitVec 32
  rasr : BitVec 32
  deriving DecidableEq

structure Mpu where
  type : BitVec 32
  ctrl : BitVec 32
  rnr : BitVec 32
  region : BitVec 32 → MpuRegion

def Mpu.writeCtrl (mpu : Mpu) (v : BitVec 32) : Mpu := { mpu with ctrl := v }

def Mpu.writeRnr (mpu : Mpu) (v : BitVec 32) : Mpu := { mpu with rnr := v }

def Mpu.setRegion (mpu : Mpu) (n : BitVec 32) (r : MpuRegion) : Mpu :=
  { mpu with region := fun k => if k = n then r else mpu.region k }

def mpuRbarAddrMask : BitVec 32 := 0xFFFFFFE0
def mpuRbarValid : BitVec 32 := 1#32 <<< 4
def mpuRbarRegionMask : BitVec 32 := 0x0F

/-- With VALID set the write selects the region that it names. -/
def Mpu.writeRbar (mpu : Mpu) (v : BitVec 32) : Mpu :=
  let mpu := if v &&& mpuRbarValid ≠ 0 then mpu.writeRnr (v &&& mpuRbarRegionMask) else mpu
  mpu.setRegion mpu.rnr { mpu.region mpu.rnr with addr := v &&& mpuRbarAddrMask }

def Mpu.readRasr (mpu : Mpu) : BitVec 32 := (mpu.region mpu.rnr).rasr

def Mpu.writeRasr (mpu : Mpu) (v : BitVec 32) : Mpu :=
  mpu.setRegion mpu.rnr { mpu.region mpu.rnr with rasr := v }

/-! ## Descriptors -/

@[match_pattern] def halMpuApNone : Nat := 0
@[match_pattern] def halMpuApPrivRw : Nat := 1
@[match_pattern] def halMpuApPrivRwUnprivRo : Nat := 2
@[match_pattern] def halMpuApRw : Nat := 3
@[match_pattern] def halMpuApPrivRo : Nat := 4
@[match_pattern] def halMpuApRo : Nat := 5

@[match_pattern] def halMpuMemStronglyOrdered : Nat := 0
@[match_pattern] def halMpuMemDevice : Nat := 1
@[match_pattern] def halMpuMemNormalWt : Nat := 2
@[match_pattern] def halMpuMemNormalWb : Nat := 3
@[match_pattern] def halMpuMemNormalNoncache : Nat := 4

/-- `hal_mpu_region_t`; `size`, `ap` and `mem` are the raw values of their enumerations. -/
structure HalMpuRegion where
  base : BitVec 32
  size : Nat
  ap : Nat
  mem : Nat
  executable : Bool
  shareable : Bool
  srdMask : BitVec 8
  deriving DecidableEq

/-- `hal_mpu_encoded_t` -/
structure HalMpuEncoded where
  rbar : BitVec 32
  rasr : BitVec 32
  deriving DecidableEq

def mpuRasrEnable : BitVec 32 := 1#32 <<< 0
def mpuRasrB : BitVec 32 := 1#32 <<< 16
def mpuRasrC : BitVec 32 := 1#32 <<< 17
def mpuRasrS : BitVec 32 := 1#32 <<< 18
def mpuRasrXn : BitVec 32 := 1#32 <<< 28

def attrBits : Nat → BitVec 32
  | halMpuMemStronglyOrdered => 0
  | halMpuMemDevice => mpuRasrB
  | halMpuMemNormalWt => mpuRasrC
  | halMpuMemNormalWb => mpuRasrC ||| mpuRasrB
  | halMpuMemNormalNoncache => 1#32 <<< 19
  | _ => 0

def apField : Nat → BitVec 32
  | halMpuApNone => 0
  | halMpuApPrivRw => 1
  | halMpuApPrivRwUnprivRo => 2
  | halMpuApRw => 3
  | halMpuApPrivRo => 5
  | halMpuApRo => 6
  | _ => 0

def encodeRasr (r : HalMpuRegion) : BitVec 32 :=
  let rasr := mpuRasrEnable
  let rasr := rasr ||| (BitVec.ofNat 32 r.size &&& 0x1F) <<< 1
  let rasr := rasr ||| r.srdMask.setWidth 32 <<< 8
  let rasr := rasr ||| attrBits r.mem
  let rasr := if r.shareable then rasr ||| mpuRasrS else rasr
  let rasr := rasr ||| apField r.ap <<< 24
  if r.executable then rasr else rasr ||| mpuRasrXn

def encodeRbar (idx : BitVec 32) (r : HalMpuRegion) : BitVec 32 :=
  (r.base &&& mpuRbarAddrMask) ||| mpuRbarValid ||| (idx &&& mpuRbarRegionMask)

/-! ## The driver -/

def halMpuNumRegions (mpu : Mpu) : BitVec 32 := (mpu.type >>> 8) &&& 0xFF

def halMpuPresent (mpu : Mpu) : Bool := halMpuNumRegions mpu ≠ 0

/-- `validate`; `none` is a NULL descriptor. -/
def validate (mpu : Mpu) (idx : BitVec 32) : Option HalMpuRegion → HalStatus
  | none => .errInvalidArg
  | some r =>
    if halMpuNumRegions mpu ≤ idx then .errInvalidArg
    else if r.size < 4 ∨ 31 < r.size then .errInvalidArg
    else if r.base.setWidth 64 &&& (1#64 <<< (r.size + 1) - 1) ≠ 0 then .errInvalidArg
    else if r.srdMask ≠ 0 ∧ r.size < 7 then .errInvalidArg
    else .ok

def halMpuEnable (bgPriv : Bool) (mpu : Mpu) : HalStatus × Mpu :=
  if halMpuPresent mpu then
    (.ok, mpu.writeCtrl (if bgPriv then 1#32 <<< 0 ||| 1#32 <<< 2 else 1#32 <<< 0))
  else (.errNotSupported, mpu)

def halMpuDisable (mpu : Mpu) : HalStatus × Mpu :=
  if halMpuPresent mpu then (.ok, mpu.writeCtrl 0) else (.errNotSupported, mpu)

def halMpuConfigureRegion (idx : BitVec 32) (r : Option HalMpuRegion) (mpu : Mpu) :
    HalStatus × Mpu :=
  if halMpuPresent mpu = false then (.errNotSupported, mpu)
  else match r, validate mpu idx r with
    | some r, .ok =>
      (.ok, (((mpu.writeRnr idx).writeRasr 0).writeRbar (encodeRbar idx r)).writeRasr
        (encodeRasr r))
    | _, st => (st, mpu)

def halMpuDisableRegion (idx : BitVec 32) (mpu : Mpu) : HalStatus × Mpu :=
  if halMpuPresent mpu = false then (.errNotSupported, mpu)
  else if halMpuNumRegions mpu ≤ idx then (.errInvalidArg, mpu)
  else
    let mpu := mpu.writeRnr idx
    (.ok, mpu.writeRasr (mpu.readRasr &&& ~~~mpuRasrEnable))

/-- `hal_mpu_encode` into `out`, and whether there is one. -/
def halMpuEncode (idx : BitVec 32) (r : Option HalMpuRegion) (out : Bool) (mpu : Mpu) :
    HalStatus × Option HalMpuEncoded :=
  if halMpuPresent mpu = false then (.errNotSupported, none)
  else if out = false then (.errInvalidArg, none)
  else match r, validate mpu idx r with
    | some r, .ok => (.ok, some ⟨encodeRbar idx r, encodeRasr r⟩)
    | _, st => (st, none)

/-- One turn of the loop of `hal_mpu_apply`. -/
def applyOne (mpu : Mpu) (enc : HalMpuEncoded) : Mpu :=
  (mpu.writeRbar enc.rbar).writeRasr enc.rasr

def halMpuApply (set : Option (List HalMpuEncoded)) (count : BitVec 32) (mpu : Mpu) :
    HalStatus × Mpu :=
  if halMpuPresent mpu = false then (.errNotSupported, mpu)
  else match set with
    | none => (.errInvalidArg, mpu)
    | some set =>
      if halMpuNumRegions mpu < count then (.errInvalidArg, mpu)
      else (.ok, (set.take count.toNat).foldl applyOne mpu)

inductive MpuCall
  | enable (bgPriv : Bool)
  | disable
  | configureRegion (idx : BitVec 32) (r : Option HalMpuRegion)
  | disableRegion (idx : BitVec 32)
  | encode (idx : BitVec 32) (r : Option HalMpuRegion) (out : Bool)
  | apply (set : Option (List HalMpuEncoded)) (count : BitVec 32)

def MpuCall.perform (mpu : Mpu) : MpuCall → HalStatus × Mpu
  | .enable bgPriv => halMpuEnable bgPriv mpu
  | .disable => halMpuDisable mpu
  | .configureRegion idx r => halMpuConfigureRegion idx r mpu
  | .disableRegion idx => halMpuDisableRegion idx mpu
  | .encode idx r out => ((halMpuEncode idx r out mpu).1, mpu)
  | .apply set count => halMpuApply set count mpu

/-! ## Named values -/

/-- The memory type that a raw value is taken for. -/
def namedMem (mem : Nat) : Nat :=
  if mem ≤ halMpuMemNormalNoncache then mem else halMpuMemStronglyOrdered

/-- The access permission that a raw value is taken for. -/
def namedAp (ap : Nat) : Nat := if ap ≤ halMpuApRo then ap else halMpuApNone

/-- Both are constants of their enumerations. -/
def HalMpuRegion.Named (r : HalMpuRegion) : Prop :=
  r.mem ≤ halMpuMemNormalNoncache ∧ r.ap ≤ halMpuApRo

/-- The descriptor as it is taken. -/
def HalMpuRegion.named (r : HalMpuRegion) : HalMpuRegion :=
  { r with mem := namedMem r.mem, ap := namedAp r.ap }

theorem named_of_named {r : HalMpuRegion} (h : r.Named) : r.named = r := by
  rw [HalMpuRegion.named, namedMem, namedAp, if_pos h.1, if_pos h.2]

/-! ## The two paths -/

/-- Every pair by `hal_mpu_encode`, while it returns `HAL_OK`. -/
def encodeAll (mpu : Mpu) : List (BitVec 32 × HalMpuRegion) → Option (List HalMpuEncoded)
  | [] => some []
  | (idx, r) :: pairs =>
    match halMpuEncode idx (some r) true mpu, encodeAll mpu pairs with
    | (.ok, some enc), some encs => some (enc :: encs)
    | _, _ => none

/-- Every pair by `hal_mpu_configure_region`. -/
def configureAll (mpu : Mpu) (pairs : List (BitVec 32 × HalMpuRegion)) : Mpu :=
  pairs.foldl (fun mpu p => (halMpuConfigureRegion p.1 (some p.2) mpu).2) mpu

/-! ## Register writes -/

section Writes

variable (mpu : Mpu) (n : BitVec 32) (r r' : MpuRegion)

@[simp] theorem setRegion_type : (mpu.setRegion n r).type = mpu.type := rfl

@[simp] theorem setRegion_region_self : (mpu.setRegion n r).region n = r := if_pos rfl

@[simp] theorem setRegion_setRegion :
    (mpu.setRegion n r).setRegion n r' = mpu.setRegion n r' := by
  simp only [Mpu.setRegion, Mpu.mk.injEq, true_and]
  funext k
  by_cases h : k = n <;> simp [h]

theorem setRegion_writeRnr :
    (mpu.setRegion n r).writeRnr n = (mpu.writeRnr n).setRegion n r := rfl

/-- A write of RASR to the region selected. -/
theorem selected_writeRasr (v : BitVec 32) :
    ((mpu.writeRnr n).setRegion n r).writeRasr v =
      (mpu.writeRnr n).setRegion n { r with rasr := v } := by
  show ((mpu.writeRnr n).setRegion n r).setRegion n
    { ((mpu.writeRnr n).setRegion n r).region n with rasr := v } = _
  rw [setRegion_setRegion, setRegion_region_self]

/-- A write of RBAR that names its region. -/
theorem writeRbar_valid {v : BitVec 32} (hvalid : v &&& mpuRbarValid ≠ 0)
    (hregion : v &&& mpuRbarRegionMask = n) :
    mpu.writeRbar v =
      (mpu.writeRnr n).setRegion n { mpu.region n with addr := v &&& mpuRbarAddrMask } := by
  rw [Mpu.writeRbar, if_pos hvalid, hregion]
  rfl

end Writes

/-! ## What a descriptor that is accepted looks like -/

section Accepted

variable {mpu : Mpu} {idx : BitVec 32} {r : HalMpuRegion}

structure Accepted (mpu : Mpu) (idx : BitVec 32) (r : HalMpuRegion) : Prop where
  idx_lt : idx < halMpuNumRegions mpu
  size_ge : 4 ≤ r.size
  size_le : r.size ≤ 31
  aligned : r.base.setWidth 64 &&& (1#64 <<< (r.size + 1) - 1) = 0

theorem validate_ok (h : validate mpu idx (some r) = .ok) : Accepted mpu idx r := by
  unfold validate at h
  simp only [] at h
  split at h
  · cases h
  next hidx =>
  split at h
  · cases h
  next hsize =>
  split at h
  · cases h
  next halign =>
  rw [not_or] at hsize
  exact ⟨BitVec.not_le.mp hidx, Nat.not_lt.mp hsize.1, Nat.not_lt.mp hsize.2,
    Classical.not_not.mp halign⟩

theorem Accepted.idx_and (h : Accepted mpu idx r) (hregions : halMpuNumRegions mpu ≤ 16) :
    idx &&& mpuRbarRegionMask = idx := by
  have hlt : idx.toNat < 16 := Nat.lt_of_lt_of_le h.idx_lt hregions
  apply BitVec.eq_of_toNat_eq
  rw [BitVec.toNat_and]
  change idx.toNat &&& 2 ^ 4 - 1 = idx.toNat
  rw [Nat.and_two_pow_sub_one_eq_mod, Nat.mod_eq_of_lt hlt]

/-- The five bits that RBAR does not keep are clear. -/
theorem Accepted.base_and (h : Accepted mpu idx r) : r.base &&& mpuRbarAddrMask = r.base := by
  have hlow : ∀ i, i < 5 → r.base.getLsbD i = false := by
    intro i hi
    have hlt : r.size + 1 < 64 := Nat.lt_of_le_of_lt (Nat.succ_le_succ h.size_le) (by decide)
    have hpow : (1#64 <<< (r.size + 1) - 1).toNat = 2 ^ (r.size + 1) - 1 := by
      have hone : (1#64 <<< (r.size + 1)).toNat = 2 ^ (r.size + 1) := by
        rw [← BitVec.twoPow_eq, BitVec.toNat_twoPow]
        exact Nat.mod_eq_of_lt (Nat.pow_lt_pow_right (by decide) hlt)
      rw [BitVec.toNat_sub_of_le, hone]
      · rfl
      · rw [BitVec.le_def, hone]
        exact Nat.one_le_two_pow
    have hbit := congrArg (BitVec.getLsbD · i) h.aligned
    have hsize : i < r.size + 1 := by have := h.size_ge; omega
    have hi' : i < 64 := by omega
    simp only [BitVec.getLsbD_and, BitVec.getLsbD_setWidth, hi', decide_true, Bool.true_and]
      at hbit
    rw [← BitVec.testBit_toNat, ← BitVec.testBit_toNat, hpow, Nat.testBit_two_pow_sub_one,
      decide_eq_true hsize, Bool.and_true] at hbit
    rw [← BitVec.testBit_toNat, hbit]
    exact BitVec.getLsbD_zero
  have hmask : ∀ i : Fin 32, mpuRbarAddrMask.getLsbD i = decide (5 ≤ i.val) := by decide
  apply BitVec.eq_of_getLsbD_eq
  intro i hi
  rw [BitVec.getLsbD_and, hmask ⟨i, hi⟩]
  by_cases hge : 5 ≤ i
  · simp [hge]
  · rw [hlow i (Nat.not_le.mp hge), Bool.false_and]

end Accepted

/-! ## The fields of RBAR -/

section Rbar

variable (idx : BitVec 32) (r : HalMpuRegion)

theorem encodeRbar_valid : encodeRbar idx r &&& mpuRbarValid ≠ 0 := by
  have hvalid : encodeRbar idx r &&& mpuRbarValid = mpuRbarValid := by
    rw [encodeRbar, BitVec.and_or_distrib_right, BitVec.and_or_distrib_right, BitVec.and_assoc,
      BitVec.and_assoc, show mpuRbarAddrMask &&& mpuRbarValid = 0#32 by decide,
      show mpuRbarRegionMask &&& mpuRbarValid = 0#32 by decide, BitVec.and_self,
      BitVec.and_zero, BitVec.and_zero, BitVec.zero_or, BitVec.or_zero]
  rw [hvalid]
  decide

theorem encodeRbar_region : encodeRbar idx r &&& mpuRbarRegionMask = idx &&& mpuRbarRegionMask := by
  rw [encodeRbar, BitVec.and_or_distrib_right, BitVec.and_or_distrib_right, BitVec.and_assoc,
    BitVec.and_assoc, show mpuRbarAddrMask &&& mpuRbarRegionMask = 0#32 by decide,
    show mpuRbarValid &&& mpuRbarRegionMask = 0#32 by decide, BitVec.and_self, BitVec.and_zero,
    BitVec.zero_or, BitVec.zero_or]

theorem encodeRbar_addr : encodeRbar idx r &&& mpuRbarAddrMask = r.base &&& mpuRbarAddrMask := by
  rw [encodeRbar, BitVec.and_or_distrib_right, BitVec.and_or_distrib_right, BitVec.and_assoc,
    BitVec.and_assoc, show mpuRbarRegionMask &&& mpuRbarAddrMask = 0#32 by decide,
    show mpuRbarValid &&& mpuRbarAddrMask = 0#32 by decide, BitVec.and_self, BitVec.and_zero,
    BitVec.or_zero, BitVec.or_zero]

end Rbar

/-! ## The fields of RASR -/

/-- C and B of a preset, and TEX. -/
def cacheField : Nat → BitVec 2 × BitVec 3
  | halMpuMemStronglyOrdered => (0, 0)
  | halMpuMemDevice => (1, 0)
  | halMpuMemNormalWt => (2, 0)
  | halMpuMemNormalWb => (3, 0)
  | halMpuMemNormalNoncache => (0, 1)
  | _ => (0, 0)

/-- The preset that the bits stand for. -/
def memOf (bits : BitVec 2 × BitVec 3) : Nat :=
  if bits.2 = 1 then halMpuMemNormalNoncache else bits.1.toNat

theorem memOf_cacheField (mem : Nat) : memOf (cacheField mem) = namedMem mem := by
  match mem with
  | 0 | 1 | 2 | 3 | 4 => rfl
  | mem + 5 =>
    rw [namedMem, if_neg (by simp [halMpuMemNormalNoncache])]
    rfl

theorem attrBits_eq (mem : Nat) :
    attrBits mem = place 16 (cacheField mem).1 ||| place 19 (cacheField mem).2 := by
  match mem with
  | 0 | 1 | 2 | 3 | 4 => decide
  | mem + 5 =>
    show 0#32 = place 16 0#2 ||| place 19 0#3
    decide

/-- The permission that the bits stand for. -/
def apOf (bits : BitVec 3) : Nat := if 4 < bits.toNat then bits.toNat - 1 else bits.toNat

theorem apOf_apField (ap : Nat) : apOf ((apField ap).setWidth 3) = namedAp ap := by
  match ap with
  | 0 | 1 | 2 | 3 | 4 | 5 => rfl
  | ap + 6 =>
    rw [namedAp, if_neg (by simp [halMpuApRo])]
    rfl

theorem apField_eq (ap : Nat) : apField ap <<< 24 = place 24 ((apField ap).setWidth 3) := by
  match ap with
  | 0 | 1 | 2 | 3 | 4 | 5 => decide
  | ap + 6 =>
    show 0#32 <<< 24 = place 24 0#3
    decide

theorem sizeField_eq (size : Nat) :
    (BitVec.ofNat 32 size &&& 0x1F) <<< 1 = place 1 (BitVec.ofNat 5 size) := by
  have hsize : BitVec.ofNat 32 size &&& 0x1F = (BitVec.ofNat 5 size).setWidth 32 := by
    apply BitVec.eq_of_toNat_eq
    rw [BitVec.toNat_and, BitVec.toNat_ofNat, BitVec.toNat_setWidth, BitVec.toNat_ofNat]
    change size % 4294967296 &&& 2 ^ 5 - 1 = size % 32 % 4294967296
    rw [Nat.and_two_pow_sub_one_eq_mod]
    omega
  rw [hsize, place]

theorem flag_eq (flag : Bool) (v : BitVec 32) (pos : Nat) :
    (if flag then v ||| 1#32 <<< pos else v) = v ||| place pos (BitVec.ofBool flag) := by
  cases flag with
  | true => rfl
  | false => simp [place]

theorem encodeRasr_eq (r : HalMpuRegion) :
    encodeRasr r = place 0 1#1 ||| place 1 (BitVec.ofNat 5 r.size) ||| place 8 r.srdMask |||
      (place 16 (cacheField r.mem).1 ||| place 19 (cacheField r.mem).2) |||
      place 18 (BitVec.ofBool r.shareable) ||| place 24 ((apField r.ap).setWidth 3) |||
      place 28 (BitVec.ofBool !r.executable) := by
  have hxn : ∀ v : BitVec 32, (if r.executable then v else v ||| mpuRasrXn) =
      v ||| place 28 (BitVec.ofBool !r.executable) := by
    intro v
    rw [← flag_eq, mpuRasrXn]
    cases r.executable <;> rfl
  simp only [encodeRasr, hxn, apField_eq, mpuRasrS, flag_eq, attrBits_eq, sizeField_eq]
  rfl

/-- No field of RASR overlaps another. -/
theorem encodeRasr_fields (r : HalMpuRegion) :
    field 1 5 (encodeRasr r) = BitVec.ofNat 5 r.size ∧
    field 8 8 (encodeRasr r) = r.srdMask ∧
    (field 16 2 (encodeRasr r), field 19 3 (encodeRasr r)) = cacheField r.mem ∧
    field 18 1 (encodeRasr r) = BitVec.ofBool r.shareable ∧
    field 24 3 (encodeRasr r) = (apField r.ap).setWidth 3 ∧
    field 28 1 (encodeRasr r) = BitVec.ofBool !r.executable := by
  rw [encodeRasr_eq]
  simp [field_place_self, field_place_disjoint]

/-! ## One path against the other -/

section Paths

variable {mpu : Mpu} {idx idx' : BitVec 32} {r r' : HalMpuRegion} {enc : HalMpuEncoded}

theorem halMpuEncode_ok (h : halMpuEncode idx (some r) true mpu = (.ok, some enc)) :
    halMpuPresent mpu = true ∧ validate mpu idx (some r) = .ok ∧
      enc = ⟨encodeRbar idx r, encodeRasr r⟩ := by
  unfold halMpuEncode at h
  split at h
  · cases h
  next hpresent =>
  simp only [Bool.true_eq_false, if_false] at h
  generalize hvalid : validate mpu idx (some r) = st at h
  cases st with
  | ok =>
    cases h
    exact ⟨by simpa using hpresent, rfl, rfl⟩
  | _ => cases h

theorem configure_eq (hpresent : halMpuPresent mpu = true)
    (hvalid : validate mpu idx (some r) = .ok) :
    halMpuConfigureRegion idx (some r) mpu =
      (.ok, (((mpu.writeRnr idx).writeRasr 0).writeRbar (encodeRbar idx r)).writeRasr
        (encodeRasr r)) := by
  rw [halMpuConfigureRegion, if_neg (by simp [hpresent])]
  simp only [hvalid]

theorem applyOne_type (mpu : Mpu) (enc : HalMpuEncoded) : (applyOne mpu enc).type = mpu.type := by
  simp only [applyOne, Mpu.writeRbar, Mpu.writeRasr, setRegion_type]
  split <;> rfl

/-- One pair written by either path. -/
theorem configure_eq_applyOne (hregions : halMpuNumRegions mpu ≤ 16)
    (hpresent : halMpuPresent mpu = true) (hvalid : validate mpu idx (some r) = .ok) :
    (halMpuConfigureRegion idx (some r) mpu).2 =
      applyOne mpu ⟨encodeRbar idx r, encodeRasr r⟩ := by
  have hregion : encodeRbar idx r &&& mpuRbarRegionMask = idx :=
    (encodeRbar_region idx r).trans ((validate_ok hvalid).idx_and hregions)
  have hclear : (mpu.writeRnr idx).writeRasr 0 =
      (mpu.writeRnr idx).setRegion idx { mpu.region idx with rasr := 0 } := rfl
  rw [configure_eq hpresent hvalid, applyOne,
    writeRbar_valid _ idx (encodeRbar_valid idx r) hregion,
    writeRbar_valid _ idx (encodeRbar_valid idx r) hregion, hclear]
  -- the region was cleared first; RBAR and RASR are both written over that
  rw [setRegion_writeRnr]
  simp only [setRegion_setRegion, setRegion_region_self, selected_writeRasr]
  rfl

theorem encodeAll_cons {p : BitVec 32 × HalMpuRegion} {pairs : List (BitVec 32 × HalMpuRegion)}
    {encs : List HalMpuEncoded} (h : encodeAll mpu (p :: pairs) = some encs) :
    ∃ enc rest, halMpuEncode p.1 (some p.2) true mpu = (.ok, some enc) ∧
      encodeAll mpu pairs = some rest ∧ encs = enc :: rest := by
  unfold encodeAll at h
  split at h
  · next enc rest hfirst hrest =>
    cases h
    exact ⟨enc, rest, hfirst, hrest, rfl⟩
  · cases h

theorem encodeAll_length {pairs : List (BitVec 32 × HalMpuRegion)} {encs : List HalMpuEncoded}
    (h : encodeAll mpu pairs = some encs) : encs.length = pairs.length := by
  induction pairs generalizing encs with
  | nil => cases h; rfl
  | cons p pairs ih =>
    obtain ⟨enc, rest, -, hrest, rfl⟩ := encodeAll_cons h
    rw [List.length_cons, List.length_cons, ih hrest]

/-- The pairs encoded in one state and written in another of the same unit. -/
theorem foldl_applyOne {pairs : List (BitVec 32 × HalMpuRegion)} {encs : List HalMpuEncoded}
    (hregions : halMpuNumRegions mpu ≤ 16) (h : encodeAll mpu pairs = some encs) {mpu' : Mpu}
    (htype : mpu'.type = mpu.type) : encs.foldl applyOne mpu' = configureAll mpu' pairs := by
  induction pairs generalizing encs mpu' with
  | nil => cases h; rfl
  | cons p pairs ih =>
    obtain ⟨enc, rest, hfirst, hrest, rfl⟩ := encodeAll_cons h
    obtain ⟨hpresent, hvalid, rfl⟩ := halMpuEncode_ok hfirst
    have hnum : halMpuNumRegions mpu' = halMpuNumRegions mpu := by
      rw [halMpuNumRegions, htype, halMpuNumRegions]
    have hone : (halMpuConfigureRegion p.1 (some p.2) mpu').2 =
        applyOne mpu' ⟨encodeRbar p.1 p.2, encodeRasr p.2⟩ :=
      configure_eq_applyOne (by rwa [hnum]) (by rwa [halMpuPresent, hnum])
        (by rwa [validate, hnum])
    rw [List.foldl_cons, ih hrest ((applyOne_type _ _).trans htype), ← hone]
    rfl

theorem encode_injective (h : halMpuEncode idx (some r) true mpu = (.ok, some enc))
    (h' : halMpuEncode idx' (some r') true mpu = (.ok, some enc))
    (hregions : halMpuNumRegions mpu ≤ 16) : idx = idx' ∧ r.named = r'.named := by
  obtain ⟨-, hvalid, henc⟩ := halMpuEncode_ok h
  obtain ⟨-, hvalid', henc'⟩ := halMpuEncode_ok h'
  have haccepted := validate_ok hvalid
  have haccepted' := validate_ok hvalid'
  obtain ⟨hrbar, hrasr⟩ := HalMpuEncoded.mk.inj (henc.symm.trans henc')
  have hidx : idx = idx' := by
    rw [← haccepted.idx_and hregions, ← haccepted'.idx_and hregions, ← encodeRbar_region idx r,
      ← encodeRbar_region idx' r', hrbar]
  have hbase : r.base = r'.base := by
    rw [← haccepted.base_and, ← haccepted'.base_and, ← encodeRbar_addr idx r,
      ← encodeRbar_addr idx' r', hrbar]
  obtain ⟨hsize, hsrd, hmem, hshare, hap, hxn⟩ := encodeRasr_fields r
  obtain ⟨hsize', hsrd', hmem', hshare', hap', hxn'⟩ := encodeRasr_fields r'
  rw [hrasr] at hsize hsrd hmem hshare hap hxn
  have hsize : r.size = r'.size := by
    have hmod := congrArg BitVec.toNat (hsize.symm.trans hsize')
    rw [BitVec.toNat_ofNat, BitVec.toNat_ofNat] at hmod
    have := haccepted.size_le
    have := haccepted'.size_le
    omega
  have hap : namedAp r.ap = namedAp r'.ap := by
    rw [← apOf_apField, ← apOf_apField, ← hap, ← hap']
  have hmem : namedMem r.mem = namedMem r'.mem := by
    rw [← memOf_cacheField, ← memOf_cacheField, ← hmem, ← hmem']
  have hxn := Bool.not_inj (BitVec.ofBool_eq_iff_eq.mp (hxn.symm.trans hxn'))
  have hshare := BitVec.ofBool_eq_iff_eq.mp (hshare.symm.trans hshare')
  have hsrd := hsrd.symm.trans hsrd'
  refine ⟨hidx, ?_⟩
  rw [HalMpuRegion.named, HalMpuRegion.named, hbase, hsize, hap, hmem, hxn, hshare, hsrd]

end Paths

/-- A call that is refused writes nothing. -/
theorem refused_unchanged (mpu : Mpu) (call : MpuCall) (h : (call.perform mpu).1 ≠ .ok) :
    (call.perform mpu).2 = mpu := by
  cases call with
  | enable bgPriv =>
    simp only [MpuCall.perform, halMpuEnable] at h ⊢
    split at h
    · exact absurd rfl h
    · next hpresent => rw [if_neg hpresent]
  | disable =>
    simp only [MpuCall.perform, halMpuDisable] at h ⊢
    split at h
    · exact absurd rfl h
    · next hpresent => rw [if_neg hpresent]
  | configureRegion idx r =>
    simp only [MpuCall.perform, halMpuConfigureRegion] at h ⊢
    split
    · rfl
    · split
      · simp_all
      · rfl
  | disableRegion idx =>
    simp only [MpuCall.perform, halMpuDisableRegion] at h ⊢
    split
    · rfl
    · split
      · rfl
      · simp_all
  | encode idx r out => rfl
  | apply set count =>
    simp only [MpuCall.perform, halMpuApply] at h ⊢
    split
    · rfl
    · cases set with
      | none => rfl
      | some set =>
        simp only []
        split
        · rfl
        · simp_all

/-- Both paths accept the same pairs, for the same reasons. -/
theorem same_status (mpu : Mpu) (idx : BitVec 32) (r : Option HalMpuRegion) :
    (halMpuConfigureRegion idx r mpu).1 = (halMpuEncode idx r true mpu).1 := by
  unfold halMpuConfigureRegion halMpuEncode
  split
  · rfl
  · cases r with
    | none => rfl
    | some r =>
      simp only [Bool.true_eq_false, if_false]
      cases validate mpu idx (some r) <;> rfl

/-- **The fast path agrees with the validating one.** -/
theorem fast_path_agrees (mpu : Mpu) (hregions : halMpuNumRegions mpu ≤ 16) :
    (∀ pairs encs, encodeAll mpu pairs = some encs →
      pairs.length ≤ (halMpuNumRegions mpu).toNat →
      (halMpuApply (some encs) (BitVec.ofNat 32 encs.length) mpu).2 = configureAll mpu pairs) ∧
    (∀ idx r, (halMpuConfigureRegion idx r mpu).1 = (halMpuEncode idx r true mpu).1) ∧
    (∀ call : MpuCall, (call.perform mpu).1 ≠ .ok → (call.perform mpu).2 = mpu) ∧
    (∀ idx idx' r r' enc, halMpuEncode idx (some r) true mpu = (.ok, some enc) →
      halMpuEncode idx' (some r') true mpu = (.ok, some enc) →
      idx = idx' ∧ r.named = r'.named ∧ (r.Named → r'.Named → r = r')) := by
  refine ⟨?_, same_status mpu, refused_unchanged mpu, ?_⟩
  · intro pairs encs hencs hlen
    rw [← foldl_applyOne hregions hencs rfl]
    have hcount : (BitVec.ofNat 32 encs.length).toNat = encs.length := by
      rw [BitVec.toNat_ofNat, encodeAll_length hencs]
      exact Nat.mod_eq_of_lt (Nat.lt_of_le_of_lt hlen (BitVec.isLt _))
    rw [halMpuApply]
    split
    · next hpresent =>
      -- without a unit nothing is accepted
      cases pairs with
      | nil => cases hencs; rfl
      | cons p pairs =>
        obtain ⟨enc, rest, hfirst, -⟩ := encodeAll_cons hencs
        exact absurd (halMpuEncode_ok hfirst).1 (by simp [hpresent])
    · have hle : ¬ halMpuNumRegions mpu < BitVec.ofNat 32 encs.length := by
        rw [BitVec.not_lt, BitVec.le_def, hcount, encodeAll_length hencs]
        exact hlen
      simp only [if_neg hle, hcount, List.take_length]
  · intro idx idx' r r' enc h h'
    obtain ⟨hidx, hnamed⟩ := encode_injective h h' hregions
    refine ⟨hidx, hnamed, fun hr hr' => ?_⟩
    rw [← named_of_named hr, ← named_of_named hr', hnamed]

/-- The sixteen regions of a Cortex-M7, all unused. -/
def cortexM7 : Mpu := ⟨0x1000, 0, 0, fun _ => ⟨0, 0⟩⟩

/-- 32 KB of shareable memory. -/
def sharedRam : HalMpuRegion := 
  ⟨0x20000000, 14, halMpuApRw, halMpuMemNormalWb, false, true, 0⟩

/-- 256 B of a device. -/
def deviceWindow : HalMpuRegion := 
  ⟨0x40020000, 7, halMpuApPrivRw, halMpuMemDevice, false, false, 0⟩

theorem fast_path_cortexM7 :
    let pairs := [(3, sharedRam), (0, deviceWindow), (3, deviceWindow)]
    let encs := [⟨0x20000013, 0x1307001D⟩, ⟨0x40020010, 0x1101000F⟩, ⟨0x40020013, 0x1101000F⟩]
    (halMpuApply (some encs) 3 cortexM7).2 = configureAll cortexM7 pairs :=
  (fast_path_agrees cortexM7 (by decide)).1 _ _ (by decide) (by decide)

/-- A memory type past the last name is accepted and encoded as strongly ordered memory, a
permission past the last as none. -/
theorem unnamed_encodes_alike :
    let named : HalMpuRegion := { deviceWindow with mem := 0, ap := 0 }
    let unnamed : HalMpuRegion := { deviceWindow with mem := 5, ap := 6 }
    halMpuEncode 0 (some named) true cortexM7 = (.ok, some ⟨0x40020010, 0x1000000F⟩) ∧
      halMpuEncode 0 (some unnamed) true cortexM7 = (.ok, some ⟨0x40020010, 0x1000000F⟩) ∧
      named.mem ≠ unnamed.mem ∧ named.ap ≠ unnamed.ap := by
  decide

end NavHAL.Arch
