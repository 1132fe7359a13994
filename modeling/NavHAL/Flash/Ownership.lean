import NavHAL.Flash.Raw
import Mathlib.Data.List.Induction

/-!
# Who owns what a loader writes (`flash.c`)

The raw partition calls again, with a NULL source, the full range of lengths and
every access to the controller.

* `rawSectorAllowed_iff`, `rawRangeAllowed_iff` : the two checks accept exactly the
  sectors a loader owns and the ranges that lie in them;
* `rawCalls_ownership` : a call refused touches nothing, and no call changes a byte
  that is not a loader's.
-/

namespace NavHAL.Flash

open Memory

/-! ## The calls and what they touch -/

/-- One access of a call to the controller or to the flash. -/
inductive CtrlAccess
  | unlock
  | wait
  | startErase (sector : UInt8)
  | startProgram
  | store (addr : Nat) (lo hi : UInt8)
  | readBack (addr : Nat)
  | clearMode
  | lock
  | cacheFlush
  deriving DecidableEq, Repr

structure RawCtrl where
  dev : FlashDev
  accesses : List CtrlAccess := []

def RawCtrl.access (ctrl : RawCtrl) (accesses : List CtrlAccess) : RawCtrl :=
  { ctrl with accesses := ctrl.accesses ++ accesses }

/-- `_flash_wait_`, while `[a, b)` is being worked on. -/
def RawCtrl.wait (ctrl : RawCtrl) (a b : Nat) : HalStatus × RawCtrl :=
  ((flashWait ctrl.dev a b).1,
    { dev := (flashWait ctrl.dev a b).2, accesses := ctrl.accesses ++ [.wait] })

/-- `hal_flash_raw_erase_sector` -/
def rawEraseSector (c : KvSectors) (ctrl : RawCtrl) (sector : UInt8) : HalStatus × RawCtrl :=
  let start := sectorBase sector.toNat
  let stop := sectorEnd sector.toNat
  if rawSectorAllowed c sector = false then (.errInvalidArg, ctrl)
  else match (ctrl.access [.unlock]).wait 0 0 with
    | (.ok, ctrl) =>
      let ctrl := { ctrl.access [.startErase sector] with
        dev := flashEraseSector ctrl.dev start stop }
      let (st, ctrl) := ctrl.wait start stop
      (st, ctrl.access [.clearMode, .lock, .cacheFlush])
    | (st, ctrl) => (st, ctrl.access [.lock])

/-- The loop of `hal_flash_raw_program`, at `addr`; the source's bytes from `off` on. -/
def rawProgramWords : Nat → List UInt8 → RawCtrl → HalStatus × RawCtrl
  | addr, lo :: hi :: rest, ctrl =>
    let ctrl := { ctrl.access [.startProgram, .store addr lo hi] with
      dev := flashProgramHalfWord ctrl.dev addr lo hi }
    match ctrl.wait addr (addr + 2) with
    | (.ok, ctrl) =>
      if ctrl.dev.mem addr = lo ∧ ctrl.dev.mem (addr + 1) = hi then
        rawProgramWords (addr + 2) rest (ctrl.access [.clearMode, .readBack addr])
      else (.errIo, ctrl.access [.clearMode, .readBack addr])
    | (st, ctrl) => (st, ctrl.access [.clearMode])
  | _, _, ctrl => (.ok, ctrl)

/-- The first `len` bytes at a pointer. -/
def sourceBytes (src : Nat → UInt8) (len : UInt32) : List UInt8 :=
  (List.range len.toNat).map src

/-- `hal_flash_raw_program`; `none` is a NULL source. -/
def rawProgram (c : KvSectors) (ctrl : RawCtrl) (addr : UInt32) (data : Option (Nat → UInt8))
    (len : UInt32) : HalStatus × RawCtrl :=
  match data with
  | none => (.errInvalidArg, ctrl)
  | some src =>
    if addr &&& 1 ≠ 0 ∨ len &&& 1 ≠ 0 then (.errInvalidArg, ctrl)
    else if rawRangeAllowed c addr len = false then (.errInvalidArg, ctrl)
    else match (ctrl.access [.unlock]).wait 0 0 with
      | (.ok, ctrl) =>
        let (st, ctrl) := rawProgramWords addr.toNat (sourceBytes src len) ctrl
        (st, ctrl.access [.lock])
      | (st, ctrl) => (st, ctrl.access [.lock])

@[simp] theorem sourceBytes_length (src : Nat → UInt8) (len : UInt32) :
    (sourceBytes src len).length = len.toNat := by
  simp [sourceBytes]

@[simp] theorem RawCtrl.access_dev (ctrl : RawCtrl) (accesses : List CtrlAccess) :
    (ctrl.access accesses).dev = ctrl.dev := rfl

/-! ## The same as the calls without their accesses -/

theorem rawEraseSector_eq (c : KvSectors) (ctrl : RawCtrl) (sector : UInt8) :
    ((rawEraseSector c ctrl sector).1, (rawEraseSector c ctrl sector).2.dev) =
      halFlashRawEraseSector c ctrl.dev sector := by
  simp only [rawEraseSector, halFlashRawEraseSector, RawCtrl.wait, RawCtrl.access_dev]
  split
  · rfl
  · rcases hwait : flashWait ctrl.dev 0 0 with ⟨st, dev⟩
    cases st <;> rfl

theorem rawProgramWords_eq (addr : Nat) (data : List UInt8) (ctrl : RawCtrl) :
    ((rawProgramWords addr data ctrl).1, (rawProgramWords addr data ctrl).2.dev) =
      rawProgramLoop addr data ctrl.dev := by
  induction data using List.twoStepInduction generalizing addr ctrl with
  | nil => rfl
  | singleton lo => rfl
  | cons_cons lo hi rest ih _ =>
    simp only [rawProgramWords, rawProgramLoop, RawCtrl.wait]
    rcases hwait : flashWait (flashProgramHalfWord ctrl.dev addr lo hi) addr (addr + 2) with ⟨st, dev⟩
    cases st with
    | ok =>
      by_cases hback : dev.mem addr = lo ∧ dev.mem (addr + 1) = hi
      · simp only [if_pos hback]
        exact ih _ _
      · simp only [if_neg hback]
        rfl
    | _ => rfl

theorem rawProgram_eq (c : KvSectors) (ctrl : RawCtrl) (addr : UInt32) (src : Nat → UInt8)
    (len : UInt32) :
    ((rawProgram c ctrl addr (some src) len).1, (rawProgram c ctrl addr (some src) len).2.dev) =
      halFlashRawProgram c ctrl.dev addr (sourceBytes src len) := by
  simp only [rawProgram, halFlashRawProgram, sourceBytes_length, UInt32.ofNat_toNat,
    RawCtrl.wait, RawCtrl.access_dev]
  split
  · rfl
  · split
    · rfl
    · rcases hwait : flashWait ctrl.dev 0 0 with ⟨st, dev⟩
      cases st with
      | ok => exact rawProgramWords_eq _ _ _
      | _ => rfl

/-! ## What a loader owns -/

/-- Neither stage-1's sectors nor those of the key/value store. -/
def LoaderSector (c : KvSectors) (sector : Nat) : Prop :=
  sector < 8 ∧ sector ≠ 0 ∧ sector ≠ 1 ∧ sector ≠ c.primary ∧ sector ≠ c.secondary

def LoaderOwns (c : KvSectors) (x : Nat) : Prop :=
  0x08000000 ≤ x ∧ x ≤ 0x0807FFFF ∧ ¬ InSector 0 x ∧ ¬ InSector 1 x ∧ c.Outside x

/-- What `hal_flash_raw_program` takes: a source, half-words, and a range that a
loader owns.  The sum is not one of 32 bits. -/
def ValidProgram (c : KvSectors) (addr : UInt32) (data : Option (Nat → UInt8)) (len : UInt32) :
    Prop :=
  data.isSome = true ∧ addr.toNat % 2 = 0 ∧ len.toNat % 2 = 0 ∧ 0 < len.toNat ∧
    ∀ x, addr.toNat ≤ x → x < addr.toNat + len.toNat → LoaderOwns c x

section

variable {c : KvSectors}

theorem rawSectorAllowed_iff (sector : UInt8) :
    rawSectorAllowed c sector = true ↔ LoaderSector c sector.toNat := by
  have h7 : (7 < sector) ↔ 7 < sector.toNat := UInt8.lt_iff_toNat_lt
  have h1 : (sector ≤ 1) ↔ sector.toNat ≤ 1 := UInt8.le_iff_toNat_le
  unfold rawSectorAllowed LoaderSector
  by_cases hbig : 7 < sector
  · have hbig' := h7.mp hbig
    rw [if_pos hbig]
    exact iff_of_false (by simp) (by omega)
  · have hbig' := mt h7.mpr hbig
    by_cases hlow : sector ≤ 1
    · have hlow' := h1.mp hlow
      rw [if_neg hbig, if_pos hlow]
      exact iff_of_false (by simp) (by omega)
    · have hlow' := mt h1.mpr hlow
      rw [if_neg hbig, if_neg hlow]
      split
      · exact iff_of_false (by simp) (by omega)
      · exact iff_of_true rfl (by omega)

/-- A byte of a sector is a loader's when the sector is. -/
theorem LoaderSector.owns {s x : Nat} (h : LoaderSector c s) (hx : InSector s x) :
    LoaderOwns c x := by
  obtain ⟨hlt, h0, h1, hprimary, hsecondary⟩ := h
  have hbounds : ∀ s < 8, 0x08000000 ≤ sectorBase s ∧ sectorEnd s ≤ 0x08080000 := by decide
  obtain ⟨hbase, hend⟩ := hbounds s hlt
  obtain ⟨hlow, hhigh⟩ := id hx
  refine ⟨by omega, by omega, ?_, ?_, ?_, ?_⟩
  · exact fun hin => h0 (InSector.unique hlt (by omega) hx hin)
  · exact fun hin => h1 (InSector.unique hlt (by omega) hx hin)
  · exact fun hin => hprimary (InSector.unique hlt c.primary_lt hx hin)
  · exact fun hin => hsecondary (InSector.unique hlt c.secondary_lt hx hin)

/-- No byte a loader owns lies in a sector refused. -/
theorem LoaderOwns.not_refused {s x : Nat} (h : LoaderOwns c x) (hs : s < 8)
    (hrefused : rawSectorAllowed c (UInt8.ofNat s) = false) : ¬ InSector s x := by
  obtain ⟨-, -, h0, h1, hprimary, hsecondary⟩ := h
  have hnot : ¬ LoaderSector c s := by
    have hiff := (rawSectorAllowed_iff (c := c) (UInt8.ofNat s)).not
    rw [UInt8.toNat_ofNat', Nat.mod_eq_of_lt (by omega)] at hiff
    exact hiff.mp (by simp [hrefused])
  intro hin
  refine hnot ⟨hs, ?_, ?_, ?_, ?_⟩
  · exact fun heq => h0 (heq ▸ hin)
  · exact fun heq => h1 (heq ▸ hin)
  · exact fun heq => hprimary (heq ▸ hin)
  · exact fun heq => hsecondary (heq ▸ hin)

/-- What the range check finds, over the whole numbers. -/
theorem rawRangeAllowed_checks (addr len : UInt32) :
    rawRangeAllowed c addr len = true ↔ 0 < len.toNat ∧ addr.toNat + len.toNat < UInt32.size ∧
      (∀ s < 8, rawSectorAllowed c (UInt8.ofNat s) = false →
        sectorEnd s ≤ addr.toNat ∨ addr.toNat + len.toNat ≤ sectorBase s) ∧
      sectorBase 0 ≤ addr.toNat ∧ addr.toNat + len.toNat ≤ sectorEnd 7 := by
  have haddr := addr.toNat_lt
  have hlen := len.toNat_lt
  have hend : sectorEnd 7 = 0x08080000 := rfl
  have hzero : len = 0 ↔ len.toNat = 0 := by rw [← UInt32.toNat_inj]; rfl
  by_cases hsum : addr.toNat + len.toNat < 4294967296
  · have hstop : (addr + len).toNat = addr.toNat + len.toNat := by
      rw [UInt32.toNat_add, Nat.mod_eq_of_lt hsum]
    have hwrap : ¬ addr + len < addr := by rw [UInt32.lt_iff_toNat_lt, hstop]; omega
    unfold rawRangeAllowed
    simp only [hwrap, if_false, hstop, hzero]
    by_cases hpos : len.toNat = 0
    · rw [if_pos hpos]
      exact iff_of_false (by simp) (by omega)
    · rw [if_neg hpos]
      have hany : ((List.range 8).any fun s =>
            decide (addr.toNat < sectorEnd s ∧ sectorBase s < addr.toNat + len.toNat) &&
              !rawSectorAllowed c (UInt8.ofNat s)) = true ↔
          ¬ ∀ s < 8, rawSectorAllowed c (UInt8.ofNat s) = false →
            sectorEnd s ≤ addr.toNat ∨ addr.toNat + len.toNat ≤ sectorBase s := by
        rw [List.any_eq_true]
        constructor
        · rintro ⟨s, hmem, hs⟩ hall
          rw [Bool.and_eq_true, decide_eq_true_eq, Bool.not_eq_true'] at hs
          have := hall s (List.mem_range.mp hmem) hs.2
          omega
        · intro hnot
          apply Decidable.byContradiction
          intro hnone
          refine hnot fun s hs hrefused => Decidable.byContradiction fun hover => hnone ?_
          exact ⟨s, List.mem_range.mpr hs, by simp [hrefused]; omega⟩
      by_cases hall : ∀ s < 8, rawSectorAllowed c (UInt8.ofNat s) = false →
          sectorEnd s ≤ addr.toNat ∨ addr.toNat + len.toNat ≤ sectorBase s
      · rw [if_neg (fun hc => hany.mp hc hall), decide_eq_true_eq]
        exact ⟨fun h => ⟨by omega, hsum, hall, h⟩, fun h => h.2.2.2⟩
      · rw [if_pos (hany.mpr hall)]
        exact iff_of_false (by simp) (fun h => hall h.2.2.1)
  · have hwrap : addr + len < addr := by
      rw [UInt32.lt_iff_toNat_lt, UInt32.toNat_add]
      omega
    refine iff_of_false ?_ (fun h => by omega)
    unfold rawRangeAllowed
    simp only [hwrap, if_true, ite_self]
    decide

/-- The check is exact: it accepts a range when a loader owns each of its bytes. -/
theorem rawRangeAllowed_iff (addr len : UInt32) :
    rawRangeAllowed c addr len = true ↔ 0 < len.toNat ∧
      ∀ x, addr.toNat ≤ x → x < addr.toNat + len.toNat → LoaderOwns c x := by
  have hsize : UInt32.size = 4294967296 := rfl
  have hbase : sectorBase 0 = 0x08000000 := rfl
  have hend : sectorEnd 7 = 0x08080000 := rfl
  rw [rawRangeAllowed_checks]
  constructor
  · rintro ⟨hpos, -, hclear, hlow, hhigh⟩
    refine ⟨hpos, fun x hx hx' => ⟨by omega, by omega, ?_, ?_, ?_, ?_⟩⟩
    · rintro ⟨hb, he⟩
      have := hclear 0 (by omega) rfl
      omega
    · rintro ⟨hb, he⟩
      have := hclear 1 (by omega) rfl
      omega
    · rintro ⟨hb, he⟩
      have := hclear c.primary c.primary_lt (rawSectorAllowed_kv c).1
      omega
    · rintro ⟨hb, he⟩
      have := hclear c.secondary c.secondary_lt (rawSectorAllowed_kv c).2
      omega
  · rintro ⟨hpos, howns⟩
    have hfirst := howns addr.toNat (by omega) (by omega)
    have hlast := howns (addr.toNat + len.toNat - 1) (by omega) (by omega)
    have hlow := hfirst.1
    have hhigh := hlast.2.1
    refine ⟨hpos, by omega, fun s hs hrefused => ?_, by omega, by omega⟩
    apply Decidable.byContradiction
    intro hover
    have hin := sectorBase_lt_sectorEnd hs
    -- the first byte that the range and the sector share
    have hshared := howns (max addr.toNat (sectorBase s)) (by omega) (by omega)
    exact hshared.not_refused hs hrefused ⟨by omega, by omega⟩

/-! ## What the calls do to the device -/

/-- The operation works on bytes of `region` only. -/
def FlashOp.Within (region : Nat → Prop) : FlashOp → Prop
  | .program addr _ _ => region addr ∧ region (addr + 1)
  | .erase start stop => ∀ x, start ≤ x → x < stop → region x

/-- Between the two states no byte outside `region` was worked on, nor left changed. -/
def WorksWithin (region : Nat → Prop) (dev dev' : FlashDev) : Prop :=
  ChangesWithin region dev.mem dev'.mem ∧
    ∃ ops, dev'.log = dev.log ++ ops ∧ ∀ op ∈ ops, op.Within region

variable {region : Nat → Prop} {dev dev₁ dev₂ : FlashDev}

theorem WorksWithin.refl (region : Nat → Prop) (dev : FlashDev) : WorksWithin region dev dev :=
  ⟨.refl _ _, [], (List.append_nil _).symm, by simp⟩

theorem WorksWithin.trans (h : WorksWithin region dev dev₁) (h' : WorksWithin region dev₁ dev₂) :
    WorksWithin region dev dev₂ := by
  obtain ⟨hmem, ops, hlog, hops⟩ := h
  obtain ⟨hmem', ops', hlog', hops'⟩ := h'
  refine ⟨hmem.trans hmem', ops ++ ops', by rw [hlog', hlog, List.append_assoc], ?_⟩
  intro op hop
  exact (List.mem_append.mp hop).elim (hops op) (hops' op)

theorem WorksWithin.mono {region' : Nat → Prop} (h : WorksWithin region dev dev₁)
    (hsub : ∀ x, region x → region' x) : WorksWithin region' dev dev₁ := by
  obtain ⟨hmem, ops, hlog, hops⟩ := h
  refine ⟨hmem.mono hsub, ops, hlog, fun op hop => ?_⟩
  have hin := hops op hop
  cases op with
  | program addr lo hi => exact ⟨hsub _ hin.1, hsub _ hin.2⟩
  | erase start stop => exact fun x hx hx' => hsub x (hin x hx hx')

theorem flashWait_works (dev : FlashDev) (a b : Nat) :
    WorksWithin (fun x => a ≤ x ∧ x < b) dev (flashWait dev a b).2 := by
  refine ⟨flashWait_within dev a b, [], ?_, by simp⟩
  rw [List.append_nil, flashWait]
  split <;> rfl

theorem flashWait_status (dev : FlashDev) (a b : Nat) :
    (flashWait dev a b).1 = .ok ∨ (flashWait dev a b).1 = .errTimeout := by
  rw [flashWait]
  split
  · exact Or.inl rfl
  · exact Or.inl rfl
  · exact Or.inr rfl

theorem flashProgramHalfWord_works (dev : FlashDev) (addr : Nat) (lo hi : UInt8) :
    WorksWithin (fun x => addr ≤ x ∧ x < addr + 2) dev (flashProgramHalfWord dev addr lo hi) := by
  refine ⟨changesWithin_overlay dev.mem addr [lo, hi], [_], rfl, ?_⟩
  intro op hop
  rw [List.mem_singleton.mp hop]
  exact ⟨by omega, by omega⟩

theorem flashEraseSector_works (dev : FlashDev) (start stop : Nat) :
    WorksWithin (fun x => start ≤ x ∧ x < stop) dev (flashEraseSector dev start stop) := by
  refine ⟨changesWithin_eraseRange dev.mem start stop, [_], rfl, ?_⟩
  intro op hop
  rw [List.mem_singleton.mp hop]
  exact fun x hx hx' => ⟨hx, hx'⟩

/-- One half-word and the wait for it. -/
theorem programWord_works (dev : FlashDev) (addr : Nat) (lo hi : UInt8) :
    WorksWithin (fun x => addr ≤ x ∧ x < addr + 2) dev
      (flashWait (flashProgramHalfWord dev addr lo hi) addr (addr + 2)).2 :=
  (flashProgramHalfWord_works dev addr lo hi).trans (flashWait_works _ _ _)

theorem rawProgramLoop_works (addr : Nat) (data : List UInt8) (dev : FlashDev) :
    WorksWithin (fun x => addr ≤ x ∧ x < addr + data.length) dev (rawProgramLoop addr data dev).2 := by
  fun_induction rawProgramLoop addr data dev with
  | case1 addr lo hi rest dev dev' hwait hback ih =>
    have hword := programWord_works dev addr lo hi
    rw [hwait] at hword
    simp only [List.length_cons]
    exact (hword.mono (by omega)).trans (ih.mono (by omega))
  | case2 addr lo hi rest dev dev' hwait hback =>
    have hword := programWord_works dev addr lo hi
    rw [hwait] at hword
    simp only [List.length_cons]
    exact hword.mono (by omega)
  | case3 addr lo hi rest dev =>
    simp only [List.length_cons]
    exact (programWord_works dev addr lo hi).mono (by omega)
  | case4 => exact .refl _ _

/-- A loop that ends well has read every byte back. -/
theorem rawProgramLoop_ok (addr : Nat) (data : List UInt8) (dev : FlashDev)
    (heven : data.length % 2 = 0) (hok : (rawProgramLoop addr data dev).1 = .ok) :
    ∀ i (hi : i < data.length), (rawProgramLoop addr data dev).2.mem (addr + i) = data[i] := by
  fun_induction rawProgramLoop addr data dev with
  | case1 addr lo hi rest dev dev' hwait hback ih =>
    intro i hi'
    have hrest := ih (by simp only [List.length_cons] at heven; omega) hok
    have hkept := (rawProgramLoop_works (addr + 2) rest dev').1
    rcases i with _ | _ | i
    · rw [hkept _ (by omega)]
      exact hback.1
    · rw [hkept _ (by omega)]
      exact hback.2
    · have hbyte := hrest i (by simp only [List.length_cons] at hi'; omega)
      rw [show addr + (i + 1 + 1) = addr + 2 + i by omega]
      exact hbyte
  | case2 => cases hok
  | case3 addr lo hi rest dev hfailed => exact (hfailed _ (Prod.ext hok rfl)).elim
  | case4 data addr dev hshort =>
    intro i hi
    rcases data with _ | ⟨lo, _ | ⟨hi', rest⟩⟩
    · cases hi
    · cases heven
    · exact (hshort lo hi' rest rfl).elim

theorem rawProgramLoop_status (addr : Nat) (data : List UInt8) (dev : FlashDev) :
    (rawProgramLoop addr data dev).1 = .ok ∨ (rawProgramLoop addr data dev).1 = .errIo ∨
      (rawProgramLoop addr data dev).1 = .errTimeout := by
  fun_induction rawProgramLoop addr data dev with
  | case1 addr lo hi rest dev dev' hwait hback ih => exact ih
  | case2 => exact Or.inr (Or.inl rfl)
  | case3 addr lo hi rest dev => exact (flashWait_status _ _ _).imp id Or.inr
  | case4 => exact Or.inl rfl

/-! ## The calls -/

theorem odd_iff (w : UInt32) : w &&& 1 ≠ 0 ↔ ¬ w.toNat % 2 = 0 := by
  rw [ne_eq, ← UInt32.toNat_inj, UInt32.toNat_and]
  exact not_congr (by rw [show (1 : UInt32).toNat = 1 by rfl, Nat.and_one_is_mod]; rfl)

theorem rawEraseSector_refused {sector : UInt8} (h : ¬ LoaderSector c sector.toNat)
    (ctrl : RawCtrl) : rawEraseSector c ctrl sector = (.errInvalidArg, ctrl) := by
  have hrefused := Bool.eq_false_iff.mpr (mt (rawSectorAllowed_iff (c := c) sector).mp h)
  rw [rawEraseSector, if_pos hrefused]

theorem rawProgram_refused {addr : UInt32} {data : Option (Nat → UInt8)} {len : UInt32}
    (h : ¬ ValidProgram c addr data len) (ctrl : RawCtrl) :
    rawProgram c ctrl addr data len = (.errInvalidArg, ctrl) := by
  cases data with
  | none => rfl
  | some src =>
    rw [rawProgram]
    split
    · rfl
    · next hodd =>
      rw [odd_iff, odd_iff] at hodd
      have hrefused : rawRangeAllowed c addr len = false := by
        refine Bool.eq_false_iff.mpr fun hallowed => h ?_
        obtain ⟨hpos, howns⟩ := (rawRangeAllowed_iff addr len).mp hallowed
        exact ⟨rfl, by omega, by omega, hpos, howns⟩
      rw [if_pos hrefused]

/-- A valid call of `hal_flash_raw_program` reaches the controller. -/
theorem rawProgram_valid {addr : UInt32} {src : Nat → UInt8} {len : UInt32}
    (h : ValidProgram c addr (some src) len) (ctrl : RawCtrl) :
    ((rawProgram c ctrl addr (some src) len).1, (rawProgram c ctrl addr (some src) len).2.dev) =
      match flashWait ctrl.dev 0 0 with
      | (.ok, dev) => rawProgramLoop addr.toNat (sourceBytes src len) dev
      | failed => failed := by
  obtain ⟨-, haddr, hlen, hpos, howns⟩ := h
  have hallowed := (rawRangeAllowed_iff addr len).mpr ⟨hpos, howns⟩
  rw [rawProgram_eq]
  unfold halFlashRawProgram
  have heven : ¬ (addr &&& 1 ≠ 0 ∨ len &&& 1 ≠ 0) := by
    rw [odd_iff, odd_iff]
    omega
  rcases flashWait ctrl.dev 0 0 with ⟨st, dev⟩
  cases st <;> simp only [sourceBytes_length, UInt32.ofNat_toNat, if_neg heven, hallowed,
    Bool.true_eq_false, if_false]

/-- What the range holds and what is left of the rest. -/
theorem rawProgram_works {addr : UInt32} {src : Nat → UInt8} {len : UInt32}
    (h : ValidProgram c addr (some src) len) (ctrl : RawCtrl) :
    WorksWithin (fun x => addr.toNat ≤ x ∧ x < addr.toNat + len.toNat) ctrl.dev
        (rawProgram c ctrl addr (some src) len).2.dev ∧
      ((rawProgram c ctrl addr (some src) len).1 = .ok →
        ∀ i < len.toNat, (rawProgram c ctrl addr (some src) len).2.dev.mem (addr.toNat + i) = src i) ∧
      ((rawProgram c ctrl addr (some src) len).1 = .ok ∨
        (rawProgram c ctrl addr (some src) len).1 = .errIo ∨
        (rawProgram c ctrl addr (some src) len).1 = .errTimeout) := by
  have hrun := rawProgram_valid h ctrl
  have hlen := sourceBytes_length src len
  have hidle := flashWait_works ctrl.dev 0 0
  have hstatus := flashWait_status ctrl.dev 0 0
  generalize rawProgram c ctrl addr (some src) len = result at hrun ⊢
  rcases hwait : flashWait ctrl.dev 0 0 with ⟨st, dev⟩
  rw [hwait] at hrun hidle hstatus
  have hnone : WorksWithin (fun x => addr.toNat ≤ x ∧ x < addr.toNat + len.toNat) ctrl.dev dev :=
    hidle.mono (by omega)
  rcases hstatus with hok | htimeout
  · cases hok
    have hloop := rawProgramLoop_works addr.toNat (sourceBytes src len) dev
    have hback := rawProgramLoop_ok addr.toNat (sourceBytes src len) dev (by rw [hlen]; exact h.2.2.1)
    have hst := rawProgramLoop_status addr.toNat (sourceBytes src len) dev
    simp only at hrun
    rw [← hrun] at hloop hback hst
    rw [hlen] at hloop
    refine ⟨hnone.trans hloop, fun hok i hi => ?_, hst⟩
    have hbyte := hback hok i (by rw [hlen]; exact hi)
    simpa [sourceBytes] using hbyte
  · cases htimeout
    simp only at hrun
    obtain ⟨hst, hdev⟩ := Prod.mk.inj hrun
    rw [hst, hdev]
    exact ⟨hnone, fun hok => (nomatch hok), Or.inr (Or.inr rfl)⟩

theorem rawEraseSector_works {sector : UInt8} (h : LoaderSector c sector.toNat) (ctrl : RawCtrl) :
    WorksWithin (fun x => InSector sector.toNat x) ctrl.dev (rawEraseSector c ctrl sector).2.dev ∧
      ((rawEraseSector c ctrl sector).1 = .ok ∨ (rawEraseSector c ctrl sector).1 = .errTimeout) := by
  have hrun := rawEraseSector_eq c ctrl sector
  have hidle := flashWait_works ctrl.dev 0 0
  have hstatus := flashWait_status ctrl.dev 0 0
  simp only [halFlashRawEraseSector] at hrun
  rw [(rawSectorAllowed_iff sector).mpr h, if_neg (by decide)] at hrun
  generalize rawEraseSector c ctrl sector = result at hrun ⊢
  rcases hwait : flashWait ctrl.dev 0 0 with ⟨st, dev⟩
  rw [hwait] at hrun hidle hstatus
  have hnone : WorksWithin (fun x => InSector sector.toNat x) ctrl.dev dev := hidle.mono (by omega)
  rcases hstatus with hok | htimeout
  · cases hok
    simp only at hrun
    have herase := (flashEraseSector_works dev (sectorBase sector.toNat) (sectorEnd sector.toNat)).trans
      (flashWait_works _ _ _)
    have hst := flashWait_status (flashEraseSector dev (sectorBase sector.toNat)
      (sectorEnd sector.toNat)) (sectorBase sector.toNat) (sectorEnd sector.toNat)
    rw [← hrun] at herase hst
    exact ⟨hnone.trans herase, hst⟩
  · cases htimeout
    simp only at hrun
    obtain ⟨hst, hdev⟩ := Prod.mk.inj hrun
    rw [hst, hdev]
    exact ⟨hnone, Or.inr rfl⟩

/-- For every sector, address, length and source: what a loader does not own is refused
before anything is touched, and what is accepted changes what a loader owns. -/
theorem rawCalls_ownership (c : KvSectors) (ctrl : RawCtrl) :
    (∀ sector : UInt8,
      (¬ LoaderSector c sector.toNat → rawEraseSector c ctrl sector = (.errInvalidArg, ctrl)) ∧
      (LoaderSector c sector.toNat → (rawEraseSector c ctrl sector).1 ≠ .errInvalidArg) ∧
      WorksWithin (LoaderOwns c) ctrl.dev (rawEraseSector c ctrl sector).2.dev) ∧
    ∀ (addr : UInt32) (data : Option (Nat → UInt8)) (len : UInt32),
      (¬ ValidProgram c addr data len →
        rawProgram c ctrl addr data len = (.errInvalidArg, ctrl)) ∧
      (ValidProgram c addr data len → (rawProgram c ctrl addr data len).1 = .ok ∨
        (rawProgram c ctrl addr data len).1 = .errIo ∨
        (rawProgram c ctrl addr data len).1 = .errTimeout) ∧
      WorksWithin (LoaderOwns c) ctrl.dev (rawProgram c ctrl addr data len).2.dev ∧
      WorksWithin (fun x => addr.toNat ≤ x ∧ x < addr.toNat + len.toNat) ctrl.dev
        (rawProgram c ctrl addr data len).2.dev ∧
      ((rawProgram c ctrl addr data len).1 = .ok → ∃ src, data = some src ∧
        ∀ i < len.toNat, (rawProgram c ctrl addr data len).2.dev.mem (addr.toNat + i) = src i) := by
  constructor
  · intro sector
    refine ⟨fun h => rawEraseSector_refused h ctrl, fun h => ?_, ?_⟩
    · rcases (rawEraseSector_works h ctrl).2 with hst | hst
      · simp [hst]
      · simp [hst]
    · by_cases h : LoaderSector c sector.toNat
      · exact (rawEraseSector_works h ctrl).1.mono fun x hx => h.owns hx
      · rw [rawEraseSector_refused h]
        exact .refl _ _
  · intro addr data len
    refine ⟨fun h => rawProgram_refused h ctrl, ?_⟩
    by_cases h : ValidProgram c addr data len
    · cases data with
      | none => cases h.1
      | some src =>
        obtain ⟨hworks, hok, hst⟩ := rawProgram_works h ctrl
        exact ⟨fun _ => hst, hworks.mono fun x hx => h.2.2.2.2 x hx.1 hx.2, hworks,
          fun hdone => ⟨src, rfl, hok hdone⟩⟩
    · rw [rawProgram_refused h]
      exact ⟨fun hc => absurd hc h, .refl _ _, .refl _ _, fun hc => (nomatch hc)⟩

end

end NavHAL.Flash
