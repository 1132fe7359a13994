import NavHAL.Avr.Eeprom
import NavHAL.Lib.LogMap

/-!
# The EEPROM store as a finite map

`Layout mem rs` says that the EEPROM holds the records `rs`, in order and followed by erased
bytes.  Under it the walks over the chain are functions of the list, and reading is looking
a key up in the log.
-/

namespace NavHAL.Avr

open Memory LogMap
open Flash (SavedValue emptyMap)

/-! ## Programs -/

theorem bind_apply {α β : Type} (p : Ee α) (f : α → Ee β) (mem : Mem) :
    (p >>= f) mem = (p mem).bind fun r => f r.1 r.2 := rfl

@[simp] theorem pure_apply {α : Type} (a : α) (mem : Mem) :
    (pure a : Ee α) mem = some (a, mem) := rfl

/-- One step of a program that has a result. -/
theorem bind_of {α β : Type} {p : Ee α} {f : α → Ee β} {mem mem' : Mem} {a : α}
    (h : p mem = some (a, mem')) : (p >>= f) mem = f a mem' := by
  rw [bind_apply, h]
  rfl

theorem eeGet_of_lt {off : Nat} {mem : Mem} (h : off < kvSize) :
    eeGet off mem = some (mem off, mem) := if_pos h

theorem eePut_of_lt {off : Nat} {mem : Mem} (h : off < kvSize) (val : UInt8) :
    eePut off val mem = some ((), Function.update mem off val) := if_pos h

theorem getBytes_of_le {mem : Mem} {off n : Nat} (h : off + n ≤ kvSize) :
    getBytes off n mem = some ((List.range n).map fun i => mem (off + i), mem) := by
  induction n generalizing off with
  | zero => rfl
  | succ n ih =>
    have hrest : (List.range (n + 1)).map (fun i => mem (off + i)) =
        mem off :: (List.range n).map fun i => mem (off + 1 + i) := by
      rw [List.range_succ_eq_map, List.map_cons, List.map_map]
      simp [Function.comp_def, Nat.add_assoc, Nat.add_comm 1]
    rw [getBytes, bind_of (eeGet_of_lt (by omega)), bind_of (ih (by omega)), hrest]
    rfl

theorem putBytes_of_le {mem : Mem} {off : Nat} {bytes : List UInt8}
    (h : off + bytes.length ≤ kvSize) : putBytes off bytes mem = some ((), write mem off bytes) := by
  induction bytes generalizing off mem with
  | nil =>
    rw [write_nil]
    rfl
  | cons b bytes ih =>
    rw [List.length_cons] at h
    rw [putBytes, bind_of (eePut_of_lt (by omega) b), ih (by omega), write_cons]

/-! ## Records -/

structure EeRecord where
  key : UInt8
  live : Bool
  value : List UInt8
  size_lt : value.length < 256

namespace EeRecord

def status (r : EeRecord) : UInt8 := if r.live then kvValid else kvDeleted

def header (r : EeRecord) : List UInt8 :=
  [kvMagic, r.key, UInt8.ofNat r.value.length, r.status, 0, kvCrc r.value]

/-- The bytes of a record as they lie in the EEPROM. -/
def encode (r : EeRecord) : List UInt8 := r.header ++ r.value

def deleted (r : EeRecord) : EeRecord := { r with live := false }

theorem encode_length (r : EeRecord) : r.encode.length = 6 + r.value.length := by
  simp [encode, header]
  omega

theorem size_toNat (r : EeRecord) : (UInt8.ofNat r.value.length).toNat = r.value.length := by
  rw [UInt8.toNat_ofNat']
  exact Nat.mod_eq_of_lt r.size_lt

theorem status_iff (r : EeRecord) : r.status = kvValid ↔ r.live = true := by
  unfold status
  cases r.live <;> decide

end EeRecord

/-- Records as entries of a log. -/
def recordSpec : EntrySpec EeRecord UInt8 (List UInt8) where
  key := EeRecord.key
  live := EeRecord.live
  value := fun r => some r.value
  kill := EeRecord.deleted
  live_kill := fun _ => rfl

def image (rs : List EeRecord) : List UInt8 := rs.flatMap EeRecord.encode

theorem image_append (rs ts : List EeRecord) : image (rs ++ ts) = image rs ++ image ts :=
  List.flatMap_append

@[simp] theorem image_nil : image [] = [] := rfl

theorem image_cons (r : EeRecord) (rs : List EeRecord) :
    image (r :: rs) = r.encode ++ image rs := List.flatMap_cons

theorem image_concat_length (rs : List EeRecord) (r : EeRecord) :
    (image (rs ++ [r])).length = (image rs).length + 6 + r.value.length := by
  rw [image_append, List.length_append, image_cons, List.length_append, r.encode_length]
  simp [image]
  omega

theorem length_le_image (rs : List EeRecord) : 6 * rs.length ≤ (image rs).length := by
  induction rs with
  | nil => exact Nat.le_refl _
  | cons r rs ih =>
    rw [image_cons, List.length_append, r.encode_length, List.length_cons]
    omega

/-! ## The layout -/

structure Layout (mem : Mem) (rs : List EeRecord) : Prop where
  shows : Shows mem 0 kvSize (image rs)
  fits : (image rs).length ≤ kvSize

section

variable {mem : Mem} {rs : List EeRecord} (h : Layout mem rs)

include h

theorem Layout.fuel_lt : rs.length < kvFuel := by
  have hcount := length_le_image rs
  have hfits := h.fits
  have hfuel : kvFuel = 171 := rfl
  have hsize : kvSize = 1024 := rfl
  omega

theorem Layout.record_fits {pre post : List EeRecord} {r : EeRecord}
    (hsplit : rs = pre ++ r :: post) : (image pre).length + 6 + r.value.length ≤ kvSize := by
  have hfits := h.fits
  rw [hsplit, image_append, image_cons, List.length_append, List.length_append,
    r.encode_length] at hfits
  omega

/-- A byte of a record. -/
theorem Layout.byte {pre post : List EeRecord} {r : EeRecord} (hsplit : rs = pre ++ r :: post)
    {i : Nat} (hi : i < 6 + r.value.length) :
    mem ((image pre).length + i) = byteAt r.encode i := by
  have hfits := h.record_fits hsplit
  have hshows := h.shows
  rw [hsplit, image_append, image_cons, ← List.append_assoc] at hshows
  have hlen : i < r.encode.length := by
    rw [r.encode_length]
    exact hi
  have hread := hshows.read hlen (by omega)
  rw [byteAt_of_lt hlen, ← hread, Nat.zero_add]

/-- Behind the records no magic stands. -/
theorem Layout.stop (hlt : (image rs).length < kvSize) : mem (image rs).length ≠ kvMagic := by
  have hread := h.shows.read_erased (Nat.le_refl _) hlt
  rw [Nat.zero_add] at hread
  rw [hread]
  decide

/-! ### The walks -/

theorem kvEndFrom_layout (post pre : List EeRecord) (fuel : Nat) (hsplit : rs = pre ++ post)
    (hfuel : post.length < fuel) :
    kvEndFrom fuel (image pre).length mem = some ((image rs).length, mem) := by
  induction post generalizing pre fuel with
  | nil =>
    obtain ⟨fuel, rfl⟩ : ∃ f, fuel = f + 1 := ⟨fuel - 1, by omega⟩
    rw [List.append_nil] at hsplit
    subst hsplit
    rw [kvEndFrom]
    split
    · rename_i hroom
      have hlt : (image rs).length < kvSize := by
        unfold kvHdr at hroom
        omega
      rw [bind_of (eeGet_of_lt hlt), if_pos (h.stop hlt)]
      rfl
    · rfl
  | cons r post ih =>
    obtain ⟨fuel, rfl⟩ : ∃ f, fuel = f + 1 := ⟨fuel - 1, by omega⟩
    have hfits := h.record_fits hsplit
    have hmagic : mem (image pre).length = kvMagic := h.byte hsplit (i := 0) (by omega)
    have hsize : mem ((image pre).length + 2) = UInt8.ofNat r.value.length :=
      h.byte hsplit (i := 2) (by omega)
    have hnext : (image pre).length + kvHdr + (UInt8.ofNat r.value.length).toNat =
        (image (pre ++ [r])).length := by
      rw [r.size_toNat, image_concat_length]
      rfl
    rw [kvEndFrom, if_pos (by unfold kvHdr; omega), bind_of (eeGet_of_lt (by omega)), hmagic,
      if_neg (not_not.mpr rfl), bind_of (eeGet_of_lt (by omega)), hsize, hnext]
    exact ih (pre ++ [r]) fuel (by simp [hsplit]) (by simpa using hfuel)

theorem kvEnd_layout : kvEnd mem = some ((image rs).length, mem) :=
  kvEndFrom_layout h rs [] kvFuel rfl h.fuel_lt

/-- At a record the search ends or goes on behind it. -/
theorem kvFindFrom_record {pre post : List EeRecord} {r : EeRecord} (hsplit : rs = pre ++ r :: post)
    (key : UInt8) (fuel : Nat) :
    kvFindFrom key kvValid (fuel + 1) (image pre).length mem =
      if Owns recordSpec key r then some (some (image pre).length, mem)
      else kvFindFrom key kvValid fuel (image (pre ++ [r])).length mem := by
  have hfits := h.record_fits hsplit
  have hmagic : mem (image pre).length = kvMagic := h.byte hsplit (i := 0) (by omega)
  have hkey : mem ((image pre).length + 1) = r.key := h.byte hsplit (i := 1) (by omega)
  have hsize : mem ((image pre).length + 2) = UInt8.ofNat r.value.length :=
    h.byte hsplit (i := 2) (by omega)
  have hstatus : mem ((image pre).length + 3) = r.status := h.byte hsplit (i := 3) (by omega)
  have hnext : (image pre).length + kvHdr + (UInt8.ofNat r.value.length).toNat =
      (image (pre ++ [r])).length := by
    rw [r.size_toNat, image_concat_length]
    rfl
  have hhit : kvHit key kvValid (image pre).length mem = some (Owns recordSpec key r, mem) := by
    unfold kvHit
    rw [bind_of (eeGet_of_lt (by omega)), hkey]
    by_cases hk : r.key = key
    · rw [if_pos hk, bind_of (eeGet_of_lt (by omega)), pure_apply, hstatus]
      simp [Owns, recordSpec, hk, r.status_iff]
    · rw [if_neg hk, pure_apply]
      simp [Owns, recordSpec, hk]
  rw [kvFindFrom, if_pos (by unfold kvHdr; omega), bind_of (eeGet_of_lt (by omega)), hmagic,
    if_neg (not_not.mpr rfl), bind_of hhit]
  by_cases hown : Owns recordSpec key r = true
  · rw [if_pos hown, if_pos hown]
    rfl
  · rw [if_neg hown, if_neg hown, bind_of (eeGet_of_lt (by omega)), hsize, hnext]

/-- Behind the records it finds nothing. -/
theorem kvFindFrom_end (key : UInt8) (fuel : Nat) :
    kvFindFrom key kvValid (fuel + 1) (image rs).length mem = some (none, mem) := by
  rw [kvFindFrom]
  split
  · rename_i hroom
    have hlt : (image rs).length < kvSize := by
      unfold kvHdr at hroom
      omega
    rw [bind_of (eeGet_of_lt hlt), if_pos (h.stop hlt)]
    rfl
  · rfl

/-- The search passes over records that do not own the key. -/
theorem kvFindFrom_skip {key : UInt8} (mid : List EeRecord) (pre post : List EeRecord) (fuel : Nat)
    (hsplit : rs = pre ++ mid ++ post) (hnone : owner recordSpec mid key = none) :
    kvFindFrom key kvValid (fuel + mid.length) (image pre).length mem =
      kvFindFrom key kvValid fuel (image (pre ++ mid)).length mem := by
  induction mid generalizing pre with
  | nil => simp
  | cons r mid ih =>
    have hsplit' : rs = pre ++ r :: (mid ++ post) := by simp [hsplit]
    rw [owner_cons] at hnone
    by_cases hown : Owns recordSpec key r = true
    · rw [if_pos hown] at hnone
      contradiction
    · rw [if_neg hown] at hnone
      have hrest := ih (pre ++ [r]) (by simp [hsplit]) hnone
      rw [List.append_assoc, List.singleton_append] at hrest
      rw [List.length_cons, ← Nat.add_assoc, kvFindFrom_record h hsplit', if_neg hown]
      exact hrest

theorem kvFind_none {key : UInt8} (hnone : owner recordSpec rs key = none) :
    kvFind key kvValid mem = some (none, mem) := by
  have hlt := h.fuel_lt
  obtain ⟨fuel, hfuel⟩ : ∃ f, kvFuel = f + 1 + rs.length := ⟨kvFuel - 1 - rs.length, by omega⟩
  have hskip := kvFindFrom_skip h rs [] [] (fuel + 1) (by simp) hnone
  unfold kvFind
  rw [hfuel]
  exact hskip.trans (kvFindFrom_end h key fuel)

theorem kvFind_some {key : UInt8} {pre post : List EeRecord} {r : EeRecord}
    (hsplit : rs = pre ++ r :: post) (hpre : owner recordSpec pre key = none)
    (hown : Owns recordSpec key r = true) :
    kvFind key kvValid mem = some (some (image pre).length, mem) := by
  have hlt := h.fuel_lt
  have hlen : pre.length < rs.length := by simp [hsplit]
  obtain ⟨fuel, hfuel⟩ : ∃ f, kvFuel = f + 1 + pre.length := ⟨kvFuel - 1 - pre.length, by omega⟩
  have hskip := kvFindFrom_skip h pre [] (r :: post) (fuel + 1) (by simp [hsplit]) hpre
  unfold kvFind
  rw [hfuel]
  refine hskip.trans ?_
  rw [List.nil_append, kvFindFrom_record h hsplit, if_pos hown]

/-! ### Reading -/

theorem read_none {key : UInt8} (hnone : owner recordSpec rs key = none) :
    halFlashRead key mem = some (⟨.err, none⟩, mem) := by
  unfold halFlashRead avrFlashRead
  rw [bind_of (kvFind_none h hnone)]
  rfl

theorem read_some {key : UInt8} {r : EeRecord} (howner : owner recordSpec rs key = some r) :
    halFlashRead key mem =
      some (⟨.ok, some (UInt8.ofNat r.value.length, r.value)⟩, mem) := by
  obtain ⟨pre, post, hsplit, hlive, hkey, hpre⟩ := owner_split howner
  have hfits := h.record_fits hsplit
  have hsize : mem ((image pre).length + 2) = UInt8.ofNat r.value.length :=
    h.byte hsplit (i := 2) (by omega)
  have hcrc : mem ((image pre).length + 5) = kvCrc r.value := h.byte hsplit (i := 5) (by omega)
  have hvalue : (List.range r.value.length).map
      (fun i => mem ((image pre).length + kvHdr + i)) = r.value := by
    apply List.ext_getElem (by simp)
    intro i hi hi'
    rw [List.getElem_map, List.getElem_range, Nat.add_assoc, h.byte hsplit (by unfold kvHdr; omega)]
    have hlen : r.header.length = kvHdr := rfl
    rw [EeRecord.encode, byteAt_append_right _ _ (by omega), hlen, Nat.add_sub_cancel_left,
      byteAt_of_lt hi']
  have hbytes := @getBytes_of_le mem ((image pre).length + kvHdr) r.value.length
    (by unfold kvHdr; omega)
  rw [hvalue] at hbytes
  unfold halFlashRead avrFlashRead
  rw [bind_of (kvFind_some h hsplit hpre (owns_iff.mpr ⟨hlive, hkey⟩))]
  dsimp only
  rw [bind_of (eeGet_of_lt (by omega)), bind_of (eeGet_of_lt (by omega)), hsize, hcrc,
    r.size_toNat, bind_of hbytes, if_pos rfl]
  rfl

/-- **Reading is looking the key up in the log.** -/
theorem readsAs_layout : ReadsAs mem (lookup recordSpec rs) := by
  intro key
  unfold lookup
  cases howner : owner recordSpec rs key with
  | none => exact ⟨_, mem, read_none h howner, HalStatus.noConfusion⟩
  | some r => exact ⟨_, mem, read_some h howner, rfl, rfl⟩

end

/-! ## Writing -/

theorem encode_split (r : EeRecord) : r.encode =
    [kvMagic, r.key, UInt8.ofNat r.value.length] ++ r.status :: ([0, kvCrc r.value] ++ r.value) :=
  rfl

theorem encode_deleted (r : EeRecord) : r.deleted.encode =
    [kvMagic, r.key, UInt8.ofNat r.value.length] ++ kvDeleted :: ([0, kvCrc r.value] ++ r.value) :=
  rfl

theorem Layout.deleted {mem : Mem} {pre post : List EeRecord} {r : EeRecord}
    (h : Layout mem (pre ++ r :: post)) :
    Layout (Function.update mem ((image pre).length + 3) kvDeleted) (pre ++ r.deleted :: post) where
  shows := by
    have hshows := h.shows
    rw [image_append, image_cons, encode_split, List.append_assoc, ← List.append_assoc,
      List.cons_append] at hshows
    have hnew := hshows.replace kvDeleted
    rw [image_append, image_cons, encode_deleted, List.append_assoc, ← List.append_assoc,
      List.cons_append]
    rw [List.length_append, Nat.zero_add] at hnew
    exact hnew
  fits := by
    have hfits := h.fits
    rw [image_append, image_cons, List.length_append, List.length_append, EeRecord.encode_length]
      at hfits ⊢
    exact hfits

theorem Layout.appended {mem : Mem} {rs : List EeRecord} (h : Layout mem rs) (r : EeRecord)
    (hroom : (image rs).length + 6 + r.value.length ≤ kvSize) :
    Layout (write mem (image rs).length r.encode) (rs ++ [r]) where
  shows := by
    have hnew := h.shows.write_end r.encode
    rw [Nat.zero_add] at hnew
    rw [image_append, image_cons, image_nil, List.append_nil]
    exact hnew
  fits := by
    rw [image_concat_length]
    exact hroom

theorem image_killOwner_length (key : UInt8) (rs : List EeRecord) :
    (image (killOwner recordSpec key rs)).length = (image rs).length := by
  induction rs with
  | nil => rfl
  | cons r rs ih =>
    rw [killOwner]
    split
    · rw [image_cons, image_cons, List.length_append, List.length_append, EeRecord.encode_length,
        EeRecord.encode_length]
      rfl
    · rw [image_cons, image_cons, List.length_append, List.length_append, ih]

theorem erase_layout (mem : Mem) :
    ∃ mem', halFlashErase mem = some (.ok, mem') ∧ Layout mem' [] := by
  have hlen : 0 + (List.replicate kvSize (0xFF : UInt8)).length ≤ kvSize :=
    Nat.le_of_eq (by rw [List.length_replicate, Nat.zero_add])
  refine ⟨write mem 0 (List.replicate kvSize 0xFF), ?_, ?_, Nat.zero_le _⟩
  · unfold halFlashErase avrFlashErase
    rw [bind_of (putBytes_of_le hlen)]
    rfl
  · intro i hi
    rw [write, if_pos (by rw [List.length_replicate]; omega), image_nil, byteAt_nil]
    rw [byteAt_of_lt (by rw [List.length_replicate]; omega), List.getElem_replicate]

/-- The writes of a save are the bytes of its record. -/
theorem put_record {mem : Mem} {off : Nat} (r : EeRecord) (hlive : r.live = true)
    (hroom : off + 6 + r.value.length ≤ kvSize) :
    (do
      eePut off kvMagic
      eePut (off + 1) r.key
      eePut (off + 2) (UInt8.ofNat r.value.length)
      eePut (off + 3) kvValid
      eePut (off + 4) 0
      eePut (off + 5) (kvCrc r.value)
      putBytes (off + kvHdr) r.value
      pure HalStatus.ok : Ee HalStatus) mem = some (.ok, write mem off r.encode) := by
  have hbytes : r.encode = kvMagic :: r.key :: UInt8.ofNat r.value.length :: kvValid :: 0 ::
      kvCrc r.value :: r.value := by
    rw [encode_split, r.status_iff.mpr hlive]
    rfl
  have hvalue : off + kvHdr + r.value.length ≤ kvSize := hroom
  rw [bind_of (eePut_of_lt (by omega) _), bind_of (eePut_of_lt (by omega) _),
    bind_of (eePut_of_lt (by omega) _), bind_of (eePut_of_lt (by omega) _),
    bind_of (eePut_of_lt (by omega) _), bind_of (eePut_of_lt (by omega) _),
    bind_of (putBytes_of_le hvalue), hbytes]
  simp only [write_cons]
  rfl

section

variable {mem : Mem} {rs : List EeRecord} (h : Layout mem rs) (key : UInt8)

include h

/-- The record of a key, if it has one, is marked deleted. -/
theorem supersede_layout : ∃ old mem', kvFind key kvValid mem = some (old, mem) ∧
    (old = none ↔ owner recordSpec rs key = none) ∧ supersede old mem = some ((), mem') ∧
    (old = none → mem' = mem) ∧ Layout mem' (killOwner recordSpec key rs) := by
  cases howner : owner recordSpec rs key with
  | none =>
    refine ⟨none, mem, kvFind_none h howner, iff_of_true rfl rfl, rfl, fun _ => rfl, ?_⟩
    rw [killOwner_of_none howner]
    exact h
  | some r =>
    obtain ⟨pre, post, rfl, hlive, hkey, hpre⟩ := owner_split howner
    have hown : Owns recordSpec key r = true := owns_iff.mpr ⟨hlive, hkey⟩
    have hfits := h.record_fits rfl
    refine ⟨_, _, kvFind_some h rfl hpre hown, by simp, eePut_of_lt (by omega) _, by simp, ?_⟩
    rw [killOwner_split hpre hown]
    exact h.deleted

theorem delete_layout : ∃ status mem', halFlashDelete key mem = some (status, mem') ∧
    (status = .err ∧ mem' = mem ∧ owner recordSpec rs key = none ∨
      status = .ok ∧ Layout mem' (killOwner recordSpec key rs)) := by
  obtain ⟨old, mem', hfind, hiff, hput, -, hlayout⟩ := supersede_layout h key
  cases old with
  | none =>
    refine ⟨.err, mem, ?_, Or.inl ⟨rfl, rfl, hiff.mp rfl⟩⟩
    unfold halFlashDelete avrFlashDelete
    rw [bind_of hfind]
    rfl
  | some old =>
    refine ⟨.ok, mem', ?_, Or.inr ⟨rfl, hlayout⟩⟩
    unfold halFlashDelete avrFlashDelete
    rw [bind_of hfind]
    exact bind_of hput

theorem save_layout (value : SavedValue) :
    ∃ mem1, Layout mem1 (killOwner recordSpec key rs) ∧
      (owner recordSpec rs key = none → mem1 = mem) ∧
      halFlashSave key value.bytes (UInt8.ofNat value.bytes.length) mem =
        if (image rs).length + kvHdr + value.bytes.length > kvSize then some (.err, mem1)
        else some (.ok, write mem1 (image rs).length
          (EeRecord.mk key true value.bytes value.size_lt).encode) := by
  obtain ⟨old, mem1, hfind, hiff, hput, hsame, hlayout⟩ := supersede_layout h key
  have hsize : (UInt8.ofNat value.bytes.length).toNat = value.bytes.length := by
    rw [UInt8.toNat_ofNat']
    exact Nat.mod_eq_of_lt value.size_lt
  have hnonzero : UInt8.ofNat value.bytes.length ≠ 0 := by
    intro hzero
    rw [hzero] at hsize
    exact absurd hsize (Nat.ne_of_lt value.size_pos)
  have hend := kvEnd_layout hlayout
  rw [image_killOwner_length] at hend
  refine ⟨mem1, hlayout, fun hnone => hsame (hiff.mpr hnone), ?_⟩
  unfold halFlashSave avrFlashSave
  rw [if_neg hnonzero, bind_of hfind, bind_of hput, bind_of hend, hsize, List.take_length]
  split
  · rfl
  · rename_i hroom
    exact put_record (EeRecord.mk key true value.bytes value.size_lt) rfl (Nat.not_lt.mp hroom)

end

/-! ## Runs -/

/-- The EEPROM is a chain of records that hold the map. -/
def Inv (w : World) : Prop :=
  ∃ rs, Layout w.mem rs ∧ Uniq recordSpec rs ∧ w.map = lookup recordSpec rs

/-- A call after which the EEPROM holds the map that it should. -/
theorem right_of_layout {w : World} {call : EeCall} {status : HalStatus} {mem : Mem}
    {rs : List EeRecord} (hcall : eeCall call w.mem = some (status, mem)) (hlayout : Layout mem rs)
    (huniq : Uniq recordSpec rs) (hmap : mapStep w.map call status = lookup recordSpec rs)
    (hsame : status ≠ .ok → mem = w.mem) : Right w call ∧ Inv (step w call) := by
  constructor
  · refine ⟨status, mem, hcall, ?_, ?_⟩
    · rw [hmap]
      exact readsAs_layout hlayout
    · intro herr key
      rw [hsame herr]
  · unfold step
    rw [hcall]
    exact ⟨rs, hlayout, huniq, hmap⟩

theorem right_read {w : World} (hinv : Inv w) (key : UInt8) :
    Right w (.read key) ∧ Inv (step w (.read key)) := by
  obtain ⟨rs, hlayout, huniq, hmap⟩ := hinv
  obtain ⟨out, mem', hread, -⟩ := readsAs_layout hlayout key
  have hmem : mem' = w.mem := by
    cases howner : owner recordSpec rs key with
    | none =>
      rw [read_none hlayout howner] at hread
      cases hread
      rfl
    | some r =>
      rw [read_some hlayout howner] at hread
      cases hread
      rfl
  rw [hmem] at hread
  have hcall : eeCall (.read key) w.mem = some (out.status, w.mem) := by
    unfold eeCall
    exact bind_of hread
  exact right_of_layout hcall hlayout huniq hmap fun _ => rfl

theorem right_delete {w : World} (hinv : Inv w) (key : UInt8) :
    Right w (.delete key) ∧ Inv (step w (.delete key)) := by
  obtain ⟨rs, hlayout, huniq, hmap⟩ := hinv
  obtain ⟨status, mem', hcall, hcases⟩ := delete_layout hlayout key
  have hlookup : mapStep w.map (.delete key) status = lookup recordSpec (killOwner recordSpec key rs) := by
    rw [lookup_killOwner huniq, ← hmap]
    rfl
  rcases hcases with ⟨-, hmem, howner⟩ | ⟨hok, hlayout'⟩
  · rw [killOwner_of_none howner] at hlookup
    rw [hmem] at hcall
    exact right_of_layout hcall hlayout huniq hlookup fun _ => rfl
  · exact right_of_layout hcall hlayout' (huniq.killOwner key) hlookup fun herr => absurd hok herr

theorem right_erase (w : World) : Right w .erase ∧ Inv (step w .erase) := by
  obtain ⟨mem', hcall, hlayout⟩ := erase_layout w.mem
  exact @right_of_layout w .erase _ _ _ hcall hlayout uniq_nil rfl fun herr => absurd rfl herr

theorem hasRoom_save_iff {w : World} {rs : List EeRecord} (hlayout : Layout w.mem rs) (key : UInt8)
    (value : SavedValue) : HasRoom w (.save key value) ↔ owner recordSpec rs key = none ∨
      (image rs).length + kvHdr + value.bytes.length ≤ kvSize := by
  obtain ⟨old, mem1, hfind, hiff, -⟩ := supersede_layout hlayout key
  have hend := kvEnd_layout hlayout
  constructor
  · intro hroom
    cases old with
    | none => exact Or.inl (hiff.mp rfl)
    | some old =>
      obtain ⟨off, hoff, hle⟩ := hroom old hfind
      rw [hend] at hoff
      cases hoff
      exact Or.inr hle
  · rintro (hnone | hle) old' hold
    · rw [hfind, hiff.mpr hnone] at hold
      cases hold
    · exact ⟨_, hend, hle⟩

theorem right_save {w : World} (hinv : Inv w) {key : UInt8} {value : SavedValue}
    (hroom : HasRoom w (.save key value)) :
    Right w (.save key value) ∧ Inv (step w (.save key value)) := by
  obtain ⟨rs, hlayout, huniq, hmap⟩ := hinv
  obtain ⟨mem1, hlayout1, hsame, hcall⟩ := save_layout hlayout key value
  by_cases hfull : (image rs).length + kvHdr + value.bytes.length > kvSize
  · have hnone : owner recordSpec rs key = none :=
      ((hasRoom_save_iff hlayout key value).mp hroom).resolve_right (Nat.not_le.mpr hfull)
    rw [if_pos hfull, hsame hnone] at hcall
    exact @right_of_layout w (.save key value) _ _ _ hcall hlayout huniq hmap fun _ => rfl
  · rw [if_neg hfull] at hcall
    have hfresh : owner recordSpec (killOwner recordSpec key rs) key = none := by
      rw [owner_killOwner huniq, if_pos rfl]
    have hlayout2 := hlayout1.appended (EeRecord.mk key true value.bytes value.size_lt)
      (by rw [image_killOwner_length]; exact Nat.not_lt.mp hfull)
    rw [image_killOwner_length] at hlayout2
    have huniq2 := (huniq.killOwner key).append_live
      (show owner recordSpec _ (recordSpec.key ⟨key, true, value.bytes, value.size_lt⟩) = none from hfresh)
    have hlookup : mapStep w.map (.save key value) .ok = lookup recordSpec
        (killOwner recordSpec key rs ++ [⟨key, true, value.bytes, value.size_lt⟩]) := by
      rw [lookup_append_live rfl hfresh, lookup_killOwner huniq, ← hmap]
      funext k
      by_cases hk : k = key
      · subst hk
        simp [mapStep, recordSpec]
      · simp [mapStep, recordSpec, Function.update_of_ne hk]
    exact @right_of_layout w (.save key value) _ _ _ hcall hlayout2 huniq2 hlookup
      fun herr => absurd rfl herr

theorem right_step {w : World} {call : EeCall} (hinv : Inv w) (hroom : HasRoom w call) :
    Right w call ∧ Inv (step w call) := by
  cases call with
  | save key value => exact right_save hinv hroom
  | read key => exact right_read hinv key
  | delete key => exact right_delete hinv key
  | erase => exact right_erase w

/-- Without room the superseded value is gone, although it is the last one saved. -/
theorem hasRoom_of_right {w : World} {call : EeCall} (hinv : Inv w) (hright : Right w call) :
    HasRoom w call := by
  cases call with
  | save key value =>
    obtain ⟨rs, hlayout, huniq, hmap⟩ := hinv
    obtain ⟨mem1, hlayout1, -, hcall⟩ := save_layout hlayout key value
    rw [hasRoom_save_iff hlayout]
    by_contra hlost
    obtain ⟨howner, hfull⟩ := not_or.mp hlost
    rw [if_pos (Nat.not_le.mp hfull)] at hcall
    obtain ⟨r, hr⟩ := Option.ne_none_iff_exists'.mp howner
    have hvalue : w.map key = some r.value := by
      rw [hmap, lookup, hr]
      rfl
    have hfresh : owner recordSpec (killOwner recordSpec key rs) key = none := by
      rw [owner_killOwner huniq, if_pos rfl]
    obtain ⟨status, mem', hcall', hreads, -⟩ := hright
    have hsame : some (status, mem') = some (HalStatus.err, mem1) := hcall'.symm.trans hcall
    cases hsame
    have hread := hreads key
    rw [show mapStep w.map (.save key value) .err = w.map from rfl, hvalue] at hread
    obtain ⟨out, mem2, hout, hok, -⟩ := hread
    rw [read_none hlayout1 hfresh] at hout
    cases hout
    contradiction
  | read key => trivial
  | delete key => trivial
  | erase => trivial

/-- **The store is a finite map just as long as no save supersedes a record without room for
the new one.** -/
theorem eeprom_map_iff (mem : Mem) (calls : List EeCall) (herased : Shows mem 0 kvSize []) :
    ReadsAs mem emptyMap ∧
      (Steps.Each step Right ⟨mem, emptyMap⟩ calls ↔
        Steps.Each step HasRoom ⟨mem, emptyMap⟩ calls) := by
  have hlayout : Layout mem [] := ⟨herased, Nat.zero_le _⟩
  have hinv : Inv ⟨mem, emptyMap⟩ := ⟨[], hlayout, uniq_nil, rfl⟩
  have hiff : ∀ w call, Inv w → (Right w call ↔ HasRoom w call) :=
    fun w call hw => ⟨hasRoom_of_right hw, fun hroom => (right_step hw hroom).1⟩
  have hkeep : ∀ w call, Inv w → Right w call → Inv (step w call) :=
    fun w call hw hright => (right_step hw (hasRoom_of_right hw hright)).2
  exact ⟨readsAs_layout hlayout, Steps.each_congr_of hiff hkeep calls hinv⟩

def blank : Mem := fun _ => 0xFF

def zeroes255 : SavedValue where
  bytes := List.replicate 255 0
  size_pos := by rw [List.length_replicate]; decide
  size_le := Nat.le_of_eq List.length_replicate

theorem blank_runs :
    ReadsAs blank emptyMap ∧
      Steps.Each step Right ⟨blank, emptyMap⟩
        [.save 7 zeroes255, .delete 7, .read 7, .erase] := by
  obtain ⟨hreads, hruns⟩ := eeprom_map_iff blank [.save 7 zeroes255, .delete 7, .read 7, .erase]
    fun _ _ => rfl
  have hlayout : Layout blank [] := ⟨fun _ _ => rfl, Nat.zero_le _⟩
  have hroom : HasRoom ⟨blank, emptyMap⟩ (.save 7 zeroes255) :=
    (hasRoom_save_iff hlayout 7 zeroes255).mpr (Or.inl rfl)
  exact ⟨hreads, hruns.mpr ⟨hroom, trivial, trivial, trivial, trivial⟩⟩

def threeSaves : List EeCall := List.replicate 3 (.save 1 zeroes255)

/-- The fourth save of 255 bytes finds no room, and the third value is lost with it. -/
theorem full_store_loses_value :
    ¬ Steps.Each step Right ⟨blank, emptyMap⟩ (threeSaves ++ [.save 1 zeroes255]) := by
  intro hall
  have hright := hall.last
  have hrun : ((eeCall (.save 1 zeroes255) (Steps.run step ⟨blank, emptyMap⟩ threeSaves).mem).map
      fun r => (r.1, (halFlashRead 1 r.2).map fun out => out.1.status)) = some (.err, some .err) := by
    decide +kernel
  have hmap : ((Steps.run step ⟨blank, emptyMap⟩ threeSaves).map 1).isSome = true := by
    decide +kernel
  generalize Steps.run step ⟨blank, emptyMap⟩ threeSaves = w at hright hrun hmap
  obtain ⟨bytes, hbytes⟩ := Option.isSome_iff_exists.mp hmap
  obtain ⟨status, mem, hcall, hreads, -⟩ := hright
  rw [hcall] at hrun
  obtain ⟨rfl, hread⟩ : status = .err ∧
      (halFlashRead 1 mem).map (fun out => out.1.status) = some .err := by simpa using hrun
  obtain ⟨out, mem', hout, hmatch⟩ := hreads 1
  rw [show mapStep w.map (.save 1 zeroes255) .err = w.map from rfl, hbytes] at hmatch
  rw [hout] at hread
  have herr : out.status = .err := by simpa using hread
  rw [hmatch.1] at herr
  exact HalStatus.noConfusion herr

end NavHAL.Avr
