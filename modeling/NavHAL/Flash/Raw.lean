import NavHAL.Flash.Device

/-!
# Raw partition access (`flash.c`)

What a loader erases and programs with.  Unlike the key/value paths these
functions look at every `_flash_wait_` and read each half-word back.

* `halFlashRawEraseSector_within`, `halFlashRawProgram_within` : only the
  sector erased, or the range programmed, changes;
* `halFlashRawEraseSector_outside`, `halFlashRawProgram_outside` : the two
  sectors of the key/value store keep their bytes.
-/

namespace NavHAL.Flash

open Memory

/-! ## What a loader may touch -/

/-- `_raw_sector_allowed` -/
def rawSectorAllowed (c : KvSectors) (sector : UInt8) : Bool :=
  if 7 < sector then false
  else if sector ≤ 1 then false
  else if sector.toNat = c.primary ∨ sector.toNat = c.secondary then false
  else true

/-- `_raw_range_allowed` -/
def rawRangeAllowed (c : KvSectors) (addr len : UInt32) : Bool :=
  let stop := addr + len
  if len = 0 then false
  else if stop < addr then false
  else if (List.range 8).any fun s =>
      decide (addr.toNat < sectorEnd s ∧ sectorBase s < stop.toNat) &&
        !rawSectorAllowed c (UInt8.ofNat s) then false
  else decide (sectorBase 0 ≤ addr.toNat ∧ stop.toNat ≤ sectorEnd 7)

theorem rawSectorAllowed_lt {c : KvSectors} {sector : UInt8}
    (h : rawSectorAllowed c sector = true) : sector.toNat < 8 := by
  unfold rawSectorAllowed at h
  split at h
  · cases h
  · next hle =>
    rw [UInt8.lt_iff_toNat_lt] at hle
    exact Nat.lt_succ_of_le (Nat.le_of_not_lt hle)

theorem rawSectorAllowed_kv (c : KvSectors) :
    rawSectorAllowed c (UInt8.ofNat c.primary) = false ∧
      rawSectorAllowed c (UInt8.ofNat c.secondary) = false := by
  have hsmall : ∀ n, n < 8 → (UInt8.ofNat n).toNat = n := by
    intro n hn
    rw [UInt8.toNat_ofNat']
    omega
  constructor
  · simp [rawSectorAllowed, hsmall _ c.primary_lt]
  · simp [rawSectorAllowed, hsmall _ c.secondary_lt]

/-- An allowed range does not wrap and stays clear of every sector refused. -/
theorem rawRangeAllowed_spec {c : KvSectors} {addr len : UInt32}
    (h : rawRangeAllowed c addr len = true) :
    addr.toNat + len.toNat < UInt32.size ∧ ∀ s < 8, rawSectorAllowed c (UInt8.ofNat s) = false →
      sectorEnd s ≤ addr.toNat ∨ addr.toNat + len.toNat ≤ sectorBase s := by
  unfold rawRangeAllowed at h
  dsimp only at h
  split at h
  · cases h
  · split at h
    · cases h
    · next hwrap =>
      split at h
      · cases h
      · next hany =>
        rw [UInt32.lt_iff_toNat_lt, UInt32.toNat_add] at hwrap
        have haddr := addr.toNat_lt
        have hlen := len.toNat_lt
        have hsum : addr.toNat + len.toNat < 4294967296 := by omega
        have hstop : (addr + len).toNat = addr.toNat + len.toNat := by
          rw [UInt32.toNat_add, Nat.mod_eq_of_lt hsum]
        refine ⟨hsum, ?_⟩
        intro s hs hrefused
        rw [hstop] at hany
        apply Decidable.byContradiction
        intro hover
        apply hany
        rw [List.any_eq_true]
        exact ⟨s, List.mem_range.mpr hs, by simp [hrefused]; omega⟩

/-! ## The operations -/

/-- `_flash_wait_`, while `[a, b)` is being worked on. -/
def flashWait (dev : FlashDev) (a b : Nat) : HalStatus × FlashDev :=
  match dev.waits with
  | [] => (.ok, dev)
  | .ready :: waits => (.ok, { dev with waits := waits })
  | .wedged left :: waits =>
    (.errTimeout, { dev with
      mem := fun x => if a ≤ x ∧ x < b then left x else dev.mem x
      waits := waits })

/-- `hal_flash_raw_erase_sector` -/
def halFlashRawEraseSector (c : KvSectors) (dev : FlashDev) (sector : UInt8) :
    HalStatus × FlashDev :=
  let start := sectorBase sector.toNat
  let stop := sectorEnd sector.toNat
  if rawSectorAllowed c sector = false then (.errInvalidArg, dev)
  else match flashWait dev 0 0 with
    | (.ok, dev) => flashWait (flashEraseSector dev start stop) start stop
    | failed => failed

/-- The loop of `hal_flash_raw_program`, at `addr`. -/
def rawProgramLoop : Nat → List UInt8 → FlashDev → HalStatus × FlashDev
  | addr, lo :: hi :: rest, dev =>
    match flashWait (flashProgramHalfWord dev addr lo hi) addr (addr + 2) with
    | (.ok, dev) =>
      if dev.mem addr = lo ∧ dev.mem (addr + 1) = hi then rawProgramLoop (addr + 2) rest dev
      else (.errIo, dev)
    | failed => failed
  | _, _, dev => (.ok, dev)

/-- `hal_flash_raw_program`.  The range check rules out that `addr + off` wraps. -/
def halFlashRawProgram (c : KvSectors) (dev : FlashDev) (addr : UInt32) (data : List UInt8) :
    HalStatus × FlashDev :=
  let len := UInt32.ofNat data.length
  if addr &&& 1 ≠ 0 ∨ len &&& 1 ≠ 0 then (.errInvalidArg, dev)
  else if rawRangeAllowed c addr len = false then (.errInvalidArg, dev)
  else match flashWait dev 0 0 with
    | (.ok, dev) => rawProgramLoop addr.toNat data dev
    | failed => failed

/-! ## What they change -/

theorem flashWait_within (dev : FlashDev) (a b : Nat) :
    ChangesWithin (fun x => a ≤ x ∧ x < b) dev.mem (flashWait dev a b).2.mem := by
  intro x hx
  unfold flashWait
  split
  · rfl
  · rfl
  · exact if_neg hx

/-- A wait with nothing under way. -/
theorem flashWait_idle (dev : FlashDev) : (flashWait dev 0 0).2.mem = dev.mem := by
  funext x
  exact flashWait_within dev 0 0 x (by omega)

theorem halFlashRawEraseSector_within (c : KvSectors) (dev : FlashDev) (sector : UInt8) :
    ChangesWithin (fun x => sectorBase sector.toNat ≤ x ∧ x < sectorEnd sector.toNat) dev.mem
      (halFlashRawEraseSector c dev sector).2.mem := by
  unfold halFlashRawEraseSector
  dsimp only
  have hidle := flashWait_idle dev
  split
  · exact .refl _ _
  · split
    · next dev' hwait =>
      rw [hwait] at hidle
      rw [← show dev'.mem = dev.mem from hidle]
      exact (changesWithin_eraseRange _ _ _).trans (flashWait_within _ _ _)
    · rw [hidle]
      exact .refl _ _

theorem rawProgramLoop_within (addr : Nat) (data : List UInt8) (dev : FlashDev) :
    ChangesWithin (fun x => addr ≤ x ∧ x < addr + data.length) dev.mem
      (rawProgramLoop addr data dev).2.mem := by
  fun_induction rawProgramLoop addr data dev with
  | case1 addr lo hi rest dev dev' hwait hback ih =>
    have hword := (changesWithin_overlay dev.mem addr [lo, hi]).trans
      (flashWait_within (flashProgramHalfWord dev addr lo hi) addr (addr + 2))
    rw [hwait] at hword
    simp only [List.length_cons]
    exact (hword.mono (by simp; omega)).trans (ih.mono (by omega))
  | case2 addr lo hi rest dev dev' hwait hback =>
    have hword := (changesWithin_overlay dev.mem addr [lo, hi]).trans
      (flashWait_within (flashProgramHalfWord dev addr lo hi) addr (addr + 2))
    rw [hwait] at hword
    simp only [List.length_cons]
    exact hword.mono (by simp; omega)
  | case3 addr lo hi rest dev =>
    have hword := (changesWithin_overlay dev.mem addr [lo, hi]).trans
      (flashWait_within (flashProgramHalfWord dev addr lo hi) addr (addr + 2))
    simp only [List.length_cons]
    exact hword.mono (by simp; omega)
  | case4 => exact .refl _ _

theorem halFlashRawProgram_within (c : KvSectors) (dev : FlashDev) (addr : UInt32)
    (data : List UInt8) :
    ChangesWithin (fun x => addr.toNat ≤ x ∧ x < addr.toNat + data.length) dev.mem
      (halFlashRawProgram c dev addr data).2.mem := by
  unfold halFlashRawProgram
  dsimp only
  have hidle := flashWait_idle dev
  split
  · exact .refl _ _
  · split
    · exact .refl _ _
    · split
      · next dev' hwait =>
        rw [hwait] at hidle
        rw [← show dev'.mem = dev.mem from hidle]
        exact rawProgramLoop_within _ _ _
      · rw [hidle]
        exact .refl _ _

/-! ## What they spare -/

/-- The bytes of one sector. -/
def InSector (sector x : Nat) : Prop := sectorBase sector ≤ x ∧ x < sectorEnd sector

theorem InSector.unique {a b x : Nat} (ha : a < 8) (hb : b < 8) (hxa : InSector a x)
    (hxb : InSector b x) : a = b := by
  obtain ⟨halow, hahigh⟩ := hxa
  obtain ⟨hblow, hbhigh⟩ := hxb
  rcases Nat.lt_trichotomy a b with h | h | h
  · have := sectorEnd_le_sectorBase h hb
    omega
  · exact h
  · have := sectorEnd_le_sectorBase h ha
    omega

theorem halFlashRawEraseSector_spares {c : KvSectors} {s : Nat} (hs : s < 8)
    (hrefused : rawSectorAllowed c (UInt8.ofNat s) = false) (dev : FlashDev) (sector : UInt8) :
    ChangesWithin (fun x => ¬ InSector s x) dev.mem
      (halFlashRawEraseSector c dev sector).2.mem := by
  cases hallowed : rawSectorAllowed c sector with
  | false =>
    rw [halFlashRawEraseSector, if_pos hallowed]
    exact .refl _ _
  | true =>
    apply (halFlashRawEraseSector_within c dev sector).mono
    rintro x hx hin
    have hsame := InSector.unique (rawSectorAllowed_lt hallowed) hs hx hin
    rw [← hsame, UInt8.ofNat_toNat, hallowed] at hrefused
    cases hrefused

theorem halFlashRawProgram_spares {c : KvSectors} {s : Nat} (hs : s < 8)
    (hrefused : rawSectorAllowed c (UInt8.ofNat s) = false) (dev : FlashDev) (addr : UInt32)
    {data : List UInt8} (hlen : data.length < UInt32.size) :
    ChangesWithin (fun x => ¬ InSector s x) dev.mem
      (halFlashRawProgram c dev addr data).2.mem := by
  cases hallowed : rawRangeAllowed c addr (UInt32.ofNat data.length) with
  | false =>
    simp only [halFlashRawProgram, hallowed, if_true, ite_self]
    exact .refl _ _
  | true =>
    obtain ⟨-, hclear⟩ := rawRangeAllowed_spec hallowed
    have hrange := hclear s hs hrefused
    rw [UInt32.toNat_ofNat', Nat.mod_eq_of_lt hlen] at hrange
    apply (halFlashRawProgram_within c dev addr data).mono
    rintro x ⟨hlow, hhigh⟩ ⟨hbase, hend⟩
    omega

/-- Outside the two sectors of the key/value store. -/
def KvSectors.Outside (c : KvSectors) (x : Nat) : Prop :=
  ¬ InSector c.primary x ∧ ¬ InSector c.secondary x

theorem halFlashRawEraseSector_outside (c : KvSectors) (dev : FlashDev) (sector : UInt8) :
    ChangesWithin c.Outside dev.mem (halFlashRawEraseSector c dev sector).2.mem :=
  (halFlashRawEraseSector_spares c.primary_lt (rawSectorAllowed_kv c).1 dev sector).inter
    (halFlashRawEraseSector_spares c.secondary_lt (rawSectorAllowed_kv c).2 dev sector)

theorem halFlashRawProgram_outside (c : KvSectors) (dev : FlashDev) (addr : UInt32)
    {data : List UInt8} (hlen : data.length < UInt32.size) :
    ChangesWithin c.Outside dev.mem (halFlashRawProgram c dev addr data).2.mem :=
  (halFlashRawProgram_spares c.primary_lt (rawSectorAllowed_kv c).1 dev addr hlen).inter
    (halFlashRawProgram_spares c.secondary_lt (rawSectorAllowed_kv c).2 dev addr hlen)

end NavHAL.Flash
