import NavHAL.Arch.CacheWalk
import NavHAL.Lib.Cache
import NavHAL.Lib.Steps
import NavHAL.Status

/-!
# RX DMA and the data cache (`navhal_port_dma.h`, `cache.c`, `i2c_f7.c`)

The driver behind `read_regs` of `_hal_i2c_dma_ops` takes any buffer that
`navhal_dma_rx_guard` lets through and invalidates its lines when the transfer is
over.  The bytes come out right whatever the cache does in between exactly when the
buffer owns every cacheable line that it touches and none of them is dirty at the call
(`rx_coherent_iff`).
-/

namespace NavHAL.Dma

open Arch.CacheWalk (dcacheWalkRange issue lineAddr lineAddr_toNat rangeLoop walkRange_lines)
open Cache
open Steps (run)

/-! ## The memory map -/

def navhalItcmBase : UInt32 := 0x00000000

def navhalDtcmBase : UInt32 := 0x20000000

/-- `NAVHAL_CONFIG_ITCM_SIZE` and `NAVHAL_CONFIG_DTCM_SIZE`: whole lines, within
the code and the SRAM region. -/
structure Tcm where
  itcmSize : UInt32
  dtcmSize : UInt32
  itcm_lines : itcmSize.toNat % 32 = 0
  dtcm_lines : dtcmSize.toNat % 32 = 0
  itcm_le : itcmSize.toNat ≤ 0x20000000
  dtcm_le : dtcmSize.toNat ≤ 0x20000000

/-- `src/board/nucleo_f767zi/Kconfig` -/
def nucleoF767zi : Tcm := ⟨0x4000, 0x20000, by decide, by decide, by decide, by decide⟩

/-- `navhal_dma_mem_t` -/
inductive DmaMem
  | itcm
  | dtcm
  | cached
  deriving DecidableEq, Repr

section Port

variable (t : Tcm)

def navhalDmaMemClass (addr : UInt32) : DmaMem :=
  if addr - navhalItcmBase < t.itcmSize then .itcm
  else if addr - navhalDtcmBase < t.dtcmSize then .dtcm
  else .cached

def navhalDmaRxGuard (buf : UInt32) : HalStatus :=
  if navhalDmaMemClass t buf = .itcm then .errInvalidArg else .ok

/-- The lines that the cache may hold: those outside the TCMs. -/
def cacheable (l : Nat) : Bool :=
  decide (t.itcmSize.toNat ≤ 32 * l) &&
    (decide (32 * l < 0x20000000) || decide (0x20000000 + t.dtcmSize.toNat ≤ 32 * l))

/-- The memory and the data cache, in lines of `NAVHAL_CACHE_LINE` bytes. -/
abbrev Bus := Cached UInt8 32 (cacheable t)

variable {t}

/-- `SCB_DCIMVAC` -/
def dcimvac (p : UInt32) (s : Bus t) : Bus t := s.invalidate (p.toNat / 32)

def halDcacheInvalidate (addr size : UInt32) (fuel : Nat) (s : Bus t) : Option (Bus t) :=
  dcacheWalkRange dcimvac addr size fuel s

def navhalDmaRxFinish (buf n : UInt32) (fuel : Nat) (s : Bus t) : Option (Bus t) :=
  if navhalDmaMemClass t buf = .cached then halDcacheInvalidate buf n fuel s else some s

end Port

/-! ## Transfers -/

/-- A buffer that `stm32f7_i2c_dma_read_regs`, the `read_regs` of `_hal_i2c_dma_ops`,
gets past `navhal_dma_rx_guard`; the address past its end is an address. -/
structure RxBuffer (t : Tcm) where
  addr : UInt32
  len : UInt32
  fits : addr.toNat + len.toNat < 4294967296
  accepted : navhalDmaRxGuard t addr = .ok

variable {t : Tcm}

def RxBuffer.Has (buf : RxBuffer t) (a : Nat) : Prop :=
  buf.addr.toNat ≤ a ∧ a < buf.addr.toNat + buf.len.toNat

instance (buf : RxBuffer t) (a : Nat) : Decidable (buf.Has a) := inferInstanceAs (Decidable (_ ∧ _))

/-- What may happen between the call and the completion interrupt. -/
inductive BusEvent
  /-- The processor writes a byte. -/
  | store (a : Nat) (v : UInt8)
  | fill (l : Nat)
  | evict (l : Nat)
  /-- The DMA writes a byte. -/
  | dma (a : Nat) (v : UInt8)

/-- The processor stays out of the buffer, and the DMA in it. -/
def RxBuffer.Allows (buf : RxBuffer t) : BusEvent → Prop
  | .store a _ => ¬ buf.Has a
  | .dma a _ => buf.Has a
  | .fill _ | .evict _ => True

/-- The bus, the processor's last store to every address and the byte that the
DMA wrote there. -/
structure RxRun (t : Tcm) where
  bus : Bus t
  cpu : Nat → UInt8
  written : Nat → Option UInt8

/-- At the call: what the processor stored is what it reads. -/
def RxRun.start (s : Bus t) : RxRun t where
  bus := s
  cpu := s.view
  written := fun _ => none

def rxStep (r : RxRun t) : BusEvent → RxRun t
  | .store a v => { r with bus := r.bus.store a v, cpu := fun b => if b = a then v else r.cpu b }
  | .fill l => { r with bus := r.bus.fill l }
  | .evict l => { r with bus := r.bus.evict l }
  | .dma a v =>
    { r with bus := r.bus.write a v, written := fun b => if b = a then some v else r.written b }

/-- After `navhal_dma_rx_finish` the processor reads what the DMA wrote in the
buffer, and outside it what it stored itself. -/
def ReadsRight (buf : RxBuffer t) (r : RxRun t) : Prop :=
  ∃ fuel s', navhalDmaRxFinish buf.addr buf.len fuel r.bus = some s' ∧
    (∀ a, buf.Has a → r.written a = some (s'.view a)) ∧
    ∀ a, ¬ buf.Has a → s'.view a = r.cpu a

/-- Every transfer that starts in `s` and writes every byte of the buffer. -/
def Coherent (buf : RxBuffer t) (s : Bus t) : Prop :=
  ∀ events : List BusEvent, (∀ ev ∈ events, buf.Allows ev) →
    (∀ a, buf.Has a → (run rxStep (.start s) events).written a ≠ none) →
      ReadsRight buf (run rxStep (.start s) events)

/-- Every cacheable line that the buffer touches is the buffer's alone and not
dirty, and gets invalidated. -/
def OwnsLines (buf : RxBuffer t) (s : Bus t) : Prop :=
  ∀ a, buf.Has a → cacheable t (a / 32) = true →
    navhalDmaMemClass t buf.addr = .cached ∧ (∀ b, b / 32 = a / 32 → buf.Has b) ∧
      ¬ s.IsDirty (a / 32)

/-! ## The walk -/

section Walk

variable {s s' : Bus t}

/-- Maintenance by line keeps memory, and the lines that it leaves. -/
structure Dropped (s s' : Bus t) : Prop where
  mem : s'.mem = s.mem
  data : s'.data = s.data
  present : ∀ l, s'.present l = true → s.present l = true

theorem Dropped.refl (s : Bus t) : Dropped s s := ⟨rfl, rfl, fun _ h => h⟩

theorem rangeLoop_dropped {stop : UInt32} {fuel : Nat} {p : UInt32}
    (h : rangeLoop dcimvac stop fuel p s = some s') : Dropped s s' := by
  induction fuel generalizing p s with
  | zero => cases h
  | succ fuel ih =>
    rw [rangeLoop] at h
    by_cases hp : p < stop
    · rw [if_pos hp] at h
      have hrest := ih h
      refine ⟨hrest.mem, hrest.data, fun l hl => ?_⟩
      have hkept := hrest.present l hl
      simp only [dcimvac, Cached.invalidate] at hkept
      split at hkept
      · cases hkept
      · exact hkept
    · rw [if_neg hp] at h
      cases h
      exact .refl _

theorem rxFinish_dropped {buf n : UInt32} {fuel : Nat}
    (h : navhalDmaRxFinish buf n fuel s = some s') : Dropped s s' := by
  unfold navhalDmaRxFinish at h
  split at h
  · unfold halDcacheInvalidate dcacheWalkRange at h
    split at h
    · cases h
      exact .refl s
    · exact rangeLoop_dropped h
  · cases h
    exact .refl s

/-- The lines that are visited are dropped, and the others stay. -/
theorem issue_dcimvac_present (first n : Nat) (hroom : 32 * (first + n) ≤ 4294967296) (s : Bus t)
    (l : Nat) :
    (issue dcimvac ((List.range' first n).map lineAddr) s).present l =
      if first ≤ l ∧ l < first + n then false else s.present l := by
  induction n generalizing first s with
  | zero => exact (if_neg (by omega)).symm
  | succ n ih =>
    have hstep : issue dcimvac ((List.range' first (n + 1)).map lineAddr) s =
        issue dcimvac ((List.range' (first + 1) n).map lineAddr) (dcimvac (lineAddr first) s) := rfl
    have hline : (lineAddr first).toNat / 32 = first := by
      rw [lineAddr_toNat (by omega)]
      omega
    rw [hstep, ih (first + 1) (by omega), dcimvac, hline]
    simp only [Cached.invalidate]
    by_cases hl : l = first
    · rw [if_neg (by omega), if_pos hl, if_pos (by omega)]
    · by_cases hrange : first + 1 ≤ l ∧ l < first + 1 + n
      · rw [if_pos hrange, if_pos (by omega)]
      · rw [if_neg hrange, if_neg hl, if_neg (by omega)]

/-- A range that does not reach into the last line of the address space: the
lines that it touches are dropped, and no others. -/
theorem halDcacheInvalidate_present (addr size : UInt32) (s : Bus t)
    (hfits : size ≠ 0 → addr.toNat + size.toNat + 32 ≤ 4294967296) :
    ∃ fuel s', halDcacheInvalidate addr size fuel s = some s' ∧
      (∀ a, addr.toNat ≤ a → a < addr.toNat + size.toNat → s'.present (a / 32) = false) ∧
      ∀ l, (∀ a, addr.toNat ≤ a → a < addr.toNat + size.toNat → a / 32 ≠ l) →
        s'.present l = s.present l := by
  by_cases hsize : size = 0
  · refine ⟨0, s, if_pos hsize, fun a hlow hhigh => ?_, fun _ _ => rfl⟩
    rw [hsize, UInt32.toNat_zero] at hhigh
    omega
  · have hpos : 0 < size.toNat := Nat.pos_of_ne_zero fun h => hsize (UInt32.toNat_inj.mp h)
    have hroom : addr.toNat + size.toNat ≤ 4294967264 := by
      have := hfits hsize
      omega
    obtain ⟨fuel, hwalk⟩ := walkRange_lines dcimvac hsize hroom s
    have hpresent := issue_dcimvac_present (addr.toNat / 32)
      ((addr.toNat + size.toNat + 31) / 32 - addr.toNat / 32) (by omega) s
    refine ⟨fuel, _, hwalk, fun a hlow hhigh => ?_, fun l hl => ?_⟩
    · rw [hpresent, if_pos (by omega)]
    · rw [hpresent, if_neg]
      rintro ⟨hlow, hhigh⟩
      -- the first byte of the range in line `l`
      have := hl (max addr.toNat (32 * l)) (by omega) (by omega)
      omega

end Walk

/-- The last line of the address space is no TCM. -/
theorem cacheable_last : cacheable t (4294967295 / 32) = true := by
  have hitcm := t.itcm_le
  have hdtcm := t.dtcm_le
  simp only [cacheable, Bool.and_eq_true, Bool.or_eq_true, decide_eq_true_eq]
  omega

/-! ## Transfers that read right -/

section Owned

variable {buf : RxBuffer t}

/-- What holds up to the completion interrupt where the buffer owns its lines. -/
structure RxInvariant (buf : RxBuffer t) (r : RxRun t) : Prop where
  outside : ∀ a, ¬ buf.Has a → r.bus.view a = r.cpu a
  consistent : ∀ a, ¬ buf.Has a → r.bus.present (a / 32) = true → r.bus.dirty (a / 32) = false →
    r.bus.data a = r.bus.mem a
  notDirty : ∀ a, buf.Has a → r.bus.present (a / 32) = true → r.bus.dirty (a / 32) = false
  written : ∀ a, buf.Has a → ∀ v, r.written a = some v → r.bus.mem a = v

/-- No cacheable line is shared. -/
def Apart (buf : RxBuffer t) : Prop :=
  ∀ a b, buf.Has a → cacheable t (a / 32) = true → b / 32 = a / 32 → buf.Has b

theorem RxInvariant.store {r : RxRun t} {a : Nat} (hapart : Apart buf) (h : RxInvariant buf r)
    (hout : ¬ buf.Has a) (v : UInt8) : RxInvariant buf (rxStep r (.store a v)) := by
  have hview : ∀ b, ¬ buf.Has b → (r.bus.store a v).view b = if b = a then v else r.cpu b := by
    intro b hb
    rw [view_store, h.outside b hb]
  by_cases hpresent : r.bus.present (a / 32) = true
  · -- the store makes a line dirty, in which there is nothing of the buffer
    have hline : ∀ b, buf.Has b → b / 32 ≠ a / 32 := by
      intro b hb hsame
      have hcached := r.bus.cacheable_of_present _ hpresent
      rw [← hsame] at hcached
      exact hout (hapart b a hb hcached hsame.symm)
    refine ⟨hview, ?_, ?_, ?_⟩
    all_goals simp only [rxStep, Cached.store, if_pos hpresent]
    · intro b hb hp hd
      by_cases hsame : b / 32 = a / 32
      · simp [hsame] at hd
      · rw [if_neg hsame] at hd
        rw [if_neg (fun hba => hsame (by rw [hba]))]
        exact h.consistent b hb hp hd
    · intro b hb hp
      rw [if_neg (hline b hb)]
      exact h.notDirty b hb hp
    · exact h.written
  · refine ⟨hview, ?_, ?_, ?_⟩
    all_goals simp only [rxStep, Cached.store, if_neg hpresent]
    · intro b hb hp hd
      rw [if_neg (fun hba : b = a => hpresent (hba ▸ hp))]
      exact h.consistent b hb hp hd
    · exact h.notDirty
    · intro b hb w hw
      rw [if_neg (fun hba : b = a => hout (hba ▸ hb))]
      exact h.written b hb w hw

theorem RxInvariant.fill {r : RxRun t} (h : RxInvariant buf r) (l : Nat) :
    RxInvariant buf (rxStep r (.fill l)) := by
  have hview : ∀ b, ¬ buf.Has b → (r.bus.fill l).view b = r.cpu b := by
    intro b hb
    rw [view_fill, h.outside b hb]
  by_cases hfill : r.bus.present l = false ∧ cacheable t l = true
  · refine ⟨hview, ?_, ?_, ?_⟩
    all_goals simp only [rxStep, Cached.fill, dif_pos hfill]
    · intro b hb hp hd
      by_cases hl : b / 32 = l
      · rw [if_pos hl]
      · rw [if_neg hl] at hp hd ⊢
        exact h.consistent b hb hp hd
    · intro b hb hp
      by_cases hl : b / 32 = l
      · rw [if_pos hl]
      · rw [if_neg hl] at hp ⊢
        exact h.notDirty b hb hp
    · exact h.written
  · have hsame : rxStep r (.fill l) = r := by
      simp only [rxStep, Cached.fill, dif_neg hfill]
    rw [hsame]
    exact h

theorem RxInvariant.evict {r : RxRun t} (h : RxInvariant buf r) (l : Nat) :
    RxInvariant buf (rxStep r (.evict l)) := by
  constructor
  case outside =>
    intro b hb
    show (r.bus.evict l).view b = r.cpu b
    rw [view_evict r.bus (fun hl hp hd => h.consistent b hb (hl ▸ hp) (hl ▸ hd)), h.outside b hb]
  all_goals simp only [rxStep, Cached.evict, Cached.invalidate, Cached.clean]
  case consistent =>
    intro b hb hp hd
    by_cases hl : b / 32 = l
    · simp [hl] at hp
    · rw [if_neg hl] at hp hd
      rw [if_neg (fun hc => hl hc.1)]
      exact h.consistent b hb hp hd
  case notDirty =>
    intro b hb hp
    by_cases hl : b / 32 = l
    · rw [if_pos hl]
    · rw [if_neg hl] at hp ⊢
      exact h.notDirty b hb hp
  case written =>
    intro b hb w hw
    -- the lines of the buffer are not written back
    have hclean : ¬ (b / 32 = l ∧ r.bus.IsDirty l) := by
      rintro ⟨hl, hp, hd⟩
      rw [← hl] at hp hd
      rw [h.notDirty b hb hp] at hd
      cases hd
    rw [if_neg hclean]
    exact h.written b hb w hw

theorem RxInvariant.dma {r : RxRun t} {a : Nat} (h : RxInvariant buf r) (hin : buf.Has a)
    (v : UInt8) : RxInvariant buf (rxStep r (.dma a v)) := by
  have hother : ∀ b, ¬ buf.Has b → b ≠ a := fun b hb hba => hb (hba ▸ hin)
  constructor
  all_goals simp only [rxStep, Cached.write]
  case outside =>
    intro b hb
    simp only [Cached.view, if_neg (hother b hb)]
    exact h.outside b hb
  case consistent =>
    intro b hb hp hd
    rw [if_neg (hother b hb)]
    exact h.consistent b hb hp hd
  case notDirty => exact h.notDirty
  case written =>
    intro b hb w hw
    by_cases hba : b = a
    · rw [if_pos hba] at hw ⊢
      exact Option.some.inj hw
    · rw [if_neg hba] at hw ⊢
      exact h.written b hb w hw

theorem RxInvariant.step {r : RxRun t} (hapart : Apart buf) (h : RxInvariant buf r)
    {ev : BusEvent} (hev : buf.Allows ev) : RxInvariant buf (rxStep r ev) := by
  cases ev with
  | store a v => exact h.store hapart hev v
  | fill l => exact h.fill l
  | evict l => exact h.evict l
  | dma a v => exact h.dma hev v

theorem RxInvariant.run {r : RxRun t} (hapart : Apart buf) (h : RxInvariant buf r)
    {events : List BusEvent} (hev : ∀ ev ∈ events, buf.Allows ev) :
    RxInvariant buf (run rxStep r events) := by
  induction events generalizing r with
  | nil => exact h
  | cons ev events ih =>
    exact ih (h.step hapart (hev ev (List.mem_cons_self ..)))
      (fun ev' hmem => hev ev' (List.mem_cons_of_mem _ hmem))

theorem rxInvariant_start {s : Bus t} (hcons : s.Consistent) (howns : OwnsLines buf s) :
    RxInvariant buf (.start s) where
  outside := fun _ _ => rfl
  consistent := fun a _ hp hd => hcons a hp hd
  notDirty := by
    intro a ha hp
    have hclean := (howns a ha (s.cacheable_of_present _ hp)).2.2
    exact Bool.eq_false_iff.mpr (fun hd => hclean ⟨hp, hd⟩)
  written := by
    intro a _ v hv
    cases hv

/-- A buffer that owns its lines ends before the last one of the address space. -/
theorem Apart.fits (hapart : Apart buf) (h : buf.len ≠ 0) :
    buf.addr.toNat + buf.len.toNat + 32 ≤ 4294967296 := by
  have hpos : 0 < buf.len.toNat := Nat.pos_of_ne_zero fun hz => h (UInt32.toNat_inj.mp hz)
  have hend := buf.fits
  refine Decidable.byContradiction fun hlast => ?_
  have hline : (buf.addr.toNat + buf.len.toNat - 1) / 32 = 4294967295 / 32 := by omega
  have htop : buf.Has 4294967295 :=
    hapart (buf.addr.toNat + buf.len.toNat - 1) _ ⟨by omega, by omega⟩
      (hline ▸ cacheable_last) hline.symm
  have := htop.2
  omega

/-- The completion shows the memory in the buffer and changes no view outside it. -/
theorem RxInvariant.readsRight {r : RxRun t} (h : RxInvariant buf r) (hapart : Apart buf)
    (hclass : ∀ a, buf.Has a → cacheable t (a / 32) = true →
      navhalDmaMemClass t buf.addr = .cached)
    (hcomplete : ∀ a, buf.Has a → r.written a ≠ none) : ReadsRight buf r := by
  have hmem : ∀ a, buf.Has a → r.written a = some (r.bus.mem a) := by
    intro a ha
    obtain ⟨v, hv⟩ := Option.ne_none_iff_exists'.mp (hcomplete a ha)
    rw [hv, h.written a ha v hv]
  by_cases hcached : navhalDmaMemClass t buf.addr = .cached
  · obtain ⟨fuel, s', hinvalidate, hdropped, hkept⟩ :=
      halDcacheInvalidate_present buf.addr buf.len r.bus hapart.fits
    have hfinish : navhalDmaRxFinish buf.addr buf.len fuel r.bus = some s' :=
      (if_pos hcached).trans hinvalidate
    have hsame := rxFinish_dropped hfinish
    refine ⟨fuel, s', hfinish, fun a ha => ?_, fun a ha => ?_⟩
    · rw [view_of_absent s' (hdropped a ha.1 ha.2), hsame.mem]
      exact hmem a ha
    · rw [← h.outside a ha]
      have hpresent : s'.present (a / 32) = r.bus.present (a / 32) := by
        by_cases hp : r.bus.present (a / 32) = true
        · refine hkept _ fun b hlow hhigh hline => ha ?_
          have hcacheable := r.bus.cacheable_of_present _ hp
          exact hapart b a ⟨hlow, hhigh⟩ (hline ▸ hcacheable) hline.symm
        · rw [Bool.eq_false_iff.mpr hp]
          exact Bool.eq_false_iff.mpr fun hp' => hp (hsame.present _ hp')
      rw [Cached.view, hpresent, hsame.data, hsame.mem]
      rfl
  · refine ⟨0, r.bus, if_neg hcached, fun a ha => ?_, h.outside⟩
    have habsent : r.bus.present (a / 32) = false := by
      refine Bool.eq_false_iff.mpr fun hp => hcached ?_
      exact hclass a ha (r.bus.cacheable_of_present _ hp)
    rw [view_of_absent _ habsent]
    exact hmem a ha

theorem OwnsLines.coherent {s : Bus t} (hcons : s.Consistent) (howns : OwnsLines buf s) :
    Coherent buf s := by
  intro events hev hcomplete
  have hapart : Apart buf := fun a b ha hc hline => (howns a ha hc).2.1 b hline
  exact ((rxInvariant_start hcons howns).run hapart hev).readsRight hapart
    (fun a ha hc => (howns a ha hc).1) hcomplete

end Owned

/-! ## Transfers that do not -/

section Shared

variable {buf : RxBuffer t}

/-- The DMA writes the whole buffer, `val a` at address `a`. -/
def dmaAll (buf : RxBuffer t) (val : Nat → UInt8) : List BusEvent :=
  (List.range buf.len.toNat).map fun i => .dma (buf.addr.toNat + i) (val (buf.addr.toNat + i))

theorem dmaAll_allowed (val : Nat → UInt8) : ∀ ev ∈ dmaAll buf val, buf.Allows ev := by
  intro ev hev
  obtain ⟨i, hi, rfl⟩ := List.mem_map.mp hev
  exact ⟨Nat.le_add_right _ _, Nat.add_lt_add_left (List.mem_range.mp hi) _⟩

/-- The first `n` writes of the DMA. -/
theorem run_dma (r : RxRun t) (val : Nat → UInt8) (start n : Nat) :
    run rxStep r ((List.range n).map fun i => .dma (start + i) (val (start + i))) =
      { r with
        bus := { r.bus with
          mem := fun a => if start ≤ a ∧ a < start + n then val a else r.bus.mem a }
        written := fun a => if start ≤ a ∧ a < start + n then some (val a) else r.written a } := by
  induction n with
  | zero =>
    have hnone : ∀ a, ¬ (start ≤ a ∧ a < start + 0) := fun a => by omega
    simp only [hnone, if_false]
    rfl
  | succ n ih =>
    have hnext : ∀ {β : Type} (f g : Nat → β) (a : Nat),
        (if a = start + n then f (start + n) else
          if start ≤ a ∧ a < start + n then f a else g a) =
        if start ≤ a ∧ a < start + (n + 1) then f a else g a := by
      intro β f g a
      by_cases ha : a = start + n
      · rw [if_pos ha, if_pos (by omega), ha]
      · rw [if_neg ha]
        by_cases hin : start ≤ a ∧ a < start + n
        · rw [if_pos hin, if_pos (by omega)]
        · rw [if_neg hin, if_neg (by omega)]
    rw [List.range_succ, List.map_append, Steps.run_append, ih]
    simp only [List.map_cons, List.map_nil, Steps.run_cons, Steps.run_nil, rxStep, Cached.write,
      hnext val, hnext (fun a => some (val a))]

theorem run_dmaAll (r : RxRun t) (val : Nat → UInt8) :
    run rxStep r (dmaAll buf val) =
      { r with
        bus := { r.bus with mem := fun a => if buf.Has a then val a else r.bus.mem a }
        written := fun a => if buf.Has a then some (val a) else r.written a } :=
  run_dma r val buf.addr.toNat buf.len.toNat

theorem run_evict_written {after : List BusEvent} (h : ∀ ev ∈ after, ∃ l, ev = .evict l)
    (r : RxRun t) : (run rxStep r after).written = r.written := by
  induction after generalizing r with
  | nil => rfl
  | cons ev after ih =>
    obtain ⟨l, rfl⟩ := h ev (List.mem_cons_self ..)
    exact ih (fun ev' hmem => h ev' (List.mem_cons_of_mem _ hmem)) _

/-- A coherent buffer reads right after a run of the cache and the processor,
the whole DMA transfer, and a run of evictions. -/
theorem Coherent.readsRight {s : Bus t} (h : Coherent buf s) (val : Nat → UInt8)
    (before after : List BusEvent) (hbefore : ∀ ev ∈ before, buf.Allows ev)
    (hafter : ∀ ev ∈ after, ∃ l, ev = .evict l) :
    ReadsRight buf (run rxStep (run rxStep (run rxStep (.start s) before) (dmaAll buf val)) after) := by
  rw [← Steps.run_append, ← Steps.run_append]
  refine h _ ?_ ?_
  · intro ev hev
    rcases List.mem_append.mp hev with hev | hev
    · exact hbefore ev hev
    rcases List.mem_append.mp hev with hev | hev
    · exact dmaAll_allowed val ev hev
    · obtain ⟨l, rfl⟩ := hafter ev hev
      trivial
  · intro a ha
    rw [Steps.run_append, Steps.run_append, run_evict_written hafter, run_dmaAll]
    simp [ha]

theorem not_ne (b : UInt8) : ~~~b ≠ b := by
  intro h
  have hbit := congrArg (fun c => c.toBitVec.getLsbD 0) h
  simp at hbit

/-- A line that is dirty at the call is evicted after the transfer. -/
theorem Coherent.not_dirty {s : Bus t} (h : Coherent buf s) {a : Nat} (ha : buf.Has a) :
    ¬ s.IsDirty (a / 32) := by
  intro hdirty
  obtain ⟨fuel, s', hfinish, hin, -⟩ := h.readsRight (fun b => ~~~ s.data b) []
    [.evict (a / 32)] (by simp) (by simp)
  have hsame := rxFinish_dropped hfinish
  have hread := hin a ha
  rw [run_dmaAll] at hread hsame
  simp only [Steps.run_cons, Steps.run_nil, rxStep, RxRun.start, if_pos ha] at hread hsame
  have habsent : s'.present (a / 32) = false := by
    refine Bool.eq_false_iff.mpr fun hp => ?_
    simpa [Cached.evict, Cached.invalidate] using hsame.present _ hp
  rw [view_of_absent s' habsent, hsame.mem] at hread
  have hmem : (Cached.evict (a / 32) { s with
      mem := fun b => if buf.Has b then ~~~ s.data b else s.mem b }).mem a = s.data a :=
    if_pos ⟨rfl, hdirty⟩
  rw [hmem] at hread
  exact not_ne _ (Option.some.inj hread)

/-- A stale copy of a buffer that is not invalidated. -/
theorem Coherent.cached {s : Bus t} (h : Coherent buf s) {a : Nat} (ha : buf.Has a)
    (hline : cacheable t (a / 32) = true) : navhalDmaMemClass t buf.addr = .cached := by
  refine Decidable.byContradiction fun hclass => ?_
  obtain ⟨fuel, s', hfinish, hin, -⟩ := h.readsRight (fun b => ~~~ (s.fill (a / 32)).data b)
    [.fill (a / 32)] [] (by simp [RxBuffer.Allows]) (by simp)
  rw [navhalDmaRxFinish, if_neg hclass] at hfinish
  cases hfinish
  have hread := hin a ha
  rw [run_dmaAll] at hread
  simp only [Steps.run_cons, Steps.run_nil, rxStep, RxRun.start, if_pos ha] at hread
  have hpresent := fill_present s hline
  rw [Cached.view, if_pos hpresent] at hread
  exact not_ne _ (Option.some.inj hread)

/-- A line shared with a byte outside the buffer: the store to it is lost with
the line, or the line keeps a stale byte of the buffer. -/
theorem Coherent.alone {s : Bus t} (h : Coherent buf s) {a : Nat} (ha : buf.Has a)
    (hline : cacheable t (a / 32) = true) {b : Nat} (hb : b / 32 = a / 32) : buf.Has b := by
  refine Decidable.byContradiction fun hout => ?_
  obtain ⟨fuel, s', hfinish, hin, hkeep⟩ := h.readsRight (fun c => ~~~ (s.fill (a / 32)).data c)
    [.fill (a / 32), .store b (~~~ (s.fill (a / 32)).mem b)] []
    (by simp [RxBuffer.Allows, hout]) (by simp)
  have hsame := rxFinish_dropped hfinish
  have hread := hin a ha
  have hstored := hkeep b hout
  rw [run_dmaAll] at hread hstored hsame
  have hpresent : (s.fill (a / 32)).present (b / 32) = true := by
    rw [hb]
    exact fill_present s hline
  simp only [Steps.run_cons, Steps.run_nil, rxStep, RxRun.start, if_pos ha, Cached.store,
    if_pos hpresent, if_true] at hread hstored hsame
  cases hp : s'.present (a / 32) with
  | true =>
    have hne : a ≠ b := fun hab => hout (hab ▸ ha)
    rw [view_of_present s' hp, hsame.data] at hread
    exact not_ne _ ((Option.some.inj hread).trans (if_neg hne))
  | false =>
    rw [view_of_absent s' (by rw [hb, hp]), hsame.mem] at hstored
    exact not_ne _ (hstored.symm.trans (if_neg hout))

theorem Coherent.ownsLines {s : Bus t} (h : Coherent buf s) : OwnsLines buf s :=
  fun _ ha hline => ⟨h.cached ha hline, fun _ hb => h.alone ha hline hb, h.not_dirty ha⟩

end Shared

/-- **A transfer reads right, whatever happens up to its completion, exactly
when the buffer owns the cacheable lines that it touches, none of them is dirty
at the call, and it does not begin in the DTCM if there are any.** -/
theorem rx_coherent_iff (buf : RxBuffer t) (s : Bus t) (hcons : s.Consistent) :
    Coherent buf s ↔ OwnsLines buf s :=
  ⟨Coherent.ownsLines, OwnsLines.coherent hcons⟩

end NavHAL.Dma
