import NavHAL.Clock.Init

/-!
# What a successful initialisation leaves in the registers

The PLL fields hold what is left of the parameters, `ClockConfig.hpre` and its
companions are the dividers that the prescaler fields decode to.
-/

namespace NavHAL.Clock

open BitField

/-! ## The PLL fields -/

namespace PllConfig

variable (pll : PllConfig)

/-- The code of PLLP before the shift, all ones for `pll_p = 1`. -/
def pllpCode : BitVec 32 := BitVec.ofNat 32 (pll.pllP.toNat >>> 1) - 1#32

def heldM : Nat := pll.pllM.toNat % 64

def heldN : Nat := pll.pllN.toNat % 512

def heldP : Nat := (pll.pllpCode.toNat % 4 + 1) * 2

/-- A large code of PLLP reaches the bit that selects HSE. -/
def heldHse : Bool := pll.inputSrc ≠ .hsi || pll.pllpCode.getLsbD 6

def srcBits : BitVec 32 := if pll.inputSrc = .hsi then 0 else pllcfgrSrc

/-- The word that `writePll` leaves in `RCC_PLLCFGR`. -/
def word : BitVec 32 :=
  pll.srcBits |||
    (pllcfgrPllm pll.pllM ||| pllcfgrPlln pll.pllN ||| pllcfgrPllp pll.pllP |||
      pllcfgrPllq pll.pllQ)

end PllConfig

theorem writePll_pllcfgr (pll : PllConfig) (r : Regs) : (writePll pll r).pllcfgr = pll.word := by
  unfold writePll PllConfig.word PllConfig.srcBits
  by_cases h : pll.inputSrc = .hsi
  · simp [h, Regs.writePllcfgr]
  · simp [h, Regs.writePllcfgr]

section

variable (pll : PllConfig)

theorem srcBits_field {pos w : Nat} (h : pos + w ≤ 22) : field pos w pll.srcBits = 0 := by
  unfold PllConfig.srcBits
  split
  · exact field_of_lt 0 (Nat.two_pow_pos pos)
  · exact field_shiftLeft_low _ h

theorem srcBits_field_src : field 22 1 pll.srcBits = BitVec.ofBool (pll.inputSrc ≠ .hsi) := by
  unfold PllConfig.srcBits
  cases pll.inputSrc <;> decide

theorem word_field_pllM : field 0 6 pll.word = field 0 6 (BitVec.ofNat 32 pll.pllM.toNat) := by
  have hmask : field 0 6 0x3F#32 = BitVec.allOnes 6 := by decide
  simp (disch := decide) only [PllConfig.word, pllcfgrPllm, pllcfgrPlln, pllcfgrPllp, pllcfgrPllq,
    field_or, field_and, field_shiftLeft, field_shiftLeft_low, srcBits_field, hmask, Nat.sub_zero,
    BitVec.and_allOnes]
  simp

theorem word_field_pllN : field 6 9 pll.word = field 0 9 (BitVec.ofNat 32 pll.pllN.toNat) := by
  have hm : field 6 9 0x3F#32 = 0 := by decide
  have hmask : field 0 9 0x1FF#32 = BitVec.allOnes 9 := by decide
  simp (disch := decide) only [PllConfig.word, pllcfgrPllm, pllcfgrPlln, pllcfgrPllp, pllcfgrPllq,
    field_or, field_and, field_shiftLeft, field_shiftLeft_low, srcBits_field, hm, hmask,
    Nat.sub_zero, Nat.sub_self, BitVec.and_allOnes]
  simp

theorem word_field_pllP : field 16 2 pll.word = field 0 2 pll.pllpCode := by
  have hm : field 16 2 0x3F#32 = 0 := by decide
  have hn : field 10 2 0x1FF#32 = 0 := by decide
  have hsub : 16 - 6 = 10 := rfl
  simp (disch := decide) only [PllConfig.word, pllcfgrPllm, pllcfgrPlln, pllcfgrPllp, pllcfgrPllq,
    field_or, field_and, field_shiftLeft, field_shiftLeft_low, srcBits_field, hm, hn, hsub,
    Nat.sub_zero, Nat.sub_self, PllConfig.pllpCode]
  simp

theorem word_field_src :
    field 22 1 pll.word = BitVec.ofBool (pll.inputSrc ≠ .hsi) ||| field 6 1 pll.pllpCode := by
  have hm : field 22 1 0x3F#32 = 0 := by decide
  have hn : field 16 1 0x1FF#32 = 0 := by decide
  have hsub : 22 - 6 = 16 := rfl
  have hsub' : 22 - 16 = 6 := rfl
  simp (disch := decide) only [PllConfig.word, pllcfgrPllm, pllcfgrPlln, pllcfgrPllp, pllcfgrPllq,
    field_or, field_and, field_shiftLeft, field_shiftLeft_low, srcBits_field_src, hm, hn, hsub,
    hsub', Nat.sub_zero, PllConfig.pllpCode]
  simp

end

/-! ### As the getters read them -/

section

variable (pll : PllConfig)

theorem read_pllM : (pll.word >>> 0 &&& 0x3F#32).toNat = pll.heldM := by
  have hlt : pll.pllM.toNat < 2 ^ 32 := Nat.lt_trans pll.pllM.toNat_lt (by decide)
  calc (pll.word >>> 0 &&& 0x3F#32).toNat = (field 0 6 pll.word).toNat :=
        @toNat_shiftRight_and_mask 0 6 _ (by decide)
    _ = pll.heldM := by
      rw [word_field_pllM, field_zero_toNat, BitVec.toNat_ofNat, Nat.mod_eq_of_lt hlt]
      rfl

theorem read_pllN : (pll.word >>> 6 &&& 0x1FF#32).toNat = pll.heldN := by
  have hlt : pll.pllN.toNat < 2 ^ 32 := Nat.lt_trans pll.pllN.toNat_lt (by decide)
  calc (pll.word >>> 6 &&& 0x1FF#32).toNat = (field 6 9 pll.word).toNat :=
        @toNat_shiftRight_and_mask 6 9 _ (by decide)
    _ = pll.heldN := by
      rw [word_field_pllN, field_zero_toNat, BitVec.toNat_ofNat, Nat.mod_eq_of_lt hlt]
      rfl

theorem read_pllP : ((pll.word >>> 16 &&& 3#32).toNat + 1) * 2 = pll.heldP := by
  have hread : (pll.word >>> 16 &&& 3#32).toNat = (field 16 2 pll.word).toNat :=
    @toNat_shiftRight_and_mask 16 2 _ (by decide)
  rw [hread, word_field_pllP, field_zero_toNat]
  rfl

theorem read_src : pll.word >>> 22 &&& 1#32 ≠ 0 ↔ pll.heldHse = true := by
  have hread : (pll.word >>> 22 &&& 1#32).toNat = (field 22 1 pll.word).toNat :=
    @toNat_shiftRight_and_mask 22 1 _ (by decide)
  have hcode : field 6 1 pll.pllpCode = BitVec.ofBool (pll.pllpCode.getLsbD 6) := by
    apply BitVec.eq_of_getLsbD_eq
    intro i hi
    have hi0 : i = 0 := by omega
    rw [hi0, field_getLsbD]
    simp
  have hzero : pll.word >>> 22 &&& 1#32 = 0 ↔ (field 22 1 pll.word).toNat = 0 := by
    rw [← hread]
    exact BitVec.toNat_eq
  rw [Ne, hzero, word_field_src, hcode]
  unfold PllConfig.heldHse
  cases decide (pll.inputSrc ≠ .hsi) <;> cases pll.pllpCode.getLsbD 6 <;> decide

theorem read_vcoIn (b : Board) :
    (if pll.word >>> 22 &&& 1#32 ≠ 0 then b.hseFreqHz else b.hsiFreqHz) =
      if pll.heldHse then b.hseFreqHz else b.hsiFreqHz := by
  by_cases hhse : pll.heldHse = true
  · rw [if_pos ((read_src pll).mpr hhse), if_pos hhse]
  · rw [if_neg (mt (read_src pll).mp hhse), if_neg hhse]

end

/-! ## The prescaler fields -/

section

variable {pos w : Nat} (hpos : 4 ≤ pos) (hw : pos + w ≤ 32)

include hpos hw

theorem writeCfgr_field (v : BitVec 32) (r : Regs) :
    field pos w (r.writeCfgr v).cfgr = field pos w v := by
  have h16 : 2 ^ 4 ≤ 2 ^ pos := Nat.pow_le_pow_right (by decide) hpos
  have hsws : ((v &&& 3#32) <<< 2).toNat < 2 ^ pos := by
    have hle : (v &&& 3#32).toNat ≤ 3 := by
      rw [BitVec.toNat_and]
      exact Nat.and_le_right
    rw [BitVec.toNat_shiftLeft, Nat.shiftLeft_eq]
    omega
  have hmask : (3#32 <<< 2).toNat < 2 ^ pos := Nat.lt_of_lt_of_le (by decide) h16
  show field pos w ((v &&& ~~~(3#32 <<< 2)) ||| ((v &&& 3#32) <<< 2)) = _
  rw [field_or_of_lt _ _ hsws, field_and_not_of_lt _ _ hmask hw]

theorem switchSysclk_field (source : ClockSource) (r : Regs) :
    field pos w (switchSysclk source r).2.cfgr = field pos w r.cfgr := by
  have h16 : 2 ^ 4 ≤ 2 ^ pos := Nat.pow_le_pow_right (by decide) hpos
  have hwait : ∀ (cond : Regs → Bool) (r : Regs), (waitOrTimeout cond r).2 = r := by
    intro cond r
    unfold waitOrTimeout
    split <;> rfl
  unfold switchSysclk
  rw [hwait]
  have hclear : field pos w (r.writeCfgr (r.cfgr &&& ~~~(3#32 <<< 0))).cfgr = field pos w r.cfgr := by
    rw [writeCfgr_field hpos hw, field_and_not_of_lt _ _ (Nat.lt_of_lt_of_le (by decide) h16) hw]
  cases source with
  | hsi => exact hclear
  | hse =>
    show field pos w (Regs.writeCfgr _ _).cfgr = _
    rw [writeCfgr_field hpos hw, field_or_of_lt _ _ (Nat.lt_of_lt_of_le (by decide) h16), hclear]
  | pll =>
    show field pos w (Regs.writeCfgr _ _).cfgr = _
    rw [writeCfgr_field hpos hw, field_or_of_lt _ _ (Nat.lt_of_lt_of_le (by decide) h16), hclear]

end

theorem cleared_field {pos w : Nat} (hpos : 4 ≤ pos) (hw : pos + w ≤ 32)
    (hm : field pos w (cfgrHpreMask ||| cfgrPpre1Mask ||| cfgrPpre2Mask) = BitVec.allOnes w)
    (r : Regs) :
    field pos w (r.writeCfgr (r.cfgr &&&
      ~~~(cfgrHpreMask ||| cfgrPpre1Mask ||| cfgrPpre2Mask))).cfgr = 0 := by
  rw [writeCfgr_field hpos hw, field_and, field_not _ hw, hm]
  simp

/-- The three codes, each in its field. -/
theorem writePrescalers_fields {hpre ppre1 ppre2 : BitVec 32} (h : hpre.toNat < 16)
    (h1 : ppre1.toNat < 8) (r : Regs) :
    field 4 4 (writePrescalers (hpre, ppre1, ppre2) r).cfgr = field 0 4 hpre ∧
      field 10 3 (writePrescalers (hpre, ppre1, ppre2) r).cfgr = field 0 3 ppre1 ∧
      field 13 3 (writePrescalers (hpre, ppre1, ppre2) r).cfgr = field 0 3 ppre2 := by
  unfold writePrescalers
  have hh6 : field 6 3 hpre = 0 := field_of_lt _ (Nat.lt_trans h (by decide))
  have hh9 : field 9 3 hpre = 0 := field_of_lt _ (Nat.lt_trans h (by decide))
  have hp3 : field 3 3 ppre1 = 0 := field_of_lt _ h1
  refine ⟨?_, ?_, ?_⟩
  · rw [writeCfgr_field (by decide) (by decide), field_or,
      cleared_field (by decide) (by decide) (by decide)]
    simp (disch := decide) only [field_or, field_shiftLeft, field_shiftLeft_low, cfgrHpreBit,
      cfgrPpre1Bit, cfgrPpre2Bit, Nat.sub_self]
    simp
  · rw [writeCfgr_field (by decide) (by decide), field_or,
      cleared_field (by decide) (by decide) (by decide)]
    have hsub : 10 - 4 = 6 := rfl
    simp (disch := decide) only [field_or, field_shiftLeft, field_shiftLeft_low, cfgrHpreBit,
      cfgrPpre1Bit, cfgrPpre2Bit, Nat.sub_self, hsub, hh6]
    simp
  · rw [writeCfgr_field (by decide) (by decide), field_or,
      cleared_field (by decide) (by decide) (by decide)]
    have hsub : 13 - 4 = 9 := rfl
    have hsub' : 13 - 10 = 3 := rfl
    simp (disch := decide) only [field_or, field_shiftLeft, cfgrHpreBit, cfgrPpre1Bit,
      cfgrPpre2Bit, Nat.sub_self, hsub, hsub', hh9, hp3]
    simp

/-- A code that fits its field is read back from it. -/
theorem read_code {pos w : Nat} (hw : w ≤ 32) {v code : BitVec 32} (hc : code.toNat < 2 ^ w)
    (hv : field pos w v = field 0 w code) :
    v >>> pos &&& BitVec.ofNat 32 (2 ^ w - 1) = code := by
  apply BitVec.eq_of_toNat_eq
  rw [toNat_shiftRight_and_mask v hw, hv, field_zero_toNat, Nat.mod_eq_of_lt hc]

/-! ## Enabling the source -/

/-- The tree and the wait states stay. -/
structure SameTree (r r' : Regs) : Prop where
  pllcfgr : r'.pllcfgr = r.pllcfgr
  cfgr : r'.cfgr = r.cfgr
  acr : r'.acr = r.acr

theorem orReturn_ok {res : HalStatus × Regs} {next : Regs → HalStatus × Regs}
    (h : (orReturn res next).1 = .ok) : orReturn res next = next res.2 := by
  unfold orReturn at h ⊢
  by_cases hok : res.1 = .ok
  · rw [if_pos hok]
  · rw [if_neg hok] at h
    exact absurd h hok

theorem SameTree.trans {r r' r'' : Regs} (h : SameTree r r') (h' : SameTree r' r'') :
    SameTree r r'' where
  pllcfgr := h'.pllcfgr.trans h.pllcfgr
  cfgr := h'.cfgr.trans h.cfgr
  acr := h'.acr.trans h.acr

theorem writeCr_sameTree (v : BitVec 32) (r : Regs) : SameTree r (r.writeCr v) :=
  ⟨rfl, rfl, rfl⟩

theorem waitOrTimeout_snd (cond : Regs → Bool) (r : Regs) : (waitOrTimeout cond r).2 = r := by
  unfold waitOrTimeout
  split <;> rfl

theorem wait_writeCr_sameTree (cond : Regs → Bool) (v : BitVec 32) (r : Regs) :
    SameTree r (waitOrTimeout cond (r.writeCr v)).2 := by
  rw [waitOrTimeout_snd]
  exact writeCr_sameTree v r

theorem orReturn_sameTree {r : Regs} {res : HalStatus × Regs} {next : Regs → HalStatus × Regs}
    (hres : SameTree r res.2) (hnext : ∀ r', SameTree r' (next r').2) :
    SameTree r (orReturn res next).2 := by
  unfold orReturn
  split
  · exact hres.trans (hnext res.2)
  · exact hres

theorem toggleHseClock_sameTree (b : Board) (state : Bool) (r : Regs) :
    SameTree r (toggleHseClock b state r).2 := by
  unfold toggleHseClock
  split
  · refine orReturn_sameTree ?_ fun r' => wait_writeCr_sameTree _ _ r'
    split
    · exact orReturn_sameTree (wait_writeCr_sameTree _ _ r) fun r' => writeCr_sameTree _ r'
    · exact ⟨rfl, rfl, rfl⟩
  · exact wait_writeCr_sameTree _ _ r

theorem toggleHsiClock_sameTree (state : Bool) (r : Regs) :
    SameTree r (toggleHsiClock state r).2 := by
  cases state with
  | true => exact wait_writeCr_sameTree _ _ r
  | false => exact wait_writeCr_sameTree _ _ r

theorem togglePllClock_sameTree (state : Bool) (r : Regs) :
    SameTree r (togglePllClock state r).2 := by
  cases state with
  | true => exact wait_writeCr_sameTree _ _ r
  | false => exact wait_writeCr_sameTree _ _ r

theorem startOscillator_sameTree (b : Board) (src : ClockSource) (r : Regs) :
    SameTree r (startOscillator b src r).2 := by
  cases src with
  | hsi => exact toggleHsiClock_sameTree true r
  | hse => exact toggleHseClock_sameTree b true r
  | pll => exact ⟨rfl, rfl, rfl⟩

theorem writePll_acr (pll : PllConfig) (r : Regs) : (writePll pll r).acr = r.acr := by
  unfold writePll
  split <;> rfl

/-- With its input ready the PLL is reprogrammed, and nothing else is. -/
theorem startPll_ok {pll : PllConfig} {r : Regs} {res : HalStatus × Regs}
    (hinput : SameTree r res.2)
    (h : (orReturn res fun r => orReturn (togglePllClock false r) fun r =>
      togglePllClock true (writePll pll r)).1 = .ok) :
    (orReturn res fun r => orReturn (togglePllClock false r) fun r =>
        togglePllClock true (writePll pll r)).2.acr = r.acr ∧
      (orReturn res fun r => orReturn (togglePllClock false r) fun r =>
        togglePllClock true (writePll pll r)).2.pllcfgr = pll.word := by
  have houter := orReturn_ok h
  rw [houter] at h ⊢
  rw [orReturn_ok h]
  generalize res.2 = r1 at hinput
  have hoff := togglePllClock_sameTree false r1
  generalize (togglePllClock false r1).2 = r2 at hoff
  have hon := togglePllClock_sameTree true (writePll pll r2)
  constructor
  · calc (togglePllClock true (writePll pll r2)).2.acr = (writePll pll r2).acr := hon.acr
      _ = r2.acr := writePll_acr pll r2
      _ = r.acr := (hinput.trans hoff).acr
  · exact hon.pllcfgr.trans (writePll_pllcfgr pll r2)

theorem startSource_ok {b : Board} {cfg : ClockConfig} {r : Regs}
    (h : (startSource b cfg r).1 = .ok) :
    (startSource b cfg r).2.acr = r.acr ∧
      (cfg.source = .pll → (startSource b cfg r).2.pllcfgr = cfg.pll.word) := by
  unfold startSource at h ⊢
  cases hs : cfg.source with
  | hse => exact ⟨(startOscillator_sameTree b .hse r).acr, by simp⟩
  | hsi => exact ⟨(startOscillator_sameTree b .hsi r).acr, by simp⟩
  | pll =>
    simp only [hs] at h ⊢
    obtain ⟨hacr, hword⟩ := startPll_ok (startOscillator_sameTree b cfg.pll.inputSrc r) h
    exact ⟨hacr, fun _ => hword⟩

/-! ## The whole initialisation -/

def Regs.latency (r : Regs) : Nat := (r.acr &&& 0xF#32).toNat

/-- The registers select this tree. -/
structure Programmed (b : Board) (cfg : ClockConfig) (r : Regs) : Prop where
  sws : r.sws = cfg.source.sw
  pllcfgr : cfg.source = .pll → r.pllcfgr = cfg.pll.word
  hpre : decodePrescaler r.hpreField = cfg.hpre
  ppre1 : decodeApbPrescaler r.ppre1Field = cfg.ppre1 b
  ppre2 : decodeApbPrescaler r.ppre2Field = cfg.ppre2 b

theorem Programmed.of_tree {b : Board} {cfg : ClockConfig} {r r' : Regs}
    (h : Programmed b cfg r) (hp : r'.pllcfgr = r.pllcfgr) (hc : r'.cfgr = r.cfgr) :
    Programmed b cfg r' := by
  have hs : r'.sws = r.sws := by
    unfold Regs.sws
    rw [hc]
  have hh : r'.hpreField = r.hpreField := by
    unfold Regs.hpreField
    rw [hc]
  have h1 : r'.ppre1Field = r.ppre1Field := by
    unfold Regs.ppre1Field
    rw [hc]
  have h2 : r'.ppre2Field = r.ppre2Field := by
    unfold Regs.ppre2Field
    rw [hc]
  constructor
  · rw [hs]
    exact h.sws
  · intro hpll
    rw [hp]
    exact h.pllcfgr hpll
  · rw [hh]
    exact h.hpre
  · rw [h1]
    exact h.ppre1
  · rw [h2]
    exact h.ppre2

theorem flashWsFor_lt (hclk : Nat) : flashWsFor hclk < 8 := by
  unfold flashWsFor
  generalize (if hclk = 0 then 0 else (hclk - 1) / 30000000) = ws
  dsimp only
  split
  · decide
  · omega

/-- The wait states stand in the register after each of the four writes. -/
theorem acr_latency : ∀ ws < 8,
    ((BitVec.ofNat 32 ws <<< 0) &&& 0xF#32).toNat = ws ∧
      ((BitVec.ofNat 32 ws <<< 0 ||| acrIcrst ||| acrDcrst) &&& 0xF#32).toNat = ws ∧
      ((BitVec.ofNat 32 ws <<< 0 ||| acrPrften ||| acrIcen ||| acrDcen) &&& 0xF#32).toNat =
        ws := by
  decide

theorem flashSetAcr_mem {hclk : Nat} {r r' : Regs} (h : r' ∈ flashSetAcr hclk r) :
    r'.pllcfgr = r.pllcfgr ∧ r'.cfgr = r.cfgr ∧ r'.latency = flashWsFor hclk := by
  obtain ⟨hoff, hflush, hon⟩ := acr_latency (flashWsFor hclk) (flashWsFor_lt hclk)
  simp only [flashSetAcr, List.mem_cons, List.not_mem_nil, or_false] at h
  rcases h with rfl | rfl | rfl | rfl
  · exact ⟨rfl, rfl, hoff⟩
  · exact ⟨rfl, rfl, hflush⟩
  · exact ⟨rfl, rfl, hoff⟩
  · exact ⟨rfl, rfl, hon⟩

theorem flashSetAcr_last (hclk : Nat) (r d : Regs) :
    (flashSetAcr hclk r).getLastD d ∈ flashSetAcr hclk r := by
  simp [flashSetAcr]

theorem writePrescalers_tree (bits : BitVec 32 × BitVec 32 × BitVec 32) (r : Regs) :
    (writePrescalers bits r).pllcfgr = r.pllcfgr ∧ (writePrescalers bits r).acr = r.acr :=
  ⟨rfl, rfl⟩

theorem switchSysclk_tree (source : ClockSource) (r : Regs) :
    (switchSysclk source r).2.pllcfgr = r.pllcfgr ∧ (switchSysclk source r).2.acr = r.acr := by
  unfold switchSysclk
  rw [waitOrTimeout_snd]
  cases source <;> exact ⟨rfl, rfl⟩

theorem waitOrTimeout_ok {cond : Regs → Bool} {r : Regs}
    (h : (waitOrTimeout cond r).1 = .ok) : cond (waitOrTimeout cond r).2 = false := by
  unfold waitOrTimeout at h ⊢
  by_cases hc : cond r = true
  · rw [if_pos hc] at h
    contradiction
  · rw [if_neg hc]
    simpa using hc

theorem switchSysclk_sws {source : ClockSource} {r : Regs}
    (h : (switchSysclk source r).1 = .ok) : (switchSysclk source r).2.sws = source.sw := by
  have hsws : ((switchSysclk source r).2.sws != source.sw) = false := waitOrTimeout_ok h
  exact bne_eq_false_iff_eq.mp hsws

theorem prescalers_eq_some {b : Board} {cfg : ClockConfig}
    {bits : BitVec 32 × BitVec 32 × BitVec 32} (h : cfg.prescalers b = some bits) :
    targetSysclkHz b cfg ≠ 0 ∧ hpreEncode cfg.hpre = some bits.1 ∧
      ppreEncode (cfg.ppre1 b) = some bits.2.1 ∧ ppreEncode (cfg.ppre2 b) = some bits.2.2 := by
  unfold ClockConfig.prescalers at h
  split at h
  · contradiction
  · rename_i hzero
    split at h
    · rename_i hpre ppre1 ppre2 hh h1 h2
      cases h
      exact ⟨hzero, hh, h1, h2⟩
    · contradiction

/-- What is asked for is accepted. -/
structure Accepted (b : Board) (cfg : ClockConfig) : Prop where
  target : targetSysclkHz b cfg ≠ 0
  hpre : 0 < cfg.hpre
  ppre1 : 0 < cfg.ppre1 b
  ppre2 : 0 < cfg.ppre2 b

/-- The three codes are read back after the switch. -/
theorem switchSysclk_codes {bits : BitVec 32 × BitVec 32 × BitVec 32} (h : bits.1.toNat < 16)
    (h1 : bits.2.1.toNat < 8) (h2 : bits.2.2.toNat < 8) (source : ClockSource) (s : Regs) :
    (switchSysclk source (writePrescalers bits s)).2.hpreField = bits.1 ∧
      (switchSysclk source (writePrescalers bits s)).2.ppre1Field = bits.2.1 ∧
      (switchSysclk source (writePrescalers bits s)).2.ppre2Field = bits.2.2 := by
  obtain ⟨f4, f10, f13⟩ := @writePrescalers_fields bits.1 bits.2.1 bits.2.2 h h1 s
  have k4 := @switchSysclk_field 4 4 (by decide) (by decide) source (writePrescalers bits s)
  have k10 := @switchSysclk_field 10 3 (by decide) (by decide) source (writePrescalers bits s)
  have k13 := @switchSysclk_field 13 3 (by decide) (by decide) source (writePrescalers bits s)
  refine ⟨?_, ?_, ?_⟩
  · exact read_code (by decide) h (k4.trans f4)
  · exact read_code (by decide) h1 (k10.trans f10)
  · exact read_code (by decide) h2 (k13.trans f13)

theorem programmed_of_switch {b : Board} {cfg : ClockConfig}
    {bits : BitVec 32 × BitVec 32 × BitVec 32} (hbits : cfg.prescalers b = some bits) {s : Regs}
    (hpll : cfg.source = .pll → s.pllcfgr = cfg.pll.word)
    (h : (switchSysclk cfg.source (writePrescalers bits s)).1 = .ok) :
    Programmed b cfg (switchSysclk cfg.source (writePrescalers bits s)).2 := by
  obtain ⟨-, hh, h1, h2⟩ := prescalers_eq_some hbits
  obtain ⟨hdec, hlt, -⟩ := hpreEncode_eq_some hh
  obtain ⟨hdec1, hlt1, -⟩ := ppreEncode_eq_some h1
  obtain ⟨hdec2, hlt2, -⟩ := ppreEncode_eq_some h2
  obtain ⟨f4, f10, f13⟩ := switchSysclk_codes hlt hlt1 hlt2 cfg.source s
  constructor
  · exact switchSysclk_sws h
  · intro hsrc
    rw [(switchSysclk_tree _ _).1, (writePrescalers_tree bits s).1]
    exact hpll hsrc
  · rw [f4]
    exact hdec
  · rw [f10]
    exact hdec1
  · rw [f13]
    exact hdec2

/-- Every register state since the switch, and the one at the return, selects the
tree that was asked for.  The wait states are those for the target, but for other
sources than the PLL they are those from before until they are written. -/
structure InitSpec (b : Board) (cfg : ClockConfig) (r : Regs) (res : InitResult) : Prop where
  accepted : Accepted b cfg
  last : res.regs ∈ res.running
  tree : ∀ r' ∈ res.running, Programmed b cfg r'
  latency : ∀ r' ∈ res.running,
    r'.latency = flashWsFor (targetSysclkHz b cfg) ∨ cfg.source ≠ .pll ∧ r'.latency = r.latency
  before : cfg.source ≠ .pll → ∃ r' ∈ res.running, r'.latency = r.latency

section

variable {b : Board} {cfg : ClockConfig} {r : Regs}

/-- What remains after a check in a chain of early returns. -/
theorem not_stopped {c : Prop} [Decidable c] {status : HalStatus} {res : InitResult}
    (hstatus : c → status ≠ .ok)
    (h : (if c then InitResult.stop status r else res).status = .ok) : ¬ c := by
  intro hc
  rw [if_pos hc] at h
  exact hstatus hc h

theorem initSpec_pll {t : Regs} (hacc : Accepted b cfg) (hprog : Programmed b cfg t)
    (hsrc : cfg.source = .pll) (hlat : t.latency = flashWsFor (targetSysclkHz b cfg)) :
    InitSpec b cfg r { status := .ok, regs := t, running := [t] } where
  accepted := hacc
  last := List.mem_singleton_self t
  tree := by
    intro r' hr'
    rw [List.mem_singleton.mp hr']
    exact hprog
  latency := by
    intro r' hr'
    rw [List.mem_singleton.mp hr']
    exact Or.inl hlat
  before := fun hne => absurd hsrc hne

theorem initSpec_oscillator {t : Regs} (hacc : Accepted b cfg) (hprog : Programmed b cfg t)
    (hsrc : cfg.source ≠ .pll) (hlat : t.latency = r.latency) :
    InitSpec b cfg r
      { status := .ok
        regs := (flashSetAcr (targetSysclkHz b cfg) t).getLastD t
        running := t :: flashSetAcr (targetSysclkHz b cfg) t } where
  accepted := hacc
  last := List.mem_cons_of_mem t (flashSetAcr_last (targetSysclkHz b cfg) t t)
  tree := by
    intro r' hr'
    rcases List.mem_cons.mp hr' with rfl | hmem
    · exact hprog
    · obtain ⟨hp, hc, -⟩ := flashSetAcr_mem hmem
      exact hprog.of_tree hp hc
  latency := by
    intro r' hr'
    rcases List.mem_cons.mp hr' with rfl | hmem
    · exact Or.inr ⟨hsrc, hlat⟩
    · exact Or.inl (flashSetAcr_mem hmem).2.2
  before := fun _ => ⟨t, List.mem_cons_self, hlat⟩

theorem prescalers_accepted {bits : BitVec 32 × BitVec 32 × BitVec 32}
    (hbits : cfg.prescalers b = some bits) : Accepted b cfg := by
  obtain ⟨htarget, hh, h1, h2⟩ := prescalers_eq_some hbits
  exact ⟨htarget, (hpreEncode_eq_some hh).2.2, (ppreEncode_eq_some h1).2.2,
    (ppreEncode_eq_some h2).2.2⟩

theorem stm32ClockInit_ok (h : (stm32ClockInit b cfg r).status = .ok) :
    InitSpec b cfg r (stm32ClockInit b cfg r) := by
  unfold stm32ClockInit at h ⊢
  have hparams := not_stopped (fun _ => by decide) h
  rw [if_neg hparams] at h ⊢
  dsimp only at h ⊢
  have hstart := not_stopped id h
  rw [if_neg hstart] at h ⊢
  obtain ⟨hacr, hword⟩ := startSource_ok (not_not.mp hstart)
  generalize (startSource b cfg r).2 = s0 at h hacr hword ⊢
  -- the register state in which the prescalers are written
  generalize hs : (if cfg.source = .pll then
    (flashSetAcr (targetSysclkHz b cfg) s0).getLastD s0 else s0) = s at h ⊢
  have hlast := flashSetAcr_mem (flashSetAcr_last (targetSysclkHz b cfg) s0 s0)
  have hspll : cfg.source = .pll → s.pllcfgr = cfg.pll.word := by
    intro hsrc
    rw [if_pos hsrc] at hs
    rw [← hs, hlast.1]
    exact hword hsrc
  cases hbits : cfg.prescalers b with
  | none =>
    rw [hbits] at h
    contradiction
  | some bits =>
    rw [hbits] at h
    dsimp only at h ⊢
    have hswitch := not_stopped id h
    rw [if_neg hswitch]
    have hprog := programmed_of_switch hbits hspll (not_not.mp hswitch)
    have htacr : (switchSysclk cfg.source (writePrescalers bits s)).2.acr = s.acr :=
      (switchSysclk_tree _ _).2
    generalize (switchSysclk cfg.source (writePrescalers bits s)).2 = t at hprog htacr ⊢
    have hacc := prescalers_accepted hbits
    have hts : t.latency = s.latency := by
      unfold Regs.latency
      rw [htacr]
    by_cases hsrc : cfg.source = .pll
    · rw [if_neg (not_not.mpr hsrc)]
      rw [if_pos hsrc] at hs
      have hlat : t.latency = flashWsFor (targetSysclkHz b cfg) := by
        rw [hts, ← hs, hlast.2.2]
      exact initSpec_pll hacc hprog hsrc hlat
    · rw [if_pos hsrc]
      rw [if_neg hsrc] at hs
      have hbefore : s0.latency = r.latency := by
        unfold Regs.latency
        rw [hacr]
      have hlat : t.latency = r.latency := by
        rw [hts, ← hs, hbefore]
      exact initSpec_oscillator hacc hprog hsrc hlat

end

end NavHAL.Clock
