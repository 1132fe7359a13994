import NavHAL.Clock.F7Init

/-!
# What a rejected configuration leaves behind

The parameters of the PLL are checked before anything is written.  A target of 0 Hz and a
divider that no field can express are found out when the oscillators, the PLL, the
over-drive and the wait states are set.
-/

namespace NavHAL.Clock

open BitField

/-! ## The ready bits -/

def crEnables : BitVec 32 := crHseon ||| crHsion ||| crPllon

/-- Every ready bit is put where its enable is. -/
def settle (v : BitVec 32) : BitVec 32 :=
  (v &&& ~~~(crEnables <<< 1)) ||| ((v &&& crEnables) <<< 1)

def IsReady (i : Nat) : Prop := i = 1 ∨ i = 17 ∨ i = 25

instance (i : Nat) : Decidable (IsReady i) := inferInstanceAs (Decidable (_ ∨ _))

theorem crEnables_getLsbD : ∀ i < 32, crEnables.getLsbD i = decide (IsReady (i + 1)) := by
  decide

theorem settle_getLsbD (v : BitVec 32) {i : Nat} (hi : i < 32) :
    (settle v).getLsbD i = if IsReady i then v.getLsbD (i - 1) else v.getLsbD i := by
  cases i with
  | zero =>
    have hno : ¬ IsReady 0 := by decide
    simp [settle, hno]
  | succ i =>
    have hi' : i < 32 := by omega
    have hlow : ¬ i + 1 < 1 := by omega
    simp only [settle, BitVec.getLsbD_or, BitVec.getLsbD_and, BitVec.getLsbD_not,
      BitVec.getLsbD_shiftLeft, hi, hlow, Nat.add_sub_cancel, crEnables_getLsbD i hi',
      decide_true, decide_false, Bool.not_false, Bool.true_and]
    by_cases hready : IsReady (i + 1)
    · simp [hready]
    · simp [hready]

/-- The ready bits of the word do not matter. -/
theorem settle_congr {u v : BitVec 32}
    (h : ∀ i < 32, ¬ IsReady i → u.getLsbD i = v.getLsbD i) : settle u = settle v := by
  apply BitVec.eq_of_getLsbD_eq
  intro i hi
  rw [settle_getLsbD u hi, settle_getLsbD v hi]
  split
  · rename_i hready
    unfold IsReady at hready
    refine h (i - 1) (by omega) ?_
    unfold IsReady
    omega
  · rename_i hno
    exact h i hi hno

theorem settle_or (u v : BitVec 32) : settle (settle u ||| v) = settle (u ||| v) := by
  apply settle_congr
  intro i hi hno
  rw [BitVec.getLsbD_or, BitVec.getLsbD_or, settle_getLsbD u hi, if_neg hno]

theorem settle_settle (v : BitVec 32) : settle (settle v) = settle v := by
  apply settle_congr
  intro i hi hno
  rw [settle_getLsbD v hi, if_neg hno]

/-- A word is what its enables make of it when they are on and the ready bits follow. -/
theorem settle_or_eq_self {u v : BitVec 32} (hv : ∀ i < 32, IsReady i → v.getLsbD i = false) :
    settle (u ||| v) = u ↔ settle u = u ∧ u ||| v = u := by
  constructor
  · intro h
    have hsettled : settle u = u := by
      have htwice := settle_settle (u ||| v)
      rwa [h] at htwice
    refine ⟨hsettled, ?_⟩
    apply BitVec.eq_of_getLsbD_eq
    intro i hi
    by_cases hready : IsReady i
    · rw [BitVec.getLsbD_or, hv i hi hready, Bool.or_false]
    · have hbit : (settle (u ||| v)).getLsbD i = u.getLsbD i := by rw [h]
      rwa [settle_getLsbD _ hi, if_neg hready] at hbit
  · rintro ⟨hsettled, hon⟩
    rw [hon, hsettled]

/-! ## Writes to `RCC_CR` -/

theorem crIsSet_eq {i : Nat} (hi : i < 32) (r : Regs) :
    crIsSet (1#32 <<< i) r = r.cr.getLsbD i := by
  have hbit := bit_ne_zero_iff r.cr hi
  unfold crIsSet
  cases h : r.cr.getLsbD i with
  | false =>
    rw [h] at hbit
    simpa using hbit
  | true =>
    rw [h] at hbit
    simpa using hbit

theorem writeCr_or (r : Regs) (bit : BitVec 32) :
    r.writeCr (r.cr ||| bit) = { r with cr := settle (r.cr ||| bit) } := by
  have hheld : r.cr ||| bit ||| (r.cr &&& r.held) = r.cr ||| bit := by
    apply BitVec.eq_of_getLsbD_eq
    intro i _
    simp only [BitVec.getLsbD_or, BitVec.getLsbD_and]
    cases r.cr.getLsbD i <;> simp
  unfold Regs.writeCr
  dsimp only
  rw [hheld]
  rfl

section

variable {i : Nat} (hi : i < 32) (r : Regs)

include hi

theorem shiftOne_getLsbD (j : Nat) :
    (1#32 <<< i).getLsbD j = decide (i = j) := by
  rw [← BitVec.twoPow_eq, BitVec.getLsbD_twoPow]
  simp [hi]

/-- An enable that the hardware does not hold goes off. -/
theorem writeCr_off (h : (r.cr.getLsbD i && r.held.getLsbD i) = false) :
    r.writeCr (r.cr &&& ~~~(1#32 <<< i)) = { r with cr := settle (r.cr &&& ~~~(1#32 <<< i)) } := by
  have hheld : (r.cr &&& ~~~(1#32 <<< i)) ||| (r.cr &&& r.held) = r.cr &&& ~~~(1#32 <<< i) := by
    apply BitVec.eq_of_getLsbD_eq
    intro j hj
    simp only [BitVec.getLsbD_or, BitVec.getLsbD_and, BitVec.getLsbD_not, hj, decide_true,
      Bool.true_and, shiftOne_getLsbD hi j]
    by_cases hij : i = j
    · rw [← hij, h, Bool.or_false]
    · simp only [hij, decide_false, Bool.not_false, Bool.and_true]
      cases r.cr.getLsbD j <;> simp
  unfold Regs.writeCr
  dsimp only
  rw [hheld]
  rfl

/-- One that it holds keeps its ready bit. -/
theorem writeCr_held (hready : IsReady (i + 1)) (h : (r.cr.getLsbD i && r.held.getLsbD i) = true) :
    (r.writeCr (r.cr &&& ~~~(1#32 <<< i))).cr.getLsbD (i + 1) = true := by
  have hi' : i + 1 < 32 := by
    unfold IsReady at hready
    omega
  show (settle ((r.cr &&& ~~~(1#32 <<< i)) ||| (r.cr &&& r.held))).getLsbD (i + 1) = true
  have hkept : (r.cr &&& r.held).getLsbD i = true := by rwa [BitVec.getLsbD_and]
  rw [settle_getLsbD _ hi', if_pos hready, Nat.add_sub_cancel, BitVec.getLsbD_or, hkept,
    Bool.or_true]

end

/-! ## Starting the source -/

/-- The bits of `RCC_CR` that an oscillator needs. -/
def oscillatorBits (b : Board) : ClockSource → BitVec 32
  | .hse => crHseon ||| (if b.hseBypass then crHsebyp else 0)
  | .hsi => crHsion
  | .pll => 0

/-- The bypass cannot be set: HSE is on without it and feeds SYSCLK. -/
def BypassHeld (b : Board) (osc : ClockSource) (r : Regs) : Prop :=
  osc = .hse ∧ b.hseBypass = true ∧ crIsSet crHsebyp r = false ∧ crIsSet crHseon r = true ∧
    r.held &&& crHseon ≠ 0

/-- The PLL cannot be turned off: it drives SYSCLK. -/
def PllHeld (r : Regs) : Prop := crIsSet crPllon r = true ∧ r.sws = 2

theorem orReturn_of_ok (r : Regs) (next : Regs → HalStatus × Regs) :
    orReturn (.ok, r) next = next r :=
  rfl

theorem waitOrTimeout_over {cond : Regs → Bool} {r : Regs} (h : cond r = false) :
    waitOrTimeout cond r = (.ok, r) := by
  unfold waitOrTimeout
  rw [if_neg (Bool.eq_false_iff.mp h)]

theorem waitOrTimeout_status (cond : Regs → Bool) (r : Regs) :
    (waitOrTimeout cond r).1 ≠ .errInvalidArg := by
  unfold waitOrTimeout
  split <;> exact HalStatus.noConfusion

theorem waitOrTimeout_set {i : Nat} (hi : i < 32) (r : Regs) :
    waitOrTimeout (fun r => crIsSet (1#32 <<< i) r != true) r =
      if r.cr.getLsbD i then (.ok, r) else (.errTimeout, r) := by
  simp only [waitOrTimeout, crIsSet_eq hi]
  cases r.cr.getLsbD i <;> rfl

/-- An enable that is written goes on, and its ready bit follows. -/
theorem enable_ready {i : Nat} (hi : i < 32) (hready : IsReady (i + 1)) (r : Regs) :
    waitOrTimeout (fun r => crIsSet (1#32 <<< (i + 1)) r != true) (r.writeCr (r.cr ||| 1#32 <<< i)) =
      (.ok, { r with cr := settle (r.cr ||| 1#32 <<< i) }) := by
  have hi' : i + 1 < 32 := by
    unfold IsReady at hready
    omega
  have hon : (settle (r.cr ||| 1#32 <<< i)).getLsbD (i + 1) = true := by
    rw [settle_getLsbD _ hi', if_pos hready, Nat.add_sub_cancel, BitVec.getLsbD_or,
      shiftOne_getLsbD hi i, decide_eq_true rfl, Bool.or_true]
  rw [writeCr_or, waitOrTimeout_set hi', if_pos hon]

theorem hse_ready (r : Regs) :
    waitOrTimeout (fun r => crIsSet crHserdy r != true) (r.writeCr (r.cr ||| crHseon)) =
      (.ok, { r with cr := settle (r.cr ||| crHseon) }) :=
  @enable_ready 16 (by decide) (by decide) r

theorem hsi_ready (r : Regs) :
    waitOrTimeout (fun r => crIsSet crHsirdy r != true) (r.writeCr (r.cr ||| crHsion)) =
      (.ok, { r with cr := settle (r.cr ||| crHsion) }) :=
  @enable_ready 0 (by decide) (by decide) r

theorem pll_ready (r : Regs) :
    waitOrTimeout (fun r => crIsSet crPllrdy r != true) (r.writeCr (r.cr ||| crPllon)) =
      (.ok, { r with cr := settle (r.cr ||| crPllon) }) :=
  @enable_ready 24 (by decide) (by decide) r

theorem bypassHeld_iff {b : Board} (hb : b.hseBypass = true) {r : Regs}
    (hbyp : crIsSet crHsebyp r = false) :
    BypassHeld b .hse r ↔ (r.cr.getLsbD 16 && r.held.getLsbD 16) = true := by
  have hon : crIsSet crHseon r = r.cr.getLsbD 16 := crIsSet_eq (by decide) r
  have hheld : r.held &&& crHseon ≠ 0 ↔ r.held.getLsbD 16 = true := bit_ne_zero_iff _ (by decide)
  unfold BypassHeld
  rw [hheld, hon, Bool.and_eq_true]
  simp [hb, hbyp]

/-- The bypass is written between two writes of the enable. -/
theorem toggleHseClock_bypass {b : Board} (hb : b.hseBypass = true) {r : Regs}
    (hbyp : crIsSet crHsebyp r = false) (hfree : (r.cr.getLsbD 16 && r.held.getLsbD 16) = false) :
    toggleHseClock b true r =
      (.ok, { r with cr := settle (r.cr ||| (crHseon ||| crHsebyp)) }) := by
  have hoff := writeCr_off (by decide) r hfree
  have hready : crIsSet crHserdy (r.writeCr (r.cr &&& ~~~crHseon)) = false := by
    have hno : (settle (r.cr &&& ~~~crHseon)).getLsbD 17 = false := by
      rw [settle_getLsbD _ (by decide), if_pos (by decide), BitVec.getLsbD_and,
        BitVec.getLsbD_not]
      simp [crHseon]
    have hset := @crIsSet_eq 17 (by decide) (r.writeCr (r.cr &&& ~~~crHseon))
    rw [show r.writeCr (r.cr &&& ~~~crHseon) = _ from hoff] at hset ⊢
    exact hset.trans hno
  have hword : settle (settle (settle (r.cr &&& ~~~crHseon) ||| crHsebyp) ||| crHseon) =
      settle (r.cr ||| (crHseon ||| crHsebyp)) := by
    rw [settle_or, BitVec.or_assoc, settle_or]
    congr 1
    apply BitVec.eq_of_getLsbD_eq
    intro i hi
    simp only [BitVec.getLsbD_or, BitVec.getLsbD_and, BitVec.getLsbD_not, hi, decide_true,
      Bool.true_and]
    cases r.cr.getLsbD i <;> cases crHseon.getLsbD i <;> cases crHsebyp.getLsbD i <;> rfl
  have hwait : waitOrTimeout (crIsSet crHserdy) (r.writeCr (r.cr &&& ~~~crHseon)) =
      (.ok, { r with cr := settle (r.cr &&& ~~~crHseon) }) := by
    rw [waitOrTimeout_over hready]
    exact congrArg (Prod.mk HalStatus.ok) hoff
  have hcond : (b.hseBypass && !crIsSet crHsebyp r) = true := by
    rw [hb, hbyp]
    rfl
  unfold toggleHseClock
  rw [if_pos rfl, if_pos hcond, hwait]
  rw [orReturn_of_ok, orReturn_of_ok, hse_ready, writeCr_or]
  dsimp only
  rw [hword]

theorem toggleHseClock_eq (b : Board) (r : Regs) (hfree : ¬ BypassHeld b .hse r) :
    toggleHseClock b true r =
      (.ok, { r with cr := settle (r.cr ||| oscillatorBits b .hse) }) := by
  cases hb : b.hseBypass with
  | false =>
    have hbits : oscillatorBits b .hse = crHseon := by simp [oscillatorBits, hb]
    unfold toggleHseClock
    rw [hbits, if_pos rfl, hb, Bool.false_and, if_neg Bool.false_ne_true, orReturn_of_ok, hse_ready]
  | true =>
    have hbits : oscillatorBits b .hse = crHseon ||| crHsebyp := by simp [oscillatorBits, hb]
    rw [hbits]
    cases hbyp : crIsSet crHsebyp r with
    | false =>
      rw [bypassHeld_iff hb hbyp, Bool.not_eq_true] at hfree
      exact toggleHseClock_bypass hb hbyp hfree
    | true =>
      have hon : r.cr ||| (crHseon ||| crHsebyp) = r.cr ||| crHseon := by
        have hbit : r.cr.getLsbD 18 = true := (@crIsSet_eq 18 (by decide) r).symm.trans hbyp
        apply BitVec.eq_of_getLsbD_eq
        intro i hi
        have hb18 : crHsebyp.getLsbD i = decide (18 = i) := shiftOne_getLsbD (by decide) i
        simp only [BitVec.getLsbD_or, hb18]
        by_cases h18 : 18 = i
        · rw [← h18, hbit]
          rfl
        · rw [decide_eq_false h18, Bool.or_false]
      unfold toggleHseClock
      rw [if_pos rfl, hbyp, Bool.not_true, Bool.and_false, if_neg Bool.false_ne_true,
        orReturn_of_ok, hse_ready, hon]

theorem toggleHseClock_timeout {b : Board} {r : Regs} (hheld : BypassHeld b .hse r) :
    (toggleHseClock b true r).1 = .errTimeout := by
  have hb := hheld.2.1
  have hbyp := hheld.2.2.1
  have hkept := writeCr_held (by decide) r (by decide) ((bypassHeld_iff hb hbyp).mp hheld)
  have hset := @crIsSet_eq 17 (by decide) (r.writeCr (r.cr &&& ~~~crHseon))
  have hready : crIsSet crHserdy (r.writeCr (r.cr &&& ~~~crHseon)) = true := hset.trans hkept
  have hcond : (b.hseBypass && !crIsSet crHsebyp r) = true := by
    rw [hb, hbyp]
    rfl
  unfold toggleHseClock
  rw [if_pos rfl, if_pos hcond]
  simp [orReturn, waitOrTimeout, hready]

theorem toggleHsiClock_eq (r : Regs) :
    toggleHsiClock true r = (.ok, { r with cr := settle (r.cr ||| crHsion) }) := by
  unfold toggleHsiClock
  rw [if_pos rfl]
  exact hsi_ready r

/-! ## The PLL -/

theorem togglePllClock_on (r : Regs) :
    togglePllClock true r = (.ok, { r with cr := settle (r.cr ||| crPllon) }) := by
  unfold togglePllClock
  rw [if_pos rfl]
  exact pll_ready r

theorem writePll_eq (pll : PllConfig) (r : Regs) :
    writePll pll r = { r with pllcfgr := pll.word } := by
  have hword := writePll_pllcfgr pll r
  have hcr : (writePll pll r).cr = r.cr ∧ (writePll pll r).cfgr = r.cfgr := by
    unfold writePll
    split <;> exact ⟨rfl, rfl⟩
  have hacr := writePll_acr pll r
  generalize writePll pll r = s at *
  obtain ⟨cr, pllcfgr, cfgr, acr⟩ := s
  obtain ⟨rfl, rfl⟩ := hcr
  cases hword
  cases hacr
  rfl

/-- PLLON is held by the PLL alone. -/
theorem held_pllon (r : Regs) : r.held.getLsbD 24 = decide (r.sws = 2) := by
  unfold Regs.held
  by_cases h2 : r.sws = 2
  · rw [if_pos h2, decide_eq_true h2]
    split <;> decide
  · rw [if_neg h2, decide_eq_false h2]
    split <;> decide

/-- The PLL off, its parameters, and on again. -/
def restartPll (pll : PllConfig) (r : Regs) : HalStatus × Regs :=
  orReturn (togglePllClock false r) fun r => togglePllClock true (writePll pll r)

theorem restartPll_eq (pll : PllConfig) {r : Regs} (hfree : ¬ PllHeld r) :
    restartPll pll r =
      (.ok, { r with cr := settle (r.cr ||| crPllon), pllcfgr := pll.word }) := by
  have hheld : (r.cr.getLsbD 24 && r.held.getLsbD 24) = false := by
    rw [held_pllon]
    have hon : crIsSet crPllon r = r.cr.getLsbD 24 := crIsSet_eq (by decide) r
    unfold PllHeld at hfree
    rw [hon] at hfree
    simpa using hfree
  have hoff := writeCr_off (by decide) r hheld
  have hready : crIsSet crPllrdy (r.writeCr (r.cr &&& ~~~crPllon)) = false := by
    have hno : (settle (r.cr &&& ~~~crPllon)).getLsbD 25 = false := by
      rw [settle_getLsbD _ (by decide), if_pos (by decide), BitVec.getLsbD_and,
        BitVec.getLsbD_not]
      simp [crPllon]
    have hset := @crIsSet_eq 25 (by decide) (r.writeCr (r.cr &&& ~~~crPllon))
    rw [show r.writeCr (r.cr &&& ~~~crPllon) = _ from hoff] at hset ⊢
    exact hset.trans hno
  have hstop : togglePllClock false r =
      (.ok, { r with cr := settle (r.cr &&& ~~~crPllon) }) := by
    have hover : (fun r => crIsSet crPllrdy r != false) (r.writeCr (r.cr &&& ~~~crPllon)) = false := by
      dsimp only
      rw [hready]
      rfl
    unfold togglePllClock
    rw [if_neg Bool.false_ne_true]
    dsimp only
    rw [waitOrTimeout_over hover]
    exact congrArg (Prod.mk HalStatus.ok) hoff
  have hword : settle (settle (r.cr &&& ~~~crPllon) ||| crPllon) = settle (r.cr ||| crPllon) := by
    rw [settle_or]
    congr 1
    apply BitVec.eq_of_getLsbD_eq
    intro i hi
    simp only [BitVec.getLsbD_or, BitVec.getLsbD_and, BitVec.getLsbD_not, hi, decide_true,
      Bool.true_and]
    cases r.cr.getLsbD i <;> cases crPllon.getLsbD i <;> rfl
  unfold restartPll
  rw [hstop, orReturn_of_ok, writePll_eq, togglePllClock_on]
  dsimp only
  rw [hword]

theorem restartPll_timeout (pll : PllConfig) {r : Regs} (hheld : PllHeld r) :
    (restartPll pll r).1 = .errTimeout := by
  have hon : crIsSet crPllon r = r.cr.getLsbD 24 := crIsSet_eq (by decide) r
  have hboth : (r.cr.getLsbD 24 && r.held.getLsbD 24) = true := by
    rw [held_pllon, ← hon, hheld.1, decide_eq_true hheld.2]
    rfl
  have hkept := writeCr_held (by decide) r (by decide) hboth
  have hset := @crIsSet_eq 25 (by decide) (r.writeCr (r.cr &&& ~~~crPllon))
  have hready : crIsSet crPllrdy (r.writeCr (r.cr &&& ~~~crPllon)) = true := hset.trans hkept
  simp [restartPll, togglePllClock, orReturn, waitOrTimeout, hready]

/-! ## The source as a whole -/

section

variable (b : Board) (cfg : ClockConfig) (osc : ClockSource)

/-- The source `cfg.source`, a PLL being fed by `osc`. -/
def startFrom (r : Regs) : HalStatus × Regs :=
  if cfg.source = .pll then orReturn (startOscillator b osc r) (restartPll cfg.pll)
  else startOscillator b osc r

def StartTimesOut (r : Regs) : Prop :=
  BypassHeld b osc r ∨ cfg.source = .pll ∧ PllHeld r

def enableBits : BitVec 32 :=
  oscillatorBits b osc ||| (if cfg.source = .pll then crPllon else 0)

def started (r : Regs) : Regs :=
  { r with
    cr := settle (r.cr ||| enableBits b cfg osc)
    pllcfgr := if cfg.source = .pll then cfg.pll.word else r.pllcfgr }

/-- The source runs already, as it is asked for. -/
structure Running (r : Regs) : Prop where
  settled : settle r.cr = r.cr
  enabled : r.cr ||| enableBits b cfg osc = r.cr
  pllcfgr : cfg.source = .pll → r.pllcfgr = cfg.pll.word

/-- No ready bit is among the enables, and PLLON is not among those of an oscillator. -/
theorem oscillatorBits_getLsbD {i : Nat} (hi : i < 32) (h : IsReady i ∨ i = 24) :
    (oscillatorBits b osc).getLsbD i = false := by
  have hconst : ∀ i < 32, IsReady i ∨ i = 24 →
      crHseon.getLsbD i = false ∧ crHsebyp.getLsbD i = false ∧ crHsion.getLsbD i = false := by
    decide
  obtain ⟨hhse, hbyp, hhsi⟩ := hconst i hi h
  cases osc with
  | hse =>
    show (crHseon ||| if b.hseBypass then crHsebyp else 0).getLsbD i = false
    rw [BitVec.getLsbD_or, hhse, Bool.false_or]
    split
    · exact hbyp
    · exact BitVec.getLsbD_zero
  | hsi => exact hhsi
  | pll => exact BitVec.getLsbD_zero

theorem enableBits_getLsbD {i : Nat} (hi : i < 32) (hready : IsReady i) :
    (enableBits b cfg osc).getLsbD i = false := by
  have hpllon : ∀ i < 32, IsReady i → crPllon.getLsbD i = false := by decide
  unfold enableBits
  rw [BitVec.getLsbD_or, oscillatorBits_getLsbD b osc hi (Or.inl hready), Bool.false_or]
  split
  · exact hpllon i hi hready
  · exact BitVec.getLsbD_zero

variable {b cfg osc} {r : Regs}

theorem started_eq_self : started b cfg osc r = r ↔ Running b cfg osc r := by
  have hcr := @settle_or_eq_self r.cr (enableBits b cfg osc)
    fun i hi => enableBits_getLsbD b cfg osc hi
  constructor
  · intro h
    have hcr' : settle (r.cr ||| enableBits b cfg osc) = r.cr := congrArg Regs.cr h
    have hpll : (if cfg.source = .pll then cfg.pll.word else r.pllcfgr) = r.pllcfgr :=
      congrArg Regs.pllcfgr h
    obtain ⟨hsettled, hon⟩ := hcr.mp hcr'
    refine ⟨hsettled, hon, ?_⟩
    intro hsrc
    rw [if_pos hsrc] at hpll
    exact hpll.symm
  · rintro ⟨hsettled, hon, hpll⟩
    unfold started
    rw [hcr.mpr ⟨hsettled, hon⟩]
    by_cases hsrc : cfg.source = .pll
    · rw [if_pos hsrc, ← hpll hsrc]
    · rw [if_neg hsrc]

theorem startOscillator_eq (hfree : ¬ BypassHeld b osc r) (hosc : osc ≠ .pll) :
    startOscillator b osc r = (.ok, { r with cr := settle (r.cr ||| oscillatorBits b osc) }) := by
  cases osc with
  | hse => exact toggleHseClock_eq b r hfree
  | hsi => exact toggleHsiClock_eq r
  | pll => exact absurd rfl hosc

/-- The start of an oscillator does not touch the PLL. -/
theorem pllHeld_started :
    PllHeld { r with cr := settle (r.cr ||| oscillatorBits b osc) } ↔ PllHeld r := by
  have hon : ∀ r : Regs, crIsSet crPllon r = r.cr.getLsbD 24 := crIsSet_eq (by decide)
  have hbit : (settle (r.cr ||| oscillatorBits b osc)).getLsbD 24 = r.cr.getLsbD 24 := by
    rw [settle_getLsbD _ (by decide), if_neg (by decide), BitVec.getLsbD_or,
      oscillatorBits_getLsbD b osc (by decide) (Or.inr rfl), Bool.or_false]
  unfold PllHeld
  rw [hon, hon, hbit]
  exact Iff.rfl

theorem startFrom_eq (hosc : osc = .pll → cfg.source = .pll)
    (h : ¬ StartTimesOut b cfg osc r) :
    startFrom b cfg osc r = (.ok, started b cfg osc r) := by
  have hbyp : ¬ BypassHeld b osc r := fun hb => h (Or.inl hb)
  unfold startFrom started enableBits
  by_cases hsrc : cfg.source = .pll
  · have hfree : ¬ PllHeld r := fun hp => h (Or.inr ⟨hsrc, hp⟩)
    rw [if_pos hsrc, if_pos hsrc, if_pos hsrc]
    by_cases hpll : osc = .pll
    · rw [hpll]
      show orReturn (.ok, r) _ = _
      rw [orReturn_of_ok, restartPll_eq cfg.pll hfree]
      unfold oscillatorBits
      rw [show (0 : BitVec 32) ||| crPllon = crPllon from BitVec.zero_or]
    · rw [startOscillator_eq hbyp hpll, orReturn_of_ok,
        restartPll_eq cfg.pll (mt pllHeld_started.mp hfree)]
      dsimp only
      rw [settle_or, BitVec.or_assoc]
  · rw [if_neg hsrc, if_neg hsrc, if_neg hsrc]
    rw [startOscillator_eq hbyp fun hpll => hsrc (hosc hpll)]
    rw [show oscillatorBits b osc ||| (0 : BitVec 32) = oscillatorBits b osc from BitVec.or_zero]

theorem startFrom_timeout (h : StartTimesOut b cfg osc r) :
    (startFrom b cfg osc r).1 = .errTimeout := by
  by_cases hbyp : BypassHeld b osc r
  · have hosc := hbyp.1
    rw [hosc] at hbyp
    have hend : (startOscillator b osc r).1 = .errTimeout := by
      rw [hosc]
      exact toggleHseClock_timeout hbyp
    unfold startFrom
    split
    · unfold orReturn
      rw [hend, if_neg (by decide)]
      exact hend
    · exact hend
  · obtain ⟨hsrc, hheld⟩ := h.resolve_left hbyp
    unfold startFrom
    rw [if_pos hsrc]
    by_cases hpll : osc = .pll
    · rw [hpll]
      exact restartPll_timeout cfg.pll hheld
    · rw [startOscillator_eq hbyp hpll, orReturn_of_ok]
      exact restartPll_timeout cfg.pll (pllHeld_started.mpr hheld)

theorem startFrom_status (hosc : osc = .pll → cfg.source = .pll) (r : Regs) :
    (startFrom b cfg osc r).1 ≠ .errInvalidArg := by
  by_cases hto : StartTimesOut b cfg osc r
  · rw [startFrom_timeout hto]
    exact HalStatus.noConfusion
  · rw [startFrom_eq hosc hto]
    exact HalStatus.noConfusion

end

/-! ## The F4 -/

section

variable (b : Board) (cfg : ClockConfig)

/-- The parameters that are checked first. -/
def ZeroPll : Prop :=
  cfg.source = .pll ∧ (cfg.pll.pllM = 0 ∨ cfg.pll.pllN = 0 ∨ cfg.pll.pllP = 0)

def oscillator : ClockSource := if cfg.source = .pll then cfg.pll.inputSrc else cfg.source

/-- What is checked when the source has been started: the target and the dividers. -/
def LateInvalid : Prop :=
  ¬ ZeroPll cfg ∧ (targetSysclkHz b cfg = 0 ∨ hpreEncode cfg.hpre = none ∨
    ppreEncode (cfg.ppre1 b) = none ∨ ppreEncode (cfg.ppre2 b) = none)

/-- The four writes of the flash interface change nothing. -/
def FlashSet (r : Regs) : Prop :=
  (flashSetAcr (targetSysclkHz b cfg) r).getLastD r = r

/-- Where a rejected call has nothing to change. -/
def NothingToDo (r : Regs) : Prop :=
  Running b cfg (oscillator cfg) r ∧ (cfg.source = .pll → FlashSet b cfg r)

variable {b cfg}

theorem prescalers_eq_none : cfg.prescalers b = none ↔
    targetSysclkHz b cfg = 0 ∨ hpreEncode cfg.hpre = none ∨ ppreEncode (cfg.ppre1 b) = none ∨
      ppreEncode (cfg.ppre2 b) = none := by
  unfold ClockConfig.prescalers
  by_cases hzero : targetSysclkHz b cfg = 0
  · simp [hzero]
  · rw [if_neg hzero]
    cases hpreEncode cfg.hpre <;> cases ppreEncode (cfg.ppre1 b) <;>
      cases ppreEncode (cfg.ppre2 b) <;> simp [hzero]

theorem startSource_eq (r : Regs) : startSource b cfg r = startFrom b cfg (oscillator cfg) r := by
  unfold startSource startFrom oscillator restartPll
  cases hsrc : cfg.source with
  | hsi => simp
  | hse => simp
  | pll => simp

theorem oscillator_pll : oscillator cfg = .pll → cfg.source = .pll := by
  unfold oscillator
  split
  · rename_i hsrc
    exact fun _ => hsrc
  · exact id

/-- The register state in which the target and the dividers are checked. -/
def checkedIn (b : Board) (cfg : ClockConfig) (r : Regs) : Regs :=
  if cfg.source = .pll then (flashSetAcr (targetSysclkHz b cfg) r).getLastD r else r

/-- Wait states written over other changes leave nothing changed when neither does. -/
theorem writeAcr_eq_iff (f : BitVec 32 → BitVec 32) {s r : Regs} (hacr : s.acr = r.acr) :
    { s with acr := f s.acr } = r ↔ s = r ∧ { r with acr := f r.acr } = r := by
  obtain ⟨cr, pllcfgr, cfgr, acr⟩ := s
  obtain ⟨cr', pllcfgr', cfgr', acr'⟩ := r
  simp only at hacr
  simp only [Regs.mk.injEq, hacr, and_true, true_and]
  constructor
  · rintro ⟨hcr, hpll, hcfgr, hset⟩
    exact ⟨⟨hcr, hpll, hcfgr⟩, hset⟩
  · rintro ⟨⟨hcr, hpll, hcfgr⟩, hset⟩
    exact ⟨hcr, hpll, hcfgr, hset⟩

theorem checkedIn_eq_self {r : Regs} :
    checkedIn b cfg (started b cfg (oscillator cfg) r) = r ↔ NothingToDo b cfg r := by
  unfold NothingToDo
  rw [← started_eq_self]
  unfold checkedIn FlashSet
  by_cases hsrc : cfg.source = .pll
  · rw [if_pos hsrc, imp_iff_right hsrc]
    exact writeAcr_eq_iff (fun _ => BitVec.ofNat 32 (flashWsFor (targetSysclkHz b cfg)) <<< 0 |||
      acrPrften ||| acrIcen ||| acrDcen) rfl
  · rw [if_neg hsrc]
    exact ⟨fun h => ⟨h, fun hpll => absurd hpll hsrc⟩, fun h => h.1⟩

/-- What the checks of the dividers come down to. -/
theorem init_rejected (hzero : ¬ ZeroPll cfg) (r : Regs) (hnone : cfg.prescalers b = none) :
    stm32ClockInit b cfg r =
      if (startSource b cfg r).1 = .ok then .stop .errInvalidArg (checkedIn b cfg (startSource b cfg r).2)
      else .stop (startSource b cfg r).1 (startSource b cfg r).2 := by
  unfold ZeroPll at hzero
  unfold stm32ClockInit
  rw [if_neg hzero]
  dsimp only
  rw [hnone, ite_not]
  rfl

theorem init_accepted (hzero : ¬ ZeroPll cfg) (r : Regs) (hsome : cfg.prescalers b ≠ none) :
    (stm32ClockInit b cfg r).status ≠ .errInvalidArg := by
  have hstart : (startSource b cfg r).1 ≠ .errInvalidArg := by
    rw [startSource_eq]
    exact startFrom_status oscillator_pll r
  obtain ⟨bits, hbits⟩ := Option.ne_none_iff_exists'.mp hsome
  unfold ZeroPll at hzero
  unfold stm32ClockInit
  rw [if_neg hzero]
  dsimp only
  rw [hbits]
  dsimp only
  generalize (if cfg.source = .pll then
    (flashSetAcr (targetSysclkHz b cfg) (startSource b cfg r).2).getLastD (startSource b cfg r).2
    else (startSource b cfg r).2) = s
  split
  · exact hstart
  · split
    · exact waitOrTimeout_status _ _
    · exact HalStatus.noConfusion

/-- A rejected call changes nothing just when it is the PLL parameters that are rejected, or the
start gives up first, or what is started and set stands so already. -/
theorem stm32ClockInit_invalid_iff (b : Board) (cfg : ClockConfig) (r : Regs) :
    ((stm32ClockInit b cfg r).status = .errInvalidArg → (stm32ClockInit b cfg r).regs = r) ↔
      (LateInvalid b cfg → StartTimesOut b cfg (oscillator cfg) r ∨ NothingToDo b cfg r) := by
  by_cases hzero : ZeroPll cfg
  · have hstop : stm32ClockInit b cfg r = .stop .errInvalidArg r := if_pos hzero
    rw [hstop]
    exact iff_of_true (fun _ => rfl) fun hlate => absurd hzero hlate.1
  · by_cases hnone : cfg.prescalers b = none
    · have hlate : LateInvalid b cfg := ⟨hzero, prescalers_eq_none.mp hnone⟩
      rw [@imp_iff_right _ (LateInvalid b cfg) hlate, init_rejected hzero r hnone, startSource_eq]
      by_cases hto : StartTimesOut b cfg (oscillator cfg) r
      · have hend := startFrom_timeout hto
        have hno : ¬ (startFrom b cfg (oscillator cfg) r).1 = .ok := by
          rw [hend]
          exact HalStatus.noConfusion
        rw [if_neg hno]
        exact iff_of_true (fun h => absurd h (startFrom_status oscillator_pll r)) (Or.inl hto)
      · rw [startFrom_eq oscillator_pll hto, if_pos rfl, or_iff_right hto, ← checkedIn_eq_self]
        exact ⟨fun h => h rfl, fun h _ => h⟩
    · refine iff_of_true (fun h => absurd h (init_accepted hzero r hnone)) fun hlate => ?_
      exact absurd (prescalers_eq_none.mpr hlate.2) hnone

end

/-! ## The F7 -/

namespace F7

section

variable (b : Board) (cfg : ClockConfig)

def oscillator : ClockSource :=
  if cfg.source = .pll then (if cfg.pll.inputSrc = .hse then .hse else .hsi) else cfg.source

def LateInvalid : Prop :=
  ¬ ZeroPll cfg ∧ (cfg.ppre1Div ≠ 0 ∧ ppreEncode cfg.ppre1Div.toNat = none ∨
    cfg.ppre2Div ≠ 0 ∧ ppreEncode cfg.ppre2Div.toNat = none)

def LatencySet (r : Clock.Regs) : Prop := writeLatency (hclk b cfg) r = r

/-- Voltage scale 1, and the over-drive above 180 MHz. -/
def powerBits : BitVec 32 :=
  pwrCr1VosScale1 ||| (if needsOverDrive b cfg then pwrCr1Oden ||| pwrCr1Odswen else 0)

/-- Where a rejected call has nothing to change. -/
structure NothingToDo (r : Regs) : Prop where
  running : Running b cfg (oscillator cfg) r.rcc
  latency : cfg.source = .pll → LatencySet b cfg r.rcc
  power : r.pwrCr1 ||| powerBits b cfg = r.pwrCr1

variable {b cfg}

theorem prescalers_eq_none : prescalers b cfg = none ↔
    cfg.ppre1Div ≠ 0 ∧ ppreEncode cfg.ppre1Div.toNat = none ∨
      cfg.ppre2Div ≠ 0 ∧ ppreEncode cfg.ppre2Div.toNat = none := by
  have hppre : ∀ (asked : UInt16) (auto : BitVec 32) (limit : Nat),
      ppre asked auto (hclk b cfg) limit = none ↔ asked ≠ 0 ∧ ppreEncode asked.toNat = none := by
    intro asked auto limit
    unfold ppre
    by_cases hzero : asked = 0
    · simp [hzero]
    · rw [if_neg hzero]
      cases ppreEncode asked.toNat <;> simp [hzero]
  rw [← hppre cfg.ppre1Div (autoPpre1 (hclk b cfg)) 54000000,
    ← hppre cfg.ppre2Div (autoPpre2 (hclk b cfg)) 108000000]
  unfold prescalers
  dsimp only
  cases ppre cfg.ppre1Div (autoPpre1 (hclk b cfg)) (hclk b cfg) 54000000 <;>
    cases ppre cfg.ppre2Div (autoPpre2 (hclk b cfg)) (hclk b cfg) 108000000 <;> simp

theorem oscillator_ne_pll : oscillator cfg = .pll → cfg.source = .pll := by
  unfold oscillator
  split
  · rename_i hsrc
    exact fun _ => hsrc
  · exact id

theorem startSource_eq (r : Clock.Regs) :
    startSource b cfg r = startFrom b cfg (oscillator cfg) r := by
  unfold startSource startFrom oscillator restartPll
  cases hsrc : cfg.source with
  | hsi => simp [startOscillator]
  | hse => simp [startOscillator]
  | pll =>
    by_cases hin : cfg.pll.inputSrc = .hse
    · simp [hin, startOscillator]
    · simp [hin, startOscillator]

theorem powerUp_eq (r : Regs) :
    powerUp r = { r with
      apb1enr := r.apb1enr ||| apb1enrPwren
      pwrCr1 := r.pwrCr1 ||| pwrCr1VosScale1 } := by
  have hbit : (r.apb1enr ||| apb1enrPwren).getLsbD 28 = true := by simp [apb1enrPwren]
  have hpwren : (r.apb1enr ||| apb1enrPwren) &&& apb1enrPwren ≠ 0 :=
    (bit_ne_zero_iff _ (by decide)).mpr hbit
  have hvos : (r.pwrCr1 &&& ~~~pwrCr1VosMsk) ||| pwrCr1VosScale1 = r.pwrCr1 ||| pwrCr1VosScale1 := by
    apply BitVec.eq_of_getLsbD_eq
    intro i hi
    have hsame : pwrCr1VosMsk = pwrCr1VosScale1 := rfl
    simp only [BitVec.getLsbD_or, BitVec.getLsbD_and, BitVec.getLsbD_not, hi, decide_true,
      Bool.true_and, hsame]
    cases r.pwrCr1.getLsbD i <;> cases pwrCr1VosScale1.getLsbD i <;> rfl
  unfold powerUp
  dsimp only
  rw [@writePwrCr1_of_pwren { r with apb1enr := r.apb1enr ||| apb1enrPwren } hpwren, hvos]

theorem engageOverDrive_eq {r : Regs} (h : r.apb1enr &&& apb1enrPwren ≠ 0) :
    engageOverDrive r = (.ok, { r with pwrCr1 := r.pwrCr1 ||| (pwrCr1Oden ||| pwrCr1Odswen) }) := by
  obtain ⟨hok, -, -⟩ := engageOverDrive_spec h
  have hfirst := writePwrCr1_of_pwren h (r.pwrCr1 ||| pwrCr1Oden)
  have hsecond := @writePwrCr1_of_pwren { r with pwrCr1 := r.pwrCr1 ||| pwrCr1Oden } h
    (r.pwrCr1 ||| pwrCr1Oden ||| pwrCr1Odswen)
  have hlast : (engageOverDrive r).2 =
      { r with pwrCr1 := r.pwrCr1 ||| (pwrCr1Oden ||| pwrCr1Odswen) } := by
    unfold engageOverDrive at hok ⊢
    dsimp only at hok ⊢
    rw [hfirst] at hok ⊢
    dsimp only at hok ⊢
    rw [hsecond] at hok ⊢
    rw [BitVec.or_assoc] at hok ⊢
    split at hok
    · contradiction
    · rename_i hready
      rw [if_neg hready]
      split <;> rfl
  exact Prod.ext hok hlast

/-- The register state in which the dividers are checked. -/
def checkedIn (b : Board) (cfg : ClockConfig) (r : Clock.Regs) : Clock.Regs :=
  if cfg.source = .pll then writeLatency (hclk b cfg) r else r

theorem checkedIn_eq_self {r : Clock.Regs} :
    checkedIn b cfg (started b cfg (oscillator cfg) r) = r ↔
      Running b cfg (oscillator cfg) r ∧ (cfg.source = .pll → LatencySet b cfg r) := by
  rw [← started_eq_self]
  unfold checkedIn LatencySet
  by_cases hsrc : cfg.source = .pll
  · rw [if_pos hsrc, imp_iff_right hsrc]
    exact writeAcr_eq_iff (fun acr => (acr &&& ~~~acrLatencyMsk) ||| acrPrften ||| acrArten |||
      BitVec.ofNat 32 (flashWsFor (hclk b cfg)) <<< 0) rfl
  · rw [if_neg hsrc]
    exact ⟨fun h => ⟨h, fun hpll => absurd hpll hsrc⟩, fun h => h.1⟩

/-- The power controller where the dividers are checked. -/
theorem power_eq (r : Regs) (s : Clock.Regs) :
    (if needsOverDrive b cfg then engageOverDrive { powerUp r with rcc := s }
      else (.ok, { powerUp r with rcc := s })) =
        (.ok, { powerUp r with rcc := s, pwrCr1 := r.pwrCr1 ||| powerBits b cfg }) := by
  unfold powerBits
  by_cases hneeds : needsOverDrive b cfg
  · have hon := @engageOverDrive_eq { powerUp r with rcc := s } (powerUp_pwren r)
    rw [if_pos hneeds, if_pos hneeds, hon, powerUp_eq]
    dsimp only
    rw [BitVec.or_assoc]
  · rw [if_neg hneeds, if_neg hneeds, powerUp_eq]
    rw [show pwrCr1VosScale1 ||| (0 : BitVec 32) = pwrCr1VosScale1 from BitVec.or_zero]

/-- What the checks of the dividers come down to. -/
theorem init_rejected (hzero : ¬ ZeroPll cfg) (r : Regs) (hnone : prescalers b cfg = none)
    (hto : ¬ StartTimesOut b cfg (oscillator cfg) r.rcc) :
    (stm32ClockInit b cfg r).status = .errInvalidArg ∧
      (stm32ClockInit b cfg r).regs.rcc = checkedIn b cfg (started b cfg (oscillator cfg) r.rcc) ∧
      (stm32ClockInit b cfg r).regs.pwrCr1 = r.pwrCr1 ||| powerBits b cfg := by
  unfold ZeroPll at hzero
  unfold stm32ClockInit checkedIn
  rw [if_neg hzero]
  dsimp only
  rw [powerUp_rcc, startSource_eq, startFrom_eq oscillator_ne_pll hto, hnone]
  rw [if_neg (not_not.mpr rfl), power_eq, if_neg (not_not.mpr rfl)]
  by_cases hsrc : cfg.source = .pll
  · rw [if_pos hsrc, if_pos hsrc]
    exact ⟨rfl, rfl, rfl⟩
  · rw [if_neg hsrc, if_neg hsrc]
    exact ⟨rfl, rfl, rfl⟩

theorem switched_status {status : HalStatus} (h : status ≠ .errInvalidArg) (s t : Regs)
    (running : List Regs) :
    (if status ≠ .ok then InitResult.stop status s
      else { status := .ok, regs := t, running := running }).status ≠ .errInvalidArg := by
  split
  · exact h
  · exact HalStatus.noConfusion

/-- A start that gives up and dividers that can be encoded are answered otherwise. -/
theorem init_not_rejected (hzero : ¬ ZeroPll cfg) (r : Regs)
    (h : prescalers b cfg ≠ none ∨ StartTimesOut b cfg (oscillator cfg) r.rcc) :
    (stm32ClockInit b cfg r).status ≠ .errInvalidArg := by
  have hstart := @startFrom_status b cfg (oscillator cfg) oscillator_ne_pll r.rcc
  unfold ZeroPll at hzero
  unfold stm32ClockInit
  rw [if_neg hzero]
  dsimp only
  rw [powerUp_rcc, startSource_eq]
  split
  · exact hstart
  · rename_i hok
    have hsome : prescalers b cfg ≠ none := by
      refine h.resolve_right fun hto => hok ?_
      rw [startFrom_timeout hto]
      exact HalStatus.noConfusion
    obtain ⟨bits, hbits⟩ := Option.ne_none_iff_exists'.mp hsome
    rw [power_eq, hbits, if_neg (not_not.mpr rfl)]
    exact switched_status (waitOrTimeout_status _ _) _ _ _

/-- A rejected call changes nothing just when it is the PLL parameters that are rejected, or the
start gives up first, or what is started and set stands so already. -/
theorem stm32ClockInit_invalid_iff (b : Board) (cfg : ClockConfig) (r : Regs) :
    ((stm32ClockInit b cfg r).status = .errInvalidArg →
        (stm32ClockInit b cfg r).regs.rcc = r.rcc ∧
          (stm32ClockInit b cfg r).regs.pwrCr1 = r.pwrCr1) ↔
      (LateInvalid cfg → StartTimesOut b cfg (oscillator cfg) r.rcc ∨ NothingToDo b cfg r) := by
  by_cases hzero : ZeroPll cfg
  · have hstop : stm32ClockInit b cfg r = .stop .errInvalidArg r := if_pos hzero
    rw [hstop]
    exact iff_of_true (fun _ => ⟨rfl, rfl⟩) fun hlate => absurd hzero hlate.1
  · by_cases hother : prescalers b cfg ≠ none ∨ StartTimesOut b cfg (oscillator cfg) r.rcc
    · refine iff_of_true (fun h => absurd h (init_not_rejected hzero r hother)) fun hlate => ?_
      exact Or.inl (hother.resolve_left (not_not.mpr (prescalers_eq_none.mpr hlate.2)))
    · obtain ⟨hsome, hto⟩ := not_or.mp hother
      have hnone := not_not.mp hsome
      have hlate : LateInvalid cfg := ⟨hzero, prescalers_eq_none.mp hnone⟩
      obtain ⟨hstatus, hrcc, hpower⟩ := init_rejected hzero r hnone hto
      rw [@imp_iff_right _ (LateInvalid cfg) hlate, imp_iff_right hstatus, or_iff_right hto, hrcc,
        hpower, checkedIn_eq_self]
      constructor
      · rintro ⟨⟨hrun, hlat⟩, hon⟩
        exact ⟨hrun, hlat, hon⟩
      · rintro ⟨hrun, hlat, hon⟩
        exact ⟨⟨hrun, hlat⟩, hon⟩

end

end F7

/-! ## Both backends -/

theorem invalid_clock_changes_nothing_iff (b : Board) (cfg : ClockConfig) (r : Regs)
    (r7 : F7.Regs) :
    (((stm32ClockInit b cfg r).status = .errInvalidArg → (stm32ClockInit b cfg r).regs = r) ↔
      (LateInvalid b cfg → StartTimesOut b cfg (oscillator cfg) r ∨ NothingToDo b cfg r)) ∧
    (((F7.stm32ClockInit b cfg r7).status = .errInvalidArg →
        (F7.stm32ClockInit b cfg r7).regs.rcc = r7.rcc ∧
          (F7.stm32ClockInit b cfg r7).regs.pwrCr1 = r7.pwrCr1) ↔
      (F7.LateInvalid cfg →
        StartTimesOut b cfg (F7.oscillator cfg) r7.rcc ∨ F7.NothingToDo b cfg r7)) :=
  ⟨stm32ClockInit_invalid_iff b cfg r, F7.stm32ClockInit_invalid_iff b cfg r7⟩

/-- HSE with an AHB divider that the field skips. -/
def skippedDivider : ClockConfig where
  source := .hse
  hpreDiv := 32
  ppre1Div := 3
  ppre2Div := 0
  pll := { inputSrc := .hse, pllM := 0, pllN := 0, pllP := 0, pllQ := 0 }

/-- The call is rejected, and HSE runs; on the F7 the voltage scale is written as well. -/
theorem skippedDivider_starts_hse :
    (stm32ClockInit f401Board skippedDivider .atReset).status = .errInvalidArg ∧
      (stm32ClockInit f401Board skippedDivider .atReset).regs.cr ≠ Regs.atReset.cr ∧
      (F7.stm32ClockInit f401Board skippedDivider ⟨.atReset, 0, 0⟩).status = .errInvalidArg ∧
      (F7.stm32ClockInit f401Board skippedDivider ⟨.atReset, 0, 0⟩).regs.pwrCr1 ≠ 0 := by
  decide

end NavHAL.Clock
