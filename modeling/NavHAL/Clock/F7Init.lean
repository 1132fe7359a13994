import NavHAL.Clock.Programmed

/-!
# Programming the clock tree of the F7

The oscillators, the PLL, the prescaler fields and the getters are those of the F4.
Above 180 MHz the core needs the over-drive of the power controller, and AHB is
never divided.
-/

namespace NavHAL.Clock.F7

open BitField

/-! ## The power controller -/

/-- The clock controller and the flash interface, `RCC_APB1ENR` and `PWR_CR1`. -/
structure Regs where
  rcc : Clock.Regs
  apb1enr : BitVec 32
  pwrCr1 : BitVec 32

def apb1enrPwren : BitVec 32 := 1#32 <<< 28

def pwrCr1VosMsk : BitVec 32 := 3#32 <<< 14
def pwrCr1VosScale1 : BitVec 32 := 3#32 <<< 14
def pwrCr1Oden : BitVec 32 := 1#32 <<< 16
def pwrCr1Odswen : BitVec 32 := 1#32 <<< 17
def pwrCsr1Odrdy : BitVec 32 := 1#32 <<< 16
def pwrCsr1Odswrdy : BitVec 32 := 1#32 <<< 17

namespace Regs

/-- The power controller takes no write before its clock is enabled. -/
def writePwrCr1 (v : BitVec 32) (r : Regs) : Regs :=
  if r.apb1enr &&& apb1enrPwren = 0 then r else { r with pwrCr1 := v }

/-- Both ready bits stand where their enables do. -/
def pwrCsr1 (r : Regs) : BitVec 32 := r.pwrCr1 &&& (pwrCsr1Odrdy ||| pwrCsr1Odswrdy)

def OverDrive (r : Regs) : Prop :=
  r.pwrCsr1 &&& pwrCsr1Odrdy ≠ 0 ∧ r.pwrCsr1 &&& pwrCsr1Odswrdy ≠ 0

instance (r : Regs) : Decidable r.OverDrive := inferInstanceAs (Decidable (_ ∧ _))

end Regs

/-- The clock of the power controller, and voltage scale 1. -/
def powerUp (r : Regs) : Regs :=
  let r := { r with apb1enr := r.apb1enr ||| apb1enrPwren }
  r.writePwrCr1 ((r.pwrCr1 &&& ~~~pwrCr1VosMsk) ||| pwrCr1VosScale1)

def engageOverDrive (r : Regs) : HalStatus × Regs :=
  let r := r.writePwrCr1 (r.pwrCr1 ||| pwrCr1Oden)
  if r.pwrCsr1 &&& pwrCsr1Odrdy = 0 then (.errTimeout, r)
  else
    let r := r.writePwrCr1 (r.pwrCr1 ||| pwrCr1Odswen)
    if r.pwrCsr1 &&& pwrCsr1Odswrdy = 0 then (.errTimeout, r) else (.ok, r)

/-! ## The source -/

/-- An input of the PLL that is not HSE starts HSI. -/
def startSource (b : Board) (cfg : ClockConfig) (r : Clock.Regs) : HalStatus × Clock.Regs :=
  match cfg.source with
  | .hse => toggleHseClock b true r
  | .hsi => toggleHsiClock true r
  | .pll =>
    orReturn
      (if cfg.pll.inputSrc = .hse then toggleHseClock b true r else toggleHsiClock true r) fun r =>
    orReturn (togglePllClock false r) fun r =>
    togglePllClock true (writePll cfg.pll r)

def pllOutputHz (b : Board) (p : PllConfig) : Nat :=
  if p.pllM = 0 ∨ p.pllP = 0 then 0
  else
    let vcoIn := if p.inputSrc = .hse then b.hseFreqHz else b.hsiFreqHz
    pllHz vcoIn.toNat p.pllM.toNat p.pllN.toNat p.pllP.toNat

def hclk (b : Board) (cfg : ClockConfig) : Nat :=
  match cfg.source with
  | .pll => pllOutputHz b cfg.pll
  | .hse => b.hseFreqHz.toNat
  | .hsi => b.hsiFreqHz.toNat

/-! ## Wait states and prescalers -/

def acrLatencyMsk : BitVec 32 := 0xF#32 <<< 0
def acrArten : BitVec 32 := 1#32 <<< 9

def writeLatency (hclk : Nat) (r : Clock.Regs) : Clock.Regs :=
  { r with acr :=
      (r.acr &&& ~~~acrLatencyMsk) ||| acrPrften ||| acrArten |||
        BitVec.ofNat 32 (flashWsFor hclk) <<< 0 }

def ppreDiv1 : BitVec 32 := 0x0
def ppreDiv2 : BitVec 32 := 0x4
def ppreDiv4 : BitVec 32 := 0x5

def autoPpre1 (hclk : Nat) : BitVec 32 :=
  if hclk ≤ 54000000 then ppreDiv1 else if hclk ≤ 108000000 then ppreDiv2 else ppreDiv4

def autoPpre2 (hclk : Nat) : BitVec 32 :=
  if hclk ≤ 108000000 then ppreDiv1 else ppreDiv2

/-- The divider asked for, unless it leaves the bus above its ceiling. -/
def ppre (asked : UInt16) (auto : BitVec 32) (hclk limitHz : Nat) : Option (BitVec 32) :=
  if asked = 0 then some auto
  else
    match ppreEncode asked.toNat with
    | none => none
    | some req => some (if hclk / asked.toNat ≤ limitHz then req else auto)

/-- The codes of the three dividers; the first is that of `RCC_CFGR_HPRE_DIV1`. -/
def prescalers (b : Board) (cfg : ClockConfig) : Option (BitVec 32 × BitVec 32 × BitVec 32) :=
  let hclk := hclk b cfg
  match ppre cfg.ppre1Div (autoPpre1 hclk) hclk 54000000,
    ppre cfg.ppre2Div (autoPpre2 hclk) hclk 108000000 with
  | some ppre1, some ppre2 => some (0, ppre1, ppre2)
  | _, _ => none

/-! ## Initialisation -/

structure InitResult where
  status : HalStatus
  regs : Regs
  /-- The register states since SYSCLK was switched. -/
  running : List Regs

def InitResult.stop (status : HalStatus) (regs : Regs) : InitResult where
  status := status
  regs := regs
  running := []

def needsOverDrive (b : Board) (cfg : ClockConfig) : Prop :=
  cfg.source = .pll ∧ hclk b cfg > 180000000

instance (b : Board) (cfg : ClockConfig) : Decidable (needsOverDrive b cfg) :=
  inferInstanceAs (Decidable (_ ∧ _))

def stm32ClockInit (b : Board) (cfg : ClockConfig) (r : Regs) : InitResult :=
  if cfg.source = .pll ∧ (cfg.pll.pllM = 0 ∨ cfg.pll.pllN = 0 ∨ cfg.pll.pllP = 0) then
    .stop .errInvalidArg r
  else
    let r := powerUp r
    let res := startSource b cfg r.rcc
    let r := { r with rcc := res.2 }
    if res.1 ≠ .ok then .stop res.1 r
    else
      let res := if needsOverDrive b cfg then engageOverDrive r else (.ok, r)
      if res.1 ≠ .ok then .stop res.1 res.2
      else
        let r := res.2
        -- on the way up the wait states come before the switch
        let r :=
          if cfg.source = .pll then { r with rcc := writeLatency (hclk b cfg) r.rcc } else r
        match prescalers b cfg with
        | none => .stop .errInvalidArg r
        | some bits =>
          let res := switchSysclk cfg.source (writePrescalers bits r.rcc)
          let r := { r with rcc := res.2 }
          if res.1 ≠ .ok then .stop res.1 r
          else
            let writes :=
              if cfg.source ≠ .pll then [{ r with rcc := writeLatency (hclk b cfg) r.rcc }] else []
            { status := .ok, regs := writes.getLastD r, running := r :: writes }

/-! ## The over-drive -/

section

variable (r : Regs)

theorem overDrive_iff :
    r.OverDrive ↔ r.pwrCr1.getLsbD 16 = true ∧ r.pwrCr1.getLsbD 17 = true := by
  unfold Regs.OverDrive Regs.pwrCsr1 pwrCsr1Odrdy pwrCsr1Odswrdy
  rw [bit_ne_zero_iff _ (by decide), bit_ne_zero_iff _ (by decide)]
  simp

theorem powerUp_pwren : (powerUp r).apb1enr &&& apb1enrPwren ≠ 0 := by
  have hbit : (r.apb1enr ||| apb1enrPwren).getLsbD 28 = true := by simp [apb1enrPwren]
  unfold powerUp Regs.writePwrCr1
  dsimp only
  split <;> exact (bit_ne_zero_iff _ (by decide)).mpr hbit

theorem powerUp_rcc : (powerUp r).rcc = r.rcc := by
  unfold powerUp Regs.writePwrCr1
  dsimp only
  split <;> rfl

theorem powerUp_overDrive : (powerUp r).OverDrive ↔ r.OverDrive := by
  rw [overDrive_iff, overDrive_iff]
  unfold powerUp Regs.writePwrCr1
  dsimp only
  split
  · rfl
  · simp [pwrCr1VosMsk, pwrCr1VosScale1]

variable {r}

theorem writePwrCr1_of_pwren (h : r.apb1enr &&& apb1enrPwren ≠ 0) (v : BitVec 32) :
    r.writePwrCr1 v = { r with pwrCr1 := v } :=
  if_neg h

/-- With its clock enabled the power controller answers, and the over-drive is on. -/
theorem engageOverDrive_spec (h : r.apb1enr &&& apb1enrPwren ≠ 0) :
    (engageOverDrive r).1 = .ok ∧ (engageOverDrive r).2.rcc = r.rcc ∧
      (engageOverDrive r).2.OverDrive := by
  have hfirst := writePwrCr1_of_pwren h (r.pwrCr1 ||| pwrCr1Oden)
  generalize hr1 : ({ r with pwrCr1 := r.pwrCr1 ||| pwrCr1Oden } : Regs) = r1 at hfirst
  have hpwr1 : r1.apb1enr &&& apb1enrPwren ≠ 0 := by
    rw [← hr1]
    exact h
  have hsecond := writePwrCr1_of_pwren hpwr1 (r1.pwrCr1 ||| pwrCr1Odswen)
  have hready : r1.pwrCsr1 &&& pwrCsr1Odrdy ≠ 0 := by
    refine (bit_ne_zero_iff _ (by decide)).mpr ?_
    simp [← hr1, Regs.pwrCsr1, pwrCr1Oden, pwrCsr1Odrdy]
  have hon : ({ r1 with pwrCr1 := r1.pwrCr1 ||| pwrCr1Odswen } : Regs).OverDrive := by
    rw [overDrive_iff]
    simp [← hr1, pwrCr1Oden, pwrCr1Odswen]
  have hrcc : r1.rcc = r.rcc := by rw [← hr1]
  unfold engageOverDrive
  dsimp only
  rw [hfirst, if_neg hready, hsecond, if_neg hon.2]
  exact ⟨rfl, hrcc, hon⟩

end

/-! ## What a successful initialisation leaves in the registers -/

/-- The registers select this tree. -/
structure Programmed (cfg : ClockConfig) (bits : BitVec 32 × BitVec 32 × BitVec 32)
    (r : Clock.Regs) : Prop where
  sws : r.sws = cfg.source.sw
  pllcfgr : cfg.source = .pll → r.pllcfgr = cfg.pll.word
  hpre : r.hpreField = bits.1
  ppre1 : r.ppre1Field = bits.2.1
  ppre2 : r.ppre2Field = bits.2.2

theorem Programmed.of_tree {cfg : ClockConfig} {bits : BitVec 32 × BitVec 32 × BitVec 32}
    {r r' : Clock.Regs} (h : Programmed cfg bits r) (hp : r'.pllcfgr = r.pllcfgr)
    (hc : r'.cfgr = r.cfgr) : Programmed cfg bits r' := by
  obtain ⟨hsws, hpll, hpre, h1, h2⟩ := h
  unfold Clock.Regs.sws Clock.Regs.hpreField Clock.Regs.ppre1Field Clock.Regs.ppre2Field at *
  rw [← hc] at hsws hpre h1 h2
  rw [← hp] at hpll
  exact ⟨hsws, hpll, hpre, h1, h2⟩

theorem startSource_ok {b : Board} {cfg : ClockConfig} {r : Clock.Regs}
    (h : (startSource b cfg r).1 = .ok) :
    (startSource b cfg r).2.acr = r.acr ∧
      (cfg.source = .pll → (startSource b cfg r).2.pllcfgr = cfg.pll.word) := by
  unfold startSource at h ⊢
  cases hs : cfg.source with
  | hse => exact ⟨(toggleHseClock_sameTree b true r).acr, by simp⟩
  | hsi => exact ⟨(toggleHsiClock_sameTree true r).acr, by simp⟩
  | pll =>
    simp only [hs] at h ⊢
    have hinput : SameTree r (if cfg.pll.inputSrc = .hse then toggleHseClock b true r
        else toggleHsiClock true r).2 := by
      split
      · exact toggleHseClock_sameTree b true r
      · exact toggleHsiClock_sameTree true r
    obtain ⟨hacr, hword⟩ := startPll_ok hinput h
    exact ⟨hacr, fun _ => hword⟩

theorem writeLatency_latency (hclk : Nat) (r : Clock.Regs) :
    (writeLatency hclk r).latency = flashWsFor hclk := by
  have hlt := flashWsFor_lt hclk
  have hread : (writeLatency hclk r).latency = (field 0 4 (writeLatency hclk r).acr).toNat := by
    have hmask := @toNat_shiftRight_and_mask 0 4 (writeLatency hclk r).acr (by decide)
    rwa [BitVec.ushiftRight_zero] at hmask
  have hmask : field 0 4 acrLatencyMsk = BitVec.allOnes 4 := by decide
  have hprften : field 0 4 acrPrften = 0 := by decide
  have harten : field 0 4 acrArten = 0 := by decide
  have hws : field 0 4 (writeLatency hclk r).acr =
      field 0 4 (BitVec.ofNat 32 (flashWsFor hclk)) := by
    unfold writeLatency
    simp (disch := decide) only [field_or, field_and, field_not, field_shiftLeft, hmask, hprften,
      harten, Nat.sub_zero]
    simp
  rw [hread, hws, field_zero_toNat, BitVec.toNat_ofNat]
  omega

theorem ppre_lt {asked : UInt16} {auto code : BitVec 32} {hclk limitHz : Nat}
    (hauto : auto.toNat < 8) (h : ppre asked auto hclk limitHz = some code) : code.toNat < 8 := by
  unfold ppre at h
  split at h
  · cases h
    exact hauto
  · split at h
    · contradiction
    · rename_i req hreq
      cases h
      split
      · exact (ppreEncode_eq_some hreq).2.1
      · exact hauto

theorem autoPpre1_lt (hclk : Nat) : (autoPpre1 hclk).toNat < 8 := by
  unfold autoPpre1
  split
  · decide
  · split <;> decide

theorem autoPpre2_lt (hclk : Nat) : (autoPpre2 hclk).toNat < 8 := by
  unfold autoPpre2
  split <;> decide

theorem prescalers_eq_some {b : Board} {cfg : ClockConfig}
    {bits : BitVec 32 × BitVec 32 × BitVec 32} (h : prescalers b cfg = some bits) :
    bits.1 = 0 ∧
      ppre cfg.ppre1Div (autoPpre1 (hclk b cfg)) (hclk b cfg) 54000000 = some bits.2.1 ∧
      ppre cfg.ppre2Div (autoPpre2 (hclk b cfg)) (hclk b cfg) 108000000 = some bits.2.2 := by
  unfold prescalers at h
  dsimp only at h
  split at h
  · rename_i ppre1 ppre2 h1 h2
    cases h
    exact ⟨rfl, h1, h2⟩
  · contradiction

theorem programmed_of_switch {b : Board} {cfg : ClockConfig}
    {bits : BitVec 32 × BitVec 32 × BitVec 32} (hbits : prescalers b cfg = some bits)
    {s : Clock.Regs} (hpll : cfg.source = .pll → s.pllcfgr = cfg.pll.word)
    (h : (switchSysclk cfg.source (writePrescalers bits s)).1 = .ok) :
    Programmed cfg bits (switchSysclk cfg.source (writePrescalers bits s)).2 := by
  obtain ⟨hh, h1, h2⟩ := prescalers_eq_some hbits
  have hlt : bits.1.toNat < 16 := by
    rw [hh]
    decide
  obtain ⟨f4, f10, f13⟩ := switchSysclk_codes hlt (ppre_lt (autoPpre1_lt _) h1)
    (ppre_lt (autoPpre2_lt _) h2) cfg.source s
  refine ⟨switchSysclk_sws h, ?_, f4, f10, f13⟩
  intro hsrc
  rw [(switchSysclk_tree _ _).1, (writePrescalers_tree bits s).1]
  exact hpll hsrc

/-- Every register state since the switch, and the one at the return, selects the
tree that was asked for.  The wait states are those for HCLK, but for other sources
than the PLL they are those from before until they are written. -/
structure InitSpec (b : Board) (cfg : ClockConfig) (bits : BitVec 32 × BitVec 32 × BitVec 32)
    (r : Regs) (res : InitResult) : Prop where
  encoded : prescalers b cfg = some bits
  last : res.regs ∈ res.running
  tree : ∀ r' ∈ res.running, Programmed cfg bits r'.rcc
  overDrive : ∀ r' ∈ res.running, r'.OverDrive ↔ needsOverDrive b cfg ∨ r.OverDrive
  latency : ∀ r' ∈ res.running, r'.rcc.latency = flashWsFor (hclk b cfg) ∨
    cfg.source ≠ .pll ∧ r'.rcc.latency = r.rcc.latency
  before : cfg.source ≠ .pll → ∃ r' ∈ res.running, r'.rcc.latency = r.rcc.latency

section

variable {b : Board} {cfg : ClockConfig} {bits : BitVec 32 × BitVec 32 × BitVec 32} {r : Regs}

theorem not_stopped {c : Prop} [Decidable c] {status : HalStatus} {regs : Regs} {res : InitResult}
    (hstatus : c → status ≠ .ok)
    (h : (if c then InitResult.stop status regs else res).status = .ok) : ¬ c := by
  intro hc
  rw [if_pos hc] at h
  exact hstatus hc h

theorem initSpec_pll {t : Regs} (hbits : prescalers b cfg = some bits)
    (hprog : Programmed cfg bits t.rcc) (hsrc : cfg.source = .pll)
    (hdrive : t.OverDrive ↔ needsOverDrive b cfg ∨ r.OverDrive)
    (hlat : t.rcc.latency = flashWsFor (hclk b cfg)) :
    InitSpec b cfg bits r { status := .ok, regs := t, running := [t] } where
  encoded := hbits
  last := List.mem_singleton_self t
  tree := by
    intro r' hr'
    rw [List.mem_singleton.mp hr']
    exact hprog
  overDrive := by
    intro r' hr'
    rw [List.mem_singleton.mp hr']
    exact hdrive
  latency := by
    intro r' hr'
    rw [List.mem_singleton.mp hr']
    exact Or.inl hlat
  before := fun hne => absurd hsrc hne

theorem initSpec_oscillator {t : Regs} (hbits : prescalers b cfg = some bits)
    (hprog : Programmed cfg bits t.rcc) (hsrc : cfg.source ≠ .pll)
    (hdrive : t.OverDrive ↔ needsOverDrive b cfg ∨ r.OverDrive)
    (hlat : t.rcc.latency = r.rcc.latency) :
    InitSpec b cfg bits r
      { status := .ok
        regs := { t with rcc := writeLatency (hclk b cfg) t.rcc }
        running := [t, { t with rcc := writeLatency (hclk b cfg) t.rcc }] } where
  encoded := hbits
  last := by simp
  tree := by
    intro r' hr'
    simp only [List.mem_cons, List.not_mem_nil, or_false] at hr'
    rcases hr' with rfl | rfl
    · exact hprog
    · exact hprog.of_tree rfl rfl
  overDrive := by
    intro r' hr'
    simp only [List.mem_cons, List.not_mem_nil, or_false] at hr'
    rcases hr' with rfl | rfl
    · exact hdrive
    · exact hdrive
  latency := by
    intro r' hr'
    simp only [List.mem_cons, List.not_mem_nil, or_false] at hr'
    rcases hr' with rfl | rfl
    · exact Or.inr ⟨hsrc, hlat⟩
    · exact Or.inl (writeLatency_latency _ _)
  before := fun _ => ⟨t, List.mem_cons_self, hlat⟩

/-- The over-drive does not fail once its clock is enabled. -/
theorem overDrive_if_needed (cfg : ClockConfig) (h : r.apb1enr &&& apb1enrPwren ≠ 0) :
    ∃ r1 : Regs, (if needsOverDrive b cfg then engageOverDrive r else (.ok, r)) = (.ok, r1) ∧
      r1.rcc = r.rcc ∧ (r1.OverDrive ↔ needsOverDrive b cfg ∨ r.OverDrive) := by
  obtain ⟨hok, hrcc, hon⟩ := engageOverDrive_spec h
  by_cases hneeds : needsOverDrive b cfg
  · rw [if_pos hneeds]
    exact ⟨_, Prod.ext hok rfl, hrcc, iff_of_true hon (Or.inl hneeds)⟩
  · rw [if_neg hneeds]
    exact ⟨_, rfl, rfl, (or_iff_right hneeds).symm⟩

theorem stm32ClockInit_ok (h : (stm32ClockInit b cfg r).status = .ok) :
    ∃ bits, InitSpec b cfg bits r (stm32ClockInit b cfg r) := by
  unfold stm32ClockInit at h ⊢
  have hparams := not_stopped (fun _ => by decide) h
  rw [if_neg hparams] at h ⊢
  dsimp only at h ⊢
  have hstart := not_stopped id h
  rw [if_neg hstart] at h ⊢
  obtain ⟨hacr, hword⟩ := startSource_ok (not_not.mp hstart)
  have hacr0 := hacr.trans (congrArg Clock.Regs.acr (powerUp_rcc r))
  have hpwren := powerUp_pwren r
  have hpowered := powerUp_overDrive r
  generalize (startSource b cfg (powerUp r).rcc).2 = s0 at h hacr0 hword ⊢
  generalize powerUp r = r0 at h hpwren hpowered ⊢
  obtain ⟨r1, hr1, hrcc1, hdrive1⟩ := @overDrive_if_needed b { r0 with rcc := s0 } cfg hpwren
  rw [hr1] at h ⊢
  rw [if_neg (not_not.mpr rfl)] at h ⊢
  dsimp only at h ⊢
  -- the register state in which the prescalers are written
  generalize hs : (if cfg.source = .pll then
    ({ r1 with rcc := writeLatency (hclk b cfg) r1.rcc } : Regs) else r1) = s at h ⊢
  have hspll : cfg.source = .pll → s.rcc.pllcfgr = cfg.pll.word := by
    intro hsrc
    rw [if_pos hsrc] at hs
    rw [← hs]
    show r1.rcc.pllcfgr = _
    rw [hrcc1]
    exact hword hsrc
  have hsdrive : s.OverDrive ↔ needsOverDrive b cfg ∨ r.OverDrive := by
    rw [← hs, ← hpowered]
    split <;> exact hdrive1
  cases hbits : prescalers b cfg with
  | none =>
    rw [hbits] at h
    contradiction
  | some bits =>
    rw [hbits] at h
    dsimp only at h ⊢
    have hswitch := not_stopped id h
    rw [if_neg hswitch]
    have hprog := programmed_of_switch hbits hspll (not_not.mp hswitch)
    have htacr : (switchSysclk cfg.source (writePrescalers bits s.rcc)).2.acr = s.rcc.acr :=
      (switchSysclk_tree _ _).2
    generalize (switchSysclk cfg.source (writePrescalers bits s.rcc)).2 = t at hprog htacr ⊢
    have hts : t.latency = s.rcc.latency := by
      unfold Clock.Regs.latency
      rw [htacr]
    refine ⟨bits, ?_⟩
    by_cases hsrc : cfg.source = .pll
    · rw [if_neg (not_not.mpr hsrc)]
      rw [if_pos hsrc] at hs
      have hlat : t.latency = flashWsFor (hclk b cfg) := by
        rw [hts, ← hs]
        exact writeLatency_latency _ _
      exact @initSpec_pll b cfg bits r { s with rcc := t } hbits hprog hsrc hsdrive hlat
    · rw [if_pos hsrc]
      rw [if_neg hsrc] at hs
      have hlat : t.latency = r.rcc.latency := by
        rw [hts, ← hs, hrcc1]
        unfold Clock.Regs.latency
        rw [hacr0]
      exact @initSpec_oscillator b cfg bits r { s with rcc := t } hbits hprog hsrc hsdrive hlat

end

end NavHAL.Clock.F7
