import NavHAL.Pwm.Drivers

/-!
# The frequency of a PWM output

Both ports divide the clock twice. The quotients give the frequency where no value on the
way wraps (`produces_div`), which leaves the limits of `Port.Fits`:

* the STM32 first divides down to about 1 MHz, and checks neither the counts that are left
  nor what the timer makes of them;
* the AVR forms the product of a divider and the frequency in 32 bits.
-/

namespace NavHAL.Pwm

open Timer (Tim TimerConfig Bank divide halTimerInit stm32TimerInit arrHeld)
open Uart (ApbClocks)

/-! ## Where the frequency is kept -/

/-- The timer exists, its clock is at least 1 MHz, and after the division by the whole
megahertz two counts or more make a period, which a 16-bit counter must hold. -/
structure Stm32.Fits (clocks : ApbClocks) (cfgr : UInt32) (timer : Tim) (frequency : UInt32) :
    Prop where
  present : timer.hasBase = true
  clock : inputClock clocks cfgr timer < 4294967296
  megahertz : 1000000 ≤ inputClock clocks cfgr timer
  counts : 2 * (inputClock clocks cfgr timer / 1000000 * frequency.toNat) ≤
    inputClock clocks cfgr timer
  narrow : timer.wide = false → inputClock clocks cfgr timer <
    65537 * (inputClock clocks cfgr timer / 1000000 * frequency.toNat)

/-- At most half the clock, or so low that 1024 times as much fits a word. -/
def Avr.Fits (fCpu channel frequency : UInt32) : Prop :=
  channel = 1 ∨ channel = 2 → 2 * frequency.toNat ≤ fCpu.toNat ∨ frequency.toNat < 4194304

def Port.Fits (frequency : UInt32) : Port → Prop
  | .stm32 _ clocks cfgr pwm => Stm32.Fits clocks cfgr pwm.timer frequency
  | .avrTimer1 _ fCpu channel => Avr.Fits fCpu channel frequency

namespace FrequencyKept

variable {t : PwmTimer} {frequency : UInt32} {s s' : t.State}

theorem of_ok (hexact : t.Exact frequency) (h : t.init frequency s = some (.ok, s'))
    (hpresent : t.Present) (hheld : t.computed frequency = some (t.held s'))
    (hproduces : Produces t.clock frequency.toNat (t.held s').1 (t.held s').2) :
    FrequencyKept t frequency s where
  exact := hexact
  divides := h ▸ Option.some_ne_none _
  kept := by
    intro s'' hs''
    obtain rfl : s' = s'' := congrArg Prod.snd (Option.some_inj.mp (h.symm.trans hs''))
    exact ⟨hpresent, hheld, hproduces⟩
  refused := by
    intro status s'' hs'' hne
    have hstatus : HalStatus.ok = status :=
      congrArg Prod.fst (Option.some_inj.mp (h.symm.trans hs''))
    exact absurd hstatus.symm hne

theorem of_refused (hexact : t.Exact frequency)
    (h : t.init frequency s = some (.errInvalidArg, s)) : FrequencyKept t frequency s where
  exact := hexact
  divides := h ▸ Option.some_ne_none _
  kept := by
    intro s'' hs''
    have hstatus : HalStatus.errInvalidArg = HalStatus.ok :=
      congrArg Prod.fst (Option.some_inj.mp (h.symm.trans hs''))
    cases hstatus
  refused := by
    intro status s'' hs'' _
    obtain ⟨rfl, rfl⟩ := Prod.mk.inj (Option.some_inj.mp (h.symm.trans hs''))
    exact ⟨rfl, rfl⟩

end FrequencyKept

/-! ## Quotients -/

section

variable {clk p f t : Nat}

theorem le_quotient_iff (hp : 0 < p) (hf : 0 < f) : t ≤ clk / p / f ↔ t * (p * f) ≤ clk := by
  rw [Nat.div_div_eq_div_mul, Nat.le_div_iff_mul_le (Nat.mul_pos hp hf)]

theorem quotient_lt_iff (hp : 0 < p) (hf : 0 < f) : clk / p / f < t ↔ clk < t * (p * f) := by
  rw [Nat.div_div_eq_div_mul, Nat.div_lt_iff_lt_mul (Nat.mul_pos hp hf)]

theorem produces_div (hp : 0 < p) (hf : 0 < f) (h : 2 ≤ clk / p / f) :
    Produces clk f p (clk / p / f) := by
  refine ⟨h, ?_, ?_⟩
  · have hle := (le_quotient_iff hp hf).mp (Nat.le_refl (clk / p / f))
    rwa [← Nat.mul_assoc, Nat.mul_comm _ p] at hle
  · have hlt := (quotient_lt_iff hp hf).mp (Nat.lt_succ_self (clk / p / f))
    rwa [← Nat.mul_assoc, Nat.mul_comm _ p] at hlt

theorem toNat_pos {x : UInt32} (h : x ≠ 0) : 0 < x.toNat :=
  Nat.pos_of_ne_zero fun hz => h (UInt32.toNat_inj.mp hz)

/-- A word less one, where that does not wrap. -/
theorem pred_succ_iff {x : UInt32} : (x - 1).toNat + 1 = x.toNat ↔ 0 < x.toNat := by
  refine ⟨fun h => h ▸ Nat.succ_pos _, fun h => ?_⟩
  have hone : (1 : UInt32) ≤ x := UInt32.le_iff_toNat_le.mpr h
  rw [UInt32.toNat_sub_of_le _ _ hone]
  exact Nat.sub_add_cancel h

theorem pred_add_one (x : UInt32) : x - 1 + 1 = x := by
  rw [UInt32.sub_add_cancel]

end

/-! ## The STM32 -/

namespace Stm32

section

variable {clk frequency : UInt32}

/-- The two quotients, as far as the division by the first one goes. -/
theorem pwmConfig_eq (hclk : 1000000 ≤ clk.toNat) (hf : frequency ≠ 0) :
    pwmConfig clk frequency =
      some ⟨clk / 1000000 - 1, clk / (clk / 1000000) / frequency - 1⟩ := by
  have hpos : clk / 1000000 ≠ 0 := by
    rw [Ne, ← UInt32.toNat_inj, UInt32.toNat_div]
    exact Nat.ne_of_gt (Nat.div_pos hclk (by decide))
  rw [pwmConfig, pred_add_one, Timer.divide_of_ne hpos, Option.bind_some, Timer.divide_of_ne hf,
    Option.map_some]

theorem toNat_quotient :
    (clk / (clk / 1000000) / frequency).toNat =
      clk.toNat / (clk.toNat / 1000000) / frequency.toNat := by
  rw [UInt32.toNat_div, UInt32.toNat_div, UInt32.toNat_div]
  rfl

/-- ARR holds what it is given, or half a word of it. -/
theorem arrHeld_eq_iff {timer : Tim} {arr : UInt32} :
    arrHeld timer arr = arr ↔ (timer.wide = false → arr.toNat < 65536) := by
  rw [arrHeld]
  cases timer.wide with
  | true => simp
  | false =>
    rw [if_neg Bool.false_ne_true, ← UInt32.toNat_inj, UInt16.toNat_toUInt32,
      UInt32.toNat_toUInt16]
    exact ⟨fun h _ => h ▸ Nat.mod_lt _ (by decide), fun h => Nat.mod_eq_of_lt (h rfl)⟩

theorem setCompare_bank (timer : Tim) (channel : UInt8) (value : UInt32) (s : Timers) :
    (stm32TimerSetCompare timer channel value s).2.bank = s.bank := by
  rw [stm32TimerSetCompare]
  split
  · rfl
  split <;> rfl

variable {clocks : ApbClocks} {cfgr : UInt32} {pwm : PwmHandle}

/-- A call that does not divide by zero returns `HAL_OK`; the timer gets the pair, if there
is one. -/
theorem init_eq (duty : UInt32 → UInt32) {cfg : TimerConfig} (hf : frequency ≠ 0)
    (h : pwmConfig (timerClk clocks cfgr pwm.timer) frequency = some cfg) (s : Timers) :
    ∃ s', halPwmInit (stm32PwmInit duty clocks cfgr) (some pwm) frequency s = some (.ok, s') ∧
      s'.bank = (stm32TimerInit pwm.timer cfg s.bank).2 := by
  rw [halPwmInit, if_neg hf, stm32PwmInit, h]
  exact ⟨_, rfl, setCompare_bank _ _ _ _⟩

theorem bank_init {timer : Tim} (h : timer.hasBase = true) (cfg : TimerConfig) (bank : Bank) :
    ((stm32TimerInit timer cfg bank).2 timer).psc = cfg.prescaler.toUInt16 ∧
      ((stm32TimerInit timer cfg bank).2 timer).arr = arrHeld timer cfg.autoReload := by
  rw [stm32TimerInit, if_neg (by rw [h]; decide)]
  exact ⟨congrArg Timer.TimRegs.psc (if_pos rfl), congrArg Timer.TimRegs.arr (if_pos rfl)⟩

theorem timerClk_toNat_iff {timer : Tim} :
    (timerClk clocks cfgr timer).toNat = inputClock clocks cfgr timer ↔
      inputClock clocks cfgr timer < 4294967296 := by
  rw [timerClk, inputClock]
  split
  · rw [UInt32.toNat_mul]
    exact ⟨fun h => h ▸ Nat.mod_lt _ (by decide), Nat.mod_eq_of_lt⟩
  · exact ⟨fun _ => UInt32.toNat_lt _, fun _ => rfl⟩

/-- The limits by the counts of a period. -/
theorem fits_iff {timer : Tim} (hf : frequency ≠ 0) {n quot : Nat}
    (hn : inputClock clocks cfgr timer = n) (hquot : n / (n / 1000000) / frequency.toNat = quot) :
    Fits clocks cfgr timer frequency ↔
      timer.hasBase = true ∧ n < 4294967296 ∧ 1000000 ≤ n ∧ 2 ≤ quot ∧
        (timer.wide = false → quot < 65537) := by
  have hfpos := toNat_pos hf
  subst hn hquot
  constructor
  · rintro ⟨hpresent, hclock, hmega, hcounts, hnarrow⟩
    have hppos : 0 < inputClock clocks cfgr timer / 1000000 := Nat.div_pos hmega (by decide)
    exact ⟨hpresent, hclock, hmega, (le_quotient_iff hppos hfpos).mpr hcounts,
      fun h => (quotient_lt_iff hppos hfpos).mpr (hnarrow h)⟩
  · rintro ⟨hpresent, hclock, hmega, hcounts, hnarrow⟩
    have hppos : 0 < inputClock clocks cfgr timer / 1000000 := Nat.div_pos hmega (by decide)
    exact ⟨hpresent, hclock, hmega, (le_quotient_iff hppos hfpos).mp hcounts,
      fun h => (quotient_lt_iff hppos hfpos).mp (hnarrow h)⟩

theorem psc_succ (hmega : 1000000 ≤ clk.toNat) :
    (clk / 1000000 - 1).toNat + 1 = clk.toNat / 1000000 := by
  have hpos : 0 < (clk / 1000000).toNat := by
    rw [UInt32.toNat_div]
    exact Nat.div_pos hmega (by decide)
  rw [pred_succ_iff.mpr hpos, UInt32.toNat_div]
  rfl

variable {duty : UInt32 → UInt32}

/-- What the registers hold after the call. -/
theorem held_eq {s s' : Timers} {cfg : TimerConfig} (hpresent : pwm.timer.hasBase = true)
    (hbank : s'.bank = (stm32TimerInit pwm.timer cfg s.bank).2) :
    (Port.stm32 duty clocks cfgr pwm).timer.held s' =
      (cfg.prescaler.toUInt16.toNat + 1, (arrHeld pwm.timer cfg.autoReload).toNat + 1) := by
  obtain ⟨hpsc, harr⟩ := bank_init hpresent cfg s.bank
  rw [← hpsc, ← harr, ← hbank]
  rfl

theorem computed_eq {cfg : TimerConfig}
    (h : pwmConfig (timerClk clocks cfgr pwm.timer) frequency = some cfg) :
    (Port.stm32 duty clocks cfgr pwm).timer.computed frequency =
      some (cfg.prescaler.toNat + 1, cfg.autoReload.toNat + 1) :=
  (congrArg (Option.map _) h).trans rfl

theorem fits_of_kept (hf : frequency ≠ 0) {s : Timers}
    (h : FrequencyKept (Port.stm32 duty clocks cfgr pwm).timer frequency s) :
    Fits clocks cfgr pwm.timer frequency := by
  have hexact : Exact clocks cfgr pwm.timer frequency := h.exact
  have hmega : 1000000 ≤ (timerClk clocks cfgr pwm.timer).toNat := by
    have hpos := pred_succ_iff.mp hexact.psc
    rw [UInt32.toNat_div] at hpos
    exact (Nat.div_pos_iff.mp hpos).2
  have hcfg := pwmConfig_eq hmega hf
  obtain ⟨s', hs', hbank⟩ := init_eq duty hf hcfg s
  obtain ⟨hpresent, hheld, hproduces⟩ := h.kept s' hs'
  rw [held_eq hpresent hbank] at hheld hproduces
  rw [computed_eq hcfg, Option.some_inj, Prod.mk.injEq, Nat.add_right_cancel_iff,
    Nat.add_right_cancel_iff] at hheld
  have harr := hexact.arr _ hcfg
  rw [psc_succ hmega] at harr
  have hwidth := arrHeld_eq_iff.mp (UInt32.toNat_inj.mp hheld.2.symm)
  refine (fits_iff hf hexact.clock.symm harr.symm).mpr
    ⟨hpresent, UInt32.toNat_lt _, hmega, hheld.2 ▸ hproduces.1, fun hnarrow => ?_⟩
  exact Nat.succ_lt_succ (hwidth hnarrow)

/-- With a count in a period at least, both differences are those of the integers. -/
theorem pwmConfig_exact (hmega : 1000000 ≤ clk.toNat) (hf : frequency ≠ 0)
    (hcounts : 0 < clk.toNat / (clk.toNat / 1000000) / frequency.toNat) :
    ∃ cfg, pwmConfig clk frequency = some cfg ∧
      cfg.prescaler.toNat + 1 = clk.toNat / 1000000 ∧
      cfg.autoReload.toNat + 1 = clk.toNat / (clk.toNat / 1000000) / frequency.toNat := by
  refine ⟨_, pwmConfig_eq hmega hf, psc_succ hmega, ?_⟩
  rw [← toNat_quotient] at hcounts ⊢
  exact pred_succ_iff.mpr hcounts

theorem kept_of_fits (hf : frequency ≠ 0) (h : Fits clocks cfgr pwm.timer frequency)
    (s : Timers) : FrequencyKept (Port.stm32 duty clocks cfgr pwm).timer frequency s := by
  have hfpos := toNat_pos hf
  have hclock := timerClk_toNat_iff.mpr h.clock
  obtain ⟨hpresent, hlt, hmega, hcounts, hnarrow⟩ := (fits_iff hf hclock.symm rfl).mp h
  obtain ⟨cfg, hcfg, hpsc, harr⟩ := pwmConfig_exact hmega hf (by omega)
  obtain ⟨s', hs', hbank⟩ := init_eq duty hf hcfg s
  have hexact : Exact clocks cfgr pwm.timer frequency := by
    refine ⟨hclock, ?_, fun cfg' hcfg' => ?_⟩
    · rw [psc_succ hmega, UInt32.toNat_div]
      rfl
    · obtain rfl : cfg = cfg' := Option.some_inj.mp (hcfg.symm.trans hcfg')
      rw [harr, hpsc]
  have hwidth : arrHeld pwm.timer cfg.autoReload = cfg.autoReload :=
    arrHeld_eq_iff.mpr fun hn => by
      have := hnarrow hn
      omega
  have hsmall : cfg.prescaler.toUInt16.toNat = cfg.prescaler.toNat := by
    have := UInt32.toNat_lt (timerClk clocks cfgr pwm.timer)
    rw [UInt32.toNat_toUInt16]
    exact Nat.mod_eq_of_lt (show cfg.prescaler.toNat < 65536 by omega)
  have hheld : (Port.stm32 duty clocks cfgr pwm).timer.held s' = _ := held_eq hpresent hbank
  rw [hwidth, hsmall] at hheld
  refine FrequencyKept.of_ok hexact hs' hpresent ?_ ?_
  · rw [computed_eq hcfg, hheld]
  · rw [hheld, hpsc, harr]
    have hproduces := produces_div (Nat.div_pos hmega (by decide)) hfpos hcounts
    rwa [hclock] at hproduces ⊢

theorem kept_iff (hf : frequency ≠ 0) (s : Timers) :
    FrequencyKept (Port.stm32 duty clocks cfgr pwm).timer frequency s ↔
      Fits clocks cfgr pwm.timer frequency :=
  ⟨fits_of_kept hf, fun h => kept_of_fits hf h s⟩

end

end Stm32

/-! ## The ATmega328P -/

namespace Avr

section

variable {fCpu frequency : UInt32} {table : List (UInt16 × UInt8)}

theorem product_exact_iff {d : UInt16} :
    (d.toUInt32 * frequency).toNat = d.toNat * frequency.toNat ↔
      d.toNat * frequency.toNat < 4294967296 := by
  rw [UInt32.toNat_mul, UInt16.toNat_toUInt32]
  exact ⟨fun h => h ▸ Nat.mod_lt _ (by decide), Nat.mod_eq_of_lt⟩

theorem productsExact_of_lt (h : ∀ e ∈ table, e.1.toNat * frequency.toNat < 4294967296) :
    ProductsExact fCpu frequency table := by
  induction table with
  | nil => trivial
  | cons e table ih =>
    rw [List.forall_mem_cons] at h
    exact ⟨product_exact_iff.mpr h.1, fun _ => ih h.2⟩

/-- Above half the clock the loop comes to its end. -/
theorem lt_of_productsExact (hfast : fCpu.toNat < 2 * frequency.toNat)
    (hpos : ∀ e ∈ table, 0 < e.1.toNat) (h : ProductsExact fCpu frequency table) :
    ∀ e ∈ table, e.1.toNat * frequency.toNat < 4294967296 := by
  induction table with
  | nil => exact fun e he => absurd he List.not_mem_nil
  | cons e table ih =>
    rw [List.forall_mem_cons] at hpos ⊢
    have hout : ¬ inRange (fCpu / (e.1.toUInt32 * frequency)) := by
      rintro ⟨htwo, -⟩
      rw [UInt32.le_iff_toNat_le, UInt32.toNat_div, h.1] at htwo
      have hle : fCpu.toNat / (e.1.toNat * frequency.toNat) ≤ fCpu.toNat / frequency.toNat :=
        Nat.div_le_div_left (Nat.le_mul_of_pos_left _ hpos.1) (by omega)
      have hlt : fCpu.toNat / frequency.toNat < 2 :=
        (Nat.div_lt_iff_lt_mul (by omega)).mpr hfast
      exact absurd htwo (Nat.not_le.mpr (Nat.lt_of_le_of_lt hle hlt))
    exact ⟨product_exact_iff.mp h.1, ih hpos.2 (h.2 hout)⟩

theorem kDiv_pos : ∀ e ∈ kDiv, 0 < e.1.toNat := by simp [kDiv]

theorem kDiv_le : ∀ e ∈ kDiv, e.1.toNat ≤ 1024 := by simp [kDiv]

theorem productsExact_iff (hf : 0 < frequency.toNat) :
    ProductsExact fCpu frequency kDiv ↔
      2 * frequency.toNat ≤ fCpu.toNat ∨ frequency.toNat < 4194304 := by
  have hlow (h : frequency.toNat < 4194304) : ProductsExact fCpu frequency kDiv :=
    productsExact_of_lt fun e he => by
      have := Nat.mul_le_mul_right frequency.toNat (kDiv_le e he)
      omega
  constructor
  · intro h
    by_cases hslow : 2 * frequency.toNat ≤ fCpu.toNat
    · exact Or.inl hslow
    · have hlast := lt_of_productsExact (Nat.not_le.mp hslow) kDiv_pos h (1024, 5) (by decide)
      right
      replace hlast : 1024 * frequency.toNat < 4294967296 := hlast
      omega
  · rintro (hslow | h)
    · by_cases hmany : 65536 * frequency.toNat < fCpu.toNat
      · have := fCpu.toNat_lt
        exact hlow (by omega)
      · -- the first divider is 1
        have hone : ((1 : UInt16).toUInt32 * frequency).toNat = 1 * frequency.toNat :=
          product_exact_iff.mpr ((Nat.one_mul frequency.toNat).symm ▸ frequency.toNat_lt)
        refine ⟨hone, fun hout => absurd ?_ hout⟩
        rw [inRange, UInt32.le_iff_toNat_le, UInt32.le_iff_toNat_le, UInt32.toNat_div, hone,
          Nat.one_mul]
        constructor
        · exact (Nat.le_div_iff_mul_le hf).mpr hslow
        · exact Nat.div_le_of_le_mul (Nat.mul_comm _ _ ▸ Nat.not_lt.mp hmany)
    · exact hlow h

/-- With exact products: the first entry whose quotient is in range, if there is one. -/
theorem firstFit_exact (hf : 0 < frequency.toNat) (hpos : ∀ e ∈ table, 0 < e.1.toNat)
    (h : ProductsExact fCpu frequency table) :
    firstFit fCpu frequency table = some none ∨
      ∃ entry ∈ table, ∃ period, firstFit fCpu frequency table = some (some (entry, period)) ∧
        inRange period ∧ period.toNat = fCpu.toNat / entry.1.toNat / frequency.toNat := by
  induction table with
  | nil => exact Or.inl rfl
  | cons e table ih =>
    rw [List.forall_mem_cons] at hpos
    have hproduct : e.1.toUInt32 * frequency ≠ 0 := by
      rw [Ne, ← UInt32.toNat_inj, h.1]
      exact Nat.ne_of_gt (Nat.mul_pos hpos.1 hf)
    rw [firstFit, Timer.divide_of_ne hproduct, Option.bind_some]
    split
    · next hin =>
      refine Or.inr ⟨e, List.mem_cons_self, _, rfl, hin, ?_⟩
      rw [UInt32.toNat_div, h.1, Nat.div_div_eq_div_mul]
    · next hout =>
      rcases ih hpos.2 (h.2 hout) with hnone | ⟨entry, hmem, hentry⟩
      · exact Or.inl hnone
      · exact Or.inr ⟨entry, List.mem_cons_of_mem _ hmem, hentry⟩

theorem prescale_kDiv :
    ∀ e ∈ kDiv, prescale (wgm13 ||| wgm12 ||| e.2) = e.1.toNat := by
  simp only [kDiv, List.forall_mem_cons]
  exact ⟨rfl, rfl, rfl, rfl, rfl, fun e he => absurd he List.not_mem_nil⟩

/-- The duty cycle leaves the frequency alone. -/
theorem writeDuty_setTimer1 (duty : UInt16 → UInt32) (channel : UInt32) (cs : UInt8) (top : UInt16)
    (s : Regs) :
    (writeDuty duty .tim1 channel (setTimer1 channel cs top s)).icr1 = top ∧
      (writeDuty duty .tim1 channel (setTimer1 channel cs top s)).tccr1b =
        wgm13 ||| wgm12 ||| cs := by
  rw [writeDuty, if_pos rfl]
  split
  · exact ⟨rfl, rfl⟩
  · exact ⟨rfl, rfl⟩

variable {duty : UInt16 → UInt32} {channel : UInt32}

theorem channel_iff : ¬ (channel < 1 ∨ 2 < channel) ↔ channel = 1 ∨ channel = 2 := by
  rw [UInt32.lt_iff_toNat_lt, UInt32.lt_iff_toNat_lt, ← UInt32.toNat_inj, ← UInt32.toNat_inj]
  show ¬ (channel.toNat < 1 ∨ 2 < channel.toNat) ↔ channel.toNat = 1 ∨ channel.toNat = 2
  omega

/-- On a valid channel the loop decides. -/
theorem init_eq (hf : frequency ≠ 0) (hchannel : channel = 1 ∨ channel = 2) (s : Regs) :
    (Port.avrTimer1 duty fCpu channel).timer.init frequency s =
      (firstFit fCpu frequency kDiv).map fun
        | none => (.errInvalidArg, s)
        | some ((_, cs), period) =>
          (.ok, writeDuty duty .tim1 channel (setTimer1 channel cs (period - 1).toUInt16 s)) := by
  have hvalid : ¬ (pwmIndex .tim1 = none ∨ channel < 1 ∨ 2 < channel) :=
    not_or.mpr ⟨Option.some_ne_none 0, channel_iff.mpr hchannel⟩
  show halPwmInit (avrPwmInit duty fCpu) (some ⟨.tim1, channel⟩) frequency s = _
  rw [halPwmInit, if_neg hf, avrPwmInit, if_neg hvalid, if_pos rfl]
  rfl

theorem init_refused (hf : frequency ≠ 0) (hchannel : ¬ (channel = 1 ∨ channel = 2)) (s : Regs) :
    (Port.avrTimer1 duty fCpu channel).timer.init frequency s = some (.errInvalidArg, s) := by
  have hinvalid := not_not.mp (mt channel_iff.mp hchannel)
  show halPwmInit (avrPwmInit duty fCpu) (some ⟨.tim1, channel⟩) frequency s = _
  rw [halPwmInit, if_neg hf, avrPwmInit, if_pos (Or.inr hinvalid)]

theorem top_succ {period : UInt32} (h : inRange period) :
    (period - 1).toUInt16.toNat + 1 = period.toNat := by
  have htwo : 2 ≤ period.toNat := UInt32.le_iff_toNat_le.mp h.1
  have hmost : period.toNat ≤ 65536 := UInt32.le_iff_toNat_le.mp h.2
  have hpred := pred_succ_iff.mpr (Nat.lt_of_lt_of_le Nat.two_pos htwo)
  rw [UInt32.toNat_toUInt16, Nat.mod_eq_of_lt (show (period - 1).toNat < 65536 by omega), hpred]

theorem kept_of_fits (hf : frequency ≠ 0) (h : Fits fCpu channel frequency) (s : Regs) :
    FrequencyKept (Port.avrTimer1 duty fCpu channel).timer frequency s := by
  have hpos := toNat_pos hf
  by_cases hchannel : channel = 1 ∨ channel = 2
  case neg => exact .of_refused (fun hc => absurd hc hchannel) (init_refused hf hchannel s)
  have hexact := (productsExact_iff hpos).mpr (h hchannel)
  have hinit : (Port.avrTimer1 duty fCpu channel).timer.init frequency s = _ :=
    init_eq hf hchannel s
  rcases firstFit_exact hpos kDiv_pos hexact with
    hnone | ⟨⟨div, cs⟩, hmem, period, hfit, hin, hperiod⟩
  · rw [hnone] at hinit
    exact .of_refused (fun _ => hexact) hinit
  · rw [hfit] at hinit
    have hcomputed : (Port.avrTimer1 duty fCpu channel).timer.computed frequency =
        some (div.toNat, period.toNat) := congrArg (Option.bind · _) hfit
    obtain ⟨hicr, hcs⟩ := writeDuty_setTimer1 duty channel cs (period - 1).toUInt16 s
    have hprescale := prescale_kDiv (div, cs) hmem
    dsimp only at hprescale hperiod
    have hpair : (Port.avrTimer1 duty fCpu channel).timer.held
        (writeDuty duty .tim1 channel (setTimer1 channel cs (period - 1).toUInt16 s)) =
          (div.toNat, period.toNat) := by
      show (prescale _, UInt16.toNat _ + 1) = _
      rw [hicr, hcs, hprescale, top_succ hin]
    refine .of_ok (fun _ => hexact) hinit trivial (hcomputed.trans (congrArg some hpair.symm)) ?_
    rw [hpair]
    have htwo : 2 ≤ period.toNat := UInt32.le_iff_toNat_le.mp hin.1
    dsimp only
    rw [hperiod] at htwo ⊢
    exact produces_div (kDiv_pos _ hmem) hpos htwo

theorem kept_iff (hf : frequency ≠ 0) (s : Regs) :
    FrequencyKept (Port.avrTimer1 duty fCpu channel).timer frequency s ↔
      Fits fCpu channel frequency := by
  have hpos := toNat_pos hf
  refine ⟨fun h hchannel => ?_, fun h => kept_of_fits hf h s⟩
  have hexact : ProductsExact fCpu frequency kDiv := h.exact hchannel
  exact (productsExact_iff hpos).mp hexact

end

end Avr

/-! ## Both ports -/

/-- For every timer, clock and frequency. -/
theorem frequency_kept_iff (port : Port) (frequency : UInt32) (hpos : 0 < frequency)
    (s : port.timer.State) : FrequencyKept port.timer frequency s ↔ port.Fits frequency := by
  have hf : frequency ≠ 0 := by
    rintro rfl
    exact absurd hpos (by decide)
  cases port with
  | stm32 duty clocks cfgr pwm => exact Stm32.kept_iff hf s
  | avrTimer1 duty fCpu channel => exact Avr.kept_iff hf s

/-- A timer of the first bus at 100 MHz, twice the bus clock. -/
def tim3 : Port :=
  .stm32 (fun counts => counts / 2) ⟨50000000, 100000000⟩ 0x1000 ⟨.tim3, 1⟩

def timer1 : Port := .avrTimer1 (fun counts => counts.toUInt32 / 2) 16000000 1

def resetTimers : Stm32.Timers := ⟨fun _ => {}, fun _ _ => ⟨0, false, false⟩, false⟩

def resetRegs : Avr.Regs := ⟨0xFFFF, 0xFF, 0, 0, 0, 0, 0, 0, 0, 0, 0, 0, 0⟩

theorem kept_1kHz :
    FrequencyKept tim3.timer 1000 resetTimers ∧ FrequencyKept timer1.timer 1000 resetRegs :=
  ⟨(frequency_kept_iff tim3 1000 (by decide) resetTimers).mpr
      ⟨rfl, by decide, by decide, by decide, fun _ => by decide⟩,
    (frequency_kept_iff timer1 1000 (by decide) resetRegs).mpr fun _ => Or.inl (by decide)⟩

/-- 100000 counts in a 16-bit counter, and a product that wraps to 0. -/
theorem lost_10Hz_and_536MHz :
    ¬ FrequencyKept tim3.timer 10 resetTimers ∧
      ¬ FrequencyKept timer1.timer 536870912 resetRegs := by
  constructor
  · intro h
    have hfits : Stm32.Fits ⟨50000000, 100000000⟩ 0x1000 .tim3 10 :=
      Stm32.fits_of_kept (by decide) h
    exact absurd (hfits.narrow rfl) (by decide)
  · intro h
    have hexact : Avr.ProductsExact 16000000 536870912 Avr.kDiv := h.exact (Or.inl rfl)
    exact absurd ((Avr.productsExact_iff (by decide)).mp hexact) (by decide)

end NavHAL.Pwm
