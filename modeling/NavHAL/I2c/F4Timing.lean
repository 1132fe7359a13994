import Mathlib.Algebra.Order.Field.Basic
import Mathlib.Data.Rat.Cast.Order
import NavHAL.Clock.Reporting
import NavHAL.I2c.F4Master
import NavHAL.Lib.BitField

/-!
# The bus clock of the F4 (`stm32_i2c_init`)

The clock divider and the rise time that `hal_i2c_init` programs, from the APB1 clock as it
is reported, against the APB1 clock as it is.  Both quotients are cut off, which makes the
bus faster, and `TRISE` is computed from five of the six bits of `FREQ` in standard mode.
-/

namespace NavHAL.I2c.F4

open BitField
open Clock (Board Regs decodePrescaler decodeApbPrescaler halClockGetApb1clk stm32ClockGetSysclk)

/-! ## The set-up -/

/-- `hal_i2c_speed_t` -/
inductive I2cSpeed
  | standard
  | fast
  deriving DecidableEq

/-- `hal_i2c_config_t` -/
structure I2cConfig where
  clockSpeed : I2cSpeed
  ownAddress : UInt8
  acknowledge : Bool

structure I2cRegs where
  cr1 : BitVec 32
  cr2 : BitVec 32
  ccr : BitVec 32
  trise : BitVec 32

structure I2cState where
  apb1enr : BitVec 32
  regs : UInt32 → I2cRegs
  /-- `__i2c_init_status` -/
  initStatus : BitVec 8

def i2cMaster : UInt8 := 0

def i2cCr1Pe : BitVec 32 := 1#32 <<< 0
def i2cCr1Swrst : BitVec 32 := 1#32 <<< 15
def i2cCr2Freq : BitVec 32 := 0x3F#32 <<< 0
def i2cCcrCcr : BitVec 32 := 0xFFF#32 <<< 0
def i2cCcrFs : BitVec 32 := 1#32 <<< 15

/-- The writes between the enabling of the clock and the end of `stm32_i2c_init`. -/
def programTiming (busClockFreq : BitVec 32) (clockSpeed : I2cSpeed) (r : I2cRegs) : I2cRegs :=
  let cr1 := r.cr1 &&& ~~~i2cCr1Pe
  let cr1 := cr1 ||| i2cCr1Swrst
  let cr1 := cr1 &&& ~~~i2cCr1Swrst
  let cr2 := r.cr2 &&& ~~~i2cCr2Freq
  let cr2 := cr2 ||| (busClockFreq / 1000000#32 &&& i2cCr2Freq)
  let fscl := if clockSpeed = .standard then 100000#32 else 400000#32
  let ccr := r.ccr &&& ~~~(i2cCcrCcr ||| i2cCcrFs)
  match clockSpeed with
  | .standard =>
    { cr1 := cr1 ||| i2cCr1Pe
      cr2 := cr2
      ccr := ccr ||| busClockFreq / (2#32 * fscl)
      trise := (cr2 &&& 0x1F#32) + 1#32 }
  | .fast =>
    { cr1 := cr1 ||| i2cCr1Pe
      cr2 := cr2
      ccr := ccr ||| (i2cCcrFs ||| busClockFreq / (3#32 * fscl))
      trise := (cr2 &&& i2cCr2Freq) * 300#32 / 1000#32 + 1#32 }

/-- `switch (bus)` -/
def markInit (bus : UInt32) (status : BitVec 8) : BitVec 8 :=
  if bus = 0 then status + 1#8
  else if bus = 1 then status + 2#8
  else if bus = 2 then status + 4#8
  else status

def stm32I2cInit (board : Board) (rcc : Regs) (bus : UInt32) (config : I2cConfig) (s : I2cState) :
    HalStatus × I2cState :=
  if !i2cBusValid bus then (.errInvalidArg, s)
  else if s.initStatus.getLsbD bus.toNat then (.errNotInitialized, s)
  else if config.ownAddress = i2cMaster then
    let busClockFreq := BitVec.ofNat 32 (halClockGetApb1clk board rcc)
    (.ok,
      { apb1enr := s.apb1enr ||| 1#32 <<< (21 + bus.toNat)
        regs := fun n =>
          if n = bus then programTiming busClockFreq config.clockSpeed (s.regs n) else s.regs n
        initStatus := markInit bus s.initStatus })
  else (.errIo, s)

/-! ## What the bus is to be -/

namespace I2cSpeed

def limitHz : I2cSpeed → Nat
  | standard => 100000
  | fast => 400000

/-- A period of SCL is so many times `CCR` clocks. -/
def periods : I2cSpeed → Nat
  | standard => 2
  | fast => 3

def leastCcr : I2cSpeed → Nat
  | standard => 4
  | fast => 1

/-- The slowest APB1 clock that the mode allows. -/
def leastHz : I2cSpeed → Nat
  | standard => 2000000
  | fast => 4000000

def riseNs : I2cSpeed → Nat
  | standard => 1000
  | fast => 300

end I2cSpeed

/-- The APB1 clock: SYSCLK through both prescalers. -/
def apb1Hz (board : Board) (rcc : Regs) : Nat :=
  stm32ClockGetSysclk board rcc / decodePrescaler rcc.hpreField / decodeApbPrescaler rcc.ppre1Field

/-- An APB1 clock that the mode can be run from. -/
def Allowed (speed : I2cSpeed) (f : Nat) : Prop := speed.leastHz ≤ f ∧ f ≤ 42000000

def sclHz (speed : I2cSpeed) (f ccr : Nat) : ℚ := f / (speed.periods * ccr : ℕ)

/-- The timing registers are right for the mode and an APB1 clock of `f`. -/
structure Timed (speed : I2cSpeed) (f : Nat) (r : I2cRegs) : Prop where
  freq : (field 0 6 r.cr2).toNat = f / 1000000
  mode : r.ccr.getLsbD 15 = decide (speed = .fast)
  least : speed.leastCcr ≤ (field 0 12 r.ccr).toNat
  rate : sclHz speed f (field 0 12 r.ccr).toNat ≤ speed.limitHz
  trise : (field 0 6 r.trise).toNat = speed.riseNs * (field 0 6 r.cr2).toNat / 1000 + 1

/-- A set-up fails, or leaves the bus with the right timing. -/
def FailsOrTimes (board : Board) (rcc : Regs) (bus : UInt32) (config : I2cConfig) (s : I2cState) :
    Prop :=
  (stm32I2cInit board rcc bus config s).1 = .ok →
    Timed config.clockSpeed (apb1Hz board rcc) ((stm32I2cInit board rcc bus config s).2.regs bus)

/-! ## What is programmed -/

section

variable (freq : BitVec 32) (speed : I2cSpeed) (r : I2cRegs)

/-- A field that is cleared, and then written through its mask. -/
theorem field_rewrite {pos w : Nat} {mask u v : BitVec 32} (hw : pos + w ≤ 32)
    (hmask : field pos w mask = BitVec.allOnes w) :
    field pos w (u &&& ~~~mask ||| v) = field pos w v := by
  rw [field_or, field_and, field_not _ hw, hmask]
  simp

theorem programTiming_freq :
    (field 0 6 (programTiming freq speed r).cr2).toNat = freq.toNat / 1000000 % 64 := by
  have hcr2 : (programTiming freq speed r).cr2 =
      r.cr2 &&& ~~~i2cCr2Freq ||| (freq / 1000000#32 &&& i2cCr2Freq) := by
    cases speed <;> rfl
  rw [hcr2, field_rewrite (by decide) (by decide), field_and]
  have hmask : field 0 6 i2cCr2Freq = BitVec.allOnes 6 := by decide
  rw [hmask, BitVec.and_allOnes, field_zero_toNat, BitVec.toNat_udiv]
  rfl

theorem programTiming_ccr :
    (field 0 12 (programTiming freq speed r).ccr).toNat =
      freq.toNat / (speed.periods * speed.limitHz) % 4096 := by
  have hmask : field 0 12 (i2cCcrCcr ||| i2cCcrFs) = BitVec.allOnes 12 := by decide
  cases speed with
  | standard =>
    have hccr : (programTiming freq .standard r).ccr =
        r.ccr &&& ~~~(i2cCcrCcr ||| i2cCcrFs) ||| freq / 200000#32 := rfl
    rw [hccr, field_rewrite (by decide) hmask, field_zero_toNat, BitVec.toNat_udiv]
    rfl
  | fast =>
    have hccr : (programTiming freq .fast r).ccr =
        r.ccr &&& ~~~(i2cCcrCcr ||| i2cCcrFs) ||| (i2cCcrFs ||| freq / 1200000#32) := rfl
    have hfs : field 0 12 i2cCcrFs = 0 := by decide
    rw [hccr, field_rewrite (by decide) hmask, field_or, hfs]
    change (0#12 ||| field 0 12 (freq / 1200000#32)).toNat = freq.toNat / 1200000 % 4096
    rw [BitVec.zero_or, field_zero_toNat, BitVec.toNat_udiv]
    rfl

/-- A divider that overflows its field stays below the mode bit. -/
theorem programTiming_mode :
    (programTiming freq speed r).ccr.getLsbD 15 = decide (speed = .fast) := by
  have hfreq := freq.isLt
  have hmask : (i2cCcrCcr ||| i2cCcrFs).getLsbD 15 = true := by decide
  cases speed with
  | standard =>
    have hccr : (programTiming freq .standard r).ccr =
        r.ccr &&& ~~~(i2cCcrCcr ||| i2cCcrFs) ||| freq / 200000#32 := rfl
    have hlow : (freq / 200000#32).getLsbD 15 = false := by
      rw [BitVec.getLsbD, BitVec.toNat_udiv]
      exact Nat.testBit_lt_two_pow (by change freq.toNat / 200000 < 32768; omega)
    rw [hccr, BitVec.getLsbD_or, BitVec.getLsbD_and, BitVec.getLsbD_not, hmask, hlow]
    simp
  | fast =>
    have hccr : (programTiming freq .fast r).ccr =
        r.ccr &&& ~~~(i2cCcrCcr ||| i2cCcrFs) ||| (i2cCcrFs ||| freq / 1200000#32) := rfl
    have hfs : i2cCcrFs.getLsbD 15 = true := by decide
    rw [hccr, BitVec.getLsbD_or, BitVec.getLsbD_or, hfs]
    simp

/-- `TRISE` from `FREQ`, in standard mode without its top bit. -/
def riseOf : I2cSpeed → Nat → Nat
  | .standard, mhz => mhz % 32 + 1
  | .fast, mhz => mhz * 300 / 1000 + 1

theorem programTiming_trise :
    (field 0 6 (programTiming freq speed r).trise).toNat =
      riseOf speed (field 0 6 (programTiming freq speed r).cr2).toNat := by
  cases speed with
  | standard =>
    have htrise : (programTiming freq .standard r).trise =
        ((programTiming freq .standard r).cr2 &&& 0x1F#32) + 1#32 := rfl
    have hlow : ((programTiming freq .standard r).cr2 &&& 0x1F#32).toNat =
        (programTiming freq .standard r).cr2.toNat % 32 :=
      (BitVec.toNat_and _ _).trans (Nat.and_two_pow_sub_one_eq_mod _ 5)
    have hone : (1#32).toNat = 1 := rfl
    rw [htrise, riseOf, field_zero_toNat, field_zero_toNat, BitVec.toNat_add, hlow, hone]
    omega
  | fast =>
    have htrise : (programTiming freq .fast r).trise =
        ((programTiming freq .fast r).cr2 &&& i2cCr2Freq) * 300#32 / 1000#32 + 1#32 := rfl
    have hlow : ((programTiming freq .fast r).cr2 &&& i2cCr2Freq).toNat =
        (programTiming freq .fast r).cr2.toNat % 64 :=
      (BitVec.toNat_and _ _).trans (Nat.and_two_pow_sub_one_eq_mod _ 6)
    have hone : (1#32).toNat = 1 := rfl
    have hrise : (300#32).toNat = 300 := rfl
    have hkilo : (1000#32).toNat = 1000 := rfl
    rw [htrise, riseOf, field_zero_toNat, field_zero_toNat, BitVec.toNat_add, BitVec.toNat_udiv,
      BitVec.toNat_mul, hlow, hone, hrise, hkilo]
    have hmhz := Nat.mod_lt (programTiming freq .fast r).cr2.toNat (by decide : 0 < 64)
    change (_ % 64 * 300 % 4294967296 / 1000 + 1) % 4294967296 % 64 = _ % 64 * 300 / 1000 + 1
    generalize (programTiming freq .fast r).cr2.toNat % 64 = mhz at hmhz ⊢
    rw [Nat.mod_eq_of_lt (by omega : mhz * 300 < 4294967296)]
    omega

end

/-! ## When it is right -/

/-- With `f` for the APB1 clock and `reported` for what the driver is told of it. -/
def Timely (speed : I2cSpeed) (f reported : Nat) : Prop :=
  reported / 1000000 % 64 = f / 1000000 ∧
    f ≤ speed.periods * speed.limitHz * (reported / (speed.periods * speed.limitHz) % 4096) ∧
    (speed = .standard → f < 32000000)

/-- The clock that is reported is the APB1 clock: it has to be a multiple of the rate asked
for, and in standard mode `FREQ` has to fit five bits. -/
theorem timely_self_iff {speed : I2cSpeed} {f : Nat} (hf : Allowed speed f) :
    Timely speed f f ↔
      speed.periods * speed.limitHz ∣ f ∧ (speed = .standard → f < 32000000) := by
  obtain ⟨-, hmax⟩ := hf
  have hmhz : f / 1000000 % 64 = f / 1000000 := Nat.mod_eq_of_lt (by omega)
  have hdvd : ∀ {k : Nat}, 0 < k → f / k < 4096 → (f ≤ k * (f / k % 4096) ↔ k ∣ f) := by
    intro k hk hlt
    rw [Nat.mod_eq_of_lt hlt]
    constructor
    · exact fun h => ⟨f / k, Nat.le_antisymm h (Nat.mul_div_le f k)⟩
    · exact fun h => Nat.le_of_eq (Nat.mul_div_cancel' h).symm
  unfold Timely
  rw [and_iff_right hmhz]
  refine and_congr ?_ Iff.rfl
  cases speed with
  | standard => exact hdvd (by decide) (by change f / 200000 < 4096; omega)
  | fast => exact hdvd (by decide) (by change f / 1200000 < 4096; omega)

theorem I2cSpeed.leastCcr_pos (speed : I2cSpeed) : 0 < speed.leastCcr := by
  cases speed <;> decide

theorem I2cSpeed.periods_pos (speed : I2cSpeed) : 0 < speed.periods := by
  cases speed <;> decide

theorem sclHz_le_iff {speed : I2cSpeed} {f ccr limit : Nat} (hccr : 0 < ccr) :
    sclHz speed f ccr ≤ limit ↔ f ≤ speed.periods * limit * ccr := by
  have hpos : 0 < speed.periods * ccr := Nat.mul_pos speed.periods_pos hccr
  have hcast : (0 : ℚ) < (speed.periods * ccr : ℕ) := by exact_mod_cast hpos
  rw [sclHz, div_le_iff₀ hcast, ← Nat.cast_mul, Nat.cast_le, Nat.mul_left_comm, Nat.mul_assoc]

theorem timed_iff {speed : I2cSpeed} {f : Nat} (hf : Allowed speed f) (freq : BitVec 32)
    (r : I2cRegs) : Timed speed f (programTiming freq speed r) ↔ Timely speed f freq.toNat := by
  have hmhz := programTiming_freq freq speed r
  have hccr := programTiming_ccr freq speed r
  have htrise := programTiming_trise freq speed r
  obtain ⟨hmin, hmax⟩ := hf
  constructor
  · rintro ⟨hfreq, -, hleast, hrate, hrise⟩
    have hpos := Nat.lt_of_lt_of_le speed.leastCcr_pos hleast
    rw [sclHz_le_iff hpos, hccr] at hrate
    refine ⟨hmhz.symm.trans hfreq, hrate, fun hstd => ?_⟩
    subst hstd
    rw [htrise, hfreq] at hrise
    change f / 1000000 % 32 + 1 = 1000 * (f / 1000000) / 1000 + 1 at hrise
    omega
  · rintro ⟨hfreq, hrate, hfive⟩
    have hleast : speed.leastCcr ≤ (field 0 12 (programTiming freq speed r).ccr).toNat := by
      rw [hccr]
      cases speed with
      | standard =>
        have hstd : f ≤ 200000 * (freq.toNat / 200000 % 4096) := hrate
        have hlow : 2000000 ≤ f := hmin
        change 4 ≤ freq.toNat / 200000 % 4096
        omega
      | fast =>
        have hfast : f ≤ 1200000 * (freq.toNat / 1200000 % 4096) := hrate
        have hlow : 4000000 ≤ f := hmin
        change 1 ≤ freq.toNat / 1200000 % 4096
        omega
    have hpos := Nat.lt_of_lt_of_le speed.leastCcr_pos hleast
    refine ⟨hmhz.trans hfreq, programTiming_mode freq speed r, hleast, ?_, ?_⟩
    · rw [sclHz_le_iff hpos, hccr]
      exact hrate
    · rw [htrise]
      cases speed with
      | standard =>
        have hlow := hfive rfl
        rw [hmhz, hfreq]
        change f / 1000000 % 32 + 1 = 1000 * (f / 1000000) / 1000 + 1
        omega
      | fast =>
        change _ * 300 / 1000 + 1 = 300 * _ / 1000 + 1
        rw [Nat.mul_comm]

/-! ## The set-up -/

theorem getApb1clk_lt (board : Board) (rcc : Regs) :
    halClockGetApb1clk board rcc < 4294967296 := by
  have hsys : stm32ClockGetSysclk board rcc < 4294967296 := by
    unfold stm32ClockGetSysclk
    split
    · exact board.hsiFreqHz.toNat_lt
    · exact board.hseFreqHz.toNat_lt
    · exact Nat.lt_of_le_of_lt (Nat.div_le_self _ _) (Nat.mod_lt _ (by decide))
    · decide
  exact Nat.lt_of_le_of_lt (Nat.div_le_self _ _) hsys

/-- The set-up of a bus that is free for a master is right exactly at these clocks. -/
theorem fails_or_times_iff (board : Board) (rcc : Regs) (bus : UInt32) (config : I2cConfig)
    (s : I2cState) (hf : Allowed config.clockSpeed (apb1Hz board rcc)) :
    FailsOrTimes board rcc bus config s ↔
      (i2cBusValid bus = true → s.initStatus.getLsbD bus.toNat = false →
        config.ownAddress = i2cMaster →
          Timely config.clockSpeed (apb1Hz board rcc) (halClockGetApb1clk board rcc)) := by
  unfold FailsOrTimes stm32I2cInit
  by_cases hbus : i2cBusValid bus = true
  · have hvalid : ¬ (!i2cBusValid bus) = true := by
      rw [hbus]
      decide
    rw [if_neg hvalid]
    by_cases hfree : s.initStatus.getLsbD bus.toNat = true
    · rw [if_pos hfree]
      refine iff_of_true (fun hok => HalStatus.noConfusion hok) fun _ hclear => ?_
      exact Bool.noConfusion (hfree.symm.trans hclear)
    rw [if_neg hfree]
    by_cases hmaster : config.ownAddress = i2cMaster
    · have htoNat : (BitVec.ofNat 32 (halClockGetApb1clk board rcc)).toNat =
          halClockGetApb1clk board rcc := by
        rw [BitVec.toNat_ofNat]
        exact Nat.mod_eq_of_lt (getApb1clk_lt board rcc)
      have hiff := timed_iff hf (BitVec.ofNat 32 (halClockGetApb1clk board rcc)) (s.regs bus)
      rw [htoNat] at hiff
      rw [if_pos hmaster]
      dsimp only
      rw [if_pos rfl]
      constructor
      · exact fun h _ _ _ => hiff.mp (h rfl)
      · exact fun h _ => hiff.mpr (h hbus (Bool.eq_false_iff.mpr hfree) hmaster)
    · rw [if_neg hmaster]
      exact iff_of_true (fun hok => HalStatus.noConfusion hok) fun _ _ h => absurd h hmaster
  · have hinvalid : (!i2cBusValid bus) = true := by
      rw [Bool.eq_false_iff.mpr hbus]
      rfl
    rw [if_pos hinvalid]
    exact iff_of_true (fun hok => HalStatus.noConfusion hok) fun h => absurd h hbus

/-- Out of reset, on the internal oscillator. -/
def resetBoard : Board where
  hsiFreqHz := 16000000
  hseFreqHz := 8000000
  hseBypass := true

def resetRcc : Regs where
  cr := 0x83#32
  pllcfgr := 0x24003010#32
  cfgr := 0#32
  acr := 0#32

def resetI2c : I2cState where
  apb1enr := 0#32
  regs := fun _ => ⟨0#32, 0#32, 0#32, 2#32⟩
  initStatus := 0#8

/-- Standard mode at 16 MHz, which is 80 times twice the rate. -/
theorem standard_at_reset :
    FailsOrTimes resetBoard resetRcc 0 ⟨.standard, i2cMaster, true⟩ resetI2c :=
  (fails_or_times_iff resetBoard resetRcc 0 ⟨.standard, i2cMaster, true⟩ resetI2c
    ⟨by decide, by decide⟩).mpr fun _ _ _ => ⟨by decide, by decide, fun _ => by decide⟩

/-- Fast mode at 16 MHz: `CCR` is 13, and SCL runs at 410 kHz. -/
theorem fast_bus_too_fast :
    Allowed .fast (apb1Hz resetBoard resetRcc) ∧
      ¬ FailsOrTimes resetBoard resetRcc 0 ⟨.fast, i2cMaster, true⟩ resetI2c := by
  have hallowed : Allowed .fast (apb1Hz resetBoard resetRcc) := ⟨by decide, by decide⟩
  refine ⟨hallowed, fun htimes => ?_⟩
  have htimed : Timed .fast 16000000 (programTiming 16000000#32 .fast ⟨0#32, 0#32, 0#32, 2#32⟩) :=
    htimes rfl
  have hdvd := (timely_self_iff hallowed).mp ((timed_iff hallowed 16000000#32 _).mp htimed)
  exact absurd hdvd.1 (by decide)

end NavHAL.I2c.F4
