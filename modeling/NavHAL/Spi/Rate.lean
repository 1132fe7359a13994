import Mathlib.Algebra.Order.Floor.Semifield
import Mathlib.Data.Rat.Floor
import NavHAL.Lib.BitField
import NavHAL.Uart.Backends

/-!
# The rate of an SPI (`hal_spi_init_hz`)

The divider of an SPI is `2 ^ (BR + 1)`.  `hal_spi_init_hz` takes the first one that brings
the clock down to the rate asked for, and compares the quotient after it has been cut off:
`rate_kept_iff` has the clocks for which that makes no difference.
-/

namespace NavHAL.Spi

open BitField
open Uart (ApbClocks)

/-! ## The shared layer -/

/-- `hal_spi_instance_t` -/
inductive HalSpiInstance
  | spi1
  | spi2
  deriving DecidableEq

inductive HalSpiCpol
  | low
  | high
  deriving DecidableEq

inductive HalSpiCpha
  | edge1
  | edge2
  deriving DecidableEq

inductive HalSpiDatasize
  | bit8
  | bit16
  deriving DecidableEq

inductive HalSpiFirstbit
  | msb
  | lsb
  deriving DecidableEq

/-- `hal_spi_config_t`; `baudrate` is the selector as the drivers shift it. -/
structure HalSpiConfig where
  baudrate : BitVec 32
  cpol : HalSpiCpol
  cpha : HalSpiCpha
  datasize : HalSpiDatasize
  firstbit : HalSpiFirstbit

/-- `hal_spi_ops_t`, as far as the rate goes. -/
structure HalSpiOps (σ : Type) where
  init : HalSpiInstance → HalSpiConfig → σ → HalStatus × σ
  inputClock : HalSpiInstance → UInt32
  getBaudrate : HalSpiInstance → σ → UInt8

section

variable {σ : Type} (ops : HalSpiOps σ)

def halSpiGetClockHz (spi : HalSpiInstance) (s : σ) : UInt32 :=
  let pclk := ops.inputClock spi
  if pclk = 0 then 0 else pclk >>> ((ops.getBaudrate spi s).toUInt32 + 1)

/-- The loop: the first `BR` of `SPI_BR_MIN` to `SPI_BR_MAX` that is slow enough. -/
def selectBr (pclk targetHz : UInt32) : Option Nat :=
  (List.range 8).find? fun br => pclk >>> UInt32.ofNat (br + 1) ≤ targetHz

def halSpiInitHz (spi : HalSpiInstance) (cfg : Option HalSpiConfig) (targetHz : UInt32) (s : σ) :
    HalStatus × σ :=
  match cfg with
  | none => (.errInvalidArg, s)
  | some cfg =>
    if targetHz = 0 then (.errInvalidArg, s)
    else
      let pclk := ops.inputClock spi
      if pclk = 0 then (.errInvalidArg, s)
      else
        match selectBr pclk targetHz with
        | none => (.errInvalidArg, s)
        | some br => ops.init spi { cfg with baudrate := BitVec.ofNat 32 br } s

end

/-! ## The STM32 -/

structure SpiRegs where
  cr1 : BitVec 32
  cr2 : BitVec 32

structure Stm32Spi where
  apb1enr : BitVec 32
  apb2enr : BitVec 32
  regs : HalSpiInstance → SpiRegs

/-- The two drivers, which set the data size in different registers. -/
inductive Family
  | f4
  | f7
  deriving DecidableEq

def spiCr1Cpha : BitVec 32 := 1#32 <<< 0
def spiCr1Cpol : BitVec 32 := 1#32 <<< 1
def spiCr1Mstr : BitVec 32 := 1#32 <<< 2
def spiCr1BrPos : Nat := 3
def spiCr1BrMsk : BitVec 32 := 7#32 <<< spiCr1BrPos
def spiCr1Spe : BitVec 32 := 1#32 <<< 6
def spiCr1Lsbfirst : BitVec 32 := 1#32 <<< 7
def spiCr1Ssi : BitVec 32 := 1#32 <<< 8
def spiCr1Ssm : BitVec 32 := 1#32 <<< 9
def spiCr1Dff : BitVec 32 := 1#32 <<< 11
def spiCr2Ds8bit : BitVec 32 := 7#32 <<< 8
def spiCr2Ds16bit : BitVec 32 := 15#32 <<< 8
def spiCr2Frxth : BitVec 32 := 1#32 <<< 12

/-- `GET_SPIx_BASE` -/
def getSpi : HalSpiInstance → BitVec 32
  | .spi1 => 0x40013000#32
  | .spi2 => 0x40003800#32

def enableSpiClock (spi : HalSpiInstance) (s : Stm32Spi) : Stm32Spi :=
  match spi with
  | .spi1 => { s with apb2enr := s.apb2enr ||| 1#32 <<< 12 }
  | .spi2 => { s with apb1enr := s.apb1enr ||| 1#32 <<< 14 }

/-- `CR1`, which the drivers put together from 0; `dff` is the F4's data size. -/
def cr1Word (config : HalSpiConfig) (dff : Bool) : BitVec 32 :=
  let cr1 := spiCr1Mstr
  let cr1 := cr1 ||| config.baudrate <<< spiCr1BrPos
  let cr1 := if config.cpol = .high then cr1 ||| spiCr1Cpol else cr1
  let cr1 := if config.cpha = .edge2 then cr1 ||| spiCr1Cpha else cr1
  let cr1 := if dff && config.datasize = .bit16 then cr1 ||| spiCr1Dff else cr1
  let cr1 := if config.firstbit = .lsb then cr1 ||| spiCr1Lsbfirst else cr1
  cr1 ||| (spiCr1Ssm ||| spiCr1Ssi)

def cr2Word (family : Family) (config : HalSpiConfig) : BitVec 32 :=
  match family with
  | .f4 => 0#32
  | .f7 => if config.datasize = .bit16 then spiCr2Ds16bit else spiCr2Ds8bit ||| spiCr2Frxth

/-- `stm32_spi_init` and `stm32f7_spi_init` -/
def stm32SpiInit (family : Family) (spi : HalSpiInstance) (config : HalSpiConfig) (s : Stm32Spi) :
    HalStatus × Stm32Spi :=
  if getSpi spi = 0#32 then (.errInvalidArg, s)
  else
    let s := enableSpiClock spi s
    (.ok, { s with
      regs := fun n =>
        if n = spi then
          { cr1 := cr1Word config (decide (family = .f4)) ||| spiCr1Spe
            cr2 := cr2Word family config }
        else s.regs n })

def stm32SpiInputClock (clocks : ApbClocks) (spi : HalSpiInstance) : UInt32 :=
  if spi = .spi1 then clocks.apb2 else clocks.apb1

def stm32SpiGetBaudrate (spi : HalSpiInstance) (s : Stm32Spi) : UInt8 :=
  if getSpi spi = 0#32 then 0
  else UInt8.ofBitVec (((s.regs spi).cr1 &&& spiCr1BrMsk) >>> spiCr1BrPos |>.setWidth 8)

/-- `_hal_spi_ops` -/
def stm32SpiOps (family : Family) (clocks : ApbClocks) : HalSpiOps Stm32Spi where
  init := stm32SpiInit family
  inputClock := stm32SpiInputClock clocks
  getBaudrate := stm32SpiGetBaudrate

/-! ## What the rate is to be -/

/-- The rate at this selector. -/
def bitRate (pclk : UInt32) (br : Nat) : ℚ := pclk.toNat / (2 ^ (br + 1) : ℕ)

/-- The fastest divider that does not exceed the rate is programmed and read back, and the
rest of the configuration is passed on. -/
structure Programs (family : Family) (clocks : ApbClocks) (spi : HalSpiInstance)
    (cfg : HalSpiConfig) (targetHz : UInt32) (s : Stm32Spi) (br : Nat) : Prop where
  range : br < 8
  slow : bitRate (stm32SpiInputClock clocks spi) br ≤ targetHz.toNat
  fastest : ∀ br' < br, (targetHz.toNat : ℚ) < bitRate (stm32SpiInputClock clocks spi) br'
  passes : halSpiInitHz (stm32SpiOps family clocks) spi (some cfg) targetHz s =
    stm32SpiInit family spi { cfg with baudrate := BitVec.ofNat 32 br } s
  ok : (halSpiInitHz (stm32SpiOps family clocks) spi (some cfg) targetHz s).1 = .ok
  selects : (field 3 3 ((halSpiInitHz (stm32SpiOps family clocks) spi (some cfg)
    targetHz s).2.regs spi).cr1).toNat = br
  reported : (halSpiGetClockHz (stm32SpiOps family clocks) spi
    (halSpiInitHz (stm32SpiOps family clocks) spi (some cfg) targetHz s).2).toNat =
      ⌊bitRate (stm32SpiInputClock clocks spi) br⌋₊

/-- The call refuses a rate that is out of reach of the last divider, and no other. -/
structure RateKept (family : Family) (clocks : ApbClocks) (spi : HalSpiInstance)
    (cfg : HalSpiConfig) (targetHz : UInt32) (s : Stm32Spi) : Prop where
  refused : (halSpiInitHz (stm32SpiOps family clocks) spi (some cfg) targetHz s).1 =
    .errInvalidArg ↔ (targetHz.toNat : ℚ) < bitRate (stm32SpiInputClock clocks spi) 7
  programmed : (halSpiInitHz (stm32SpiOps family clocks) spi (some cfg) targetHz s).1 ≠
    .errInvalidArg → ∃ br, Programs family clocks spi cfg targetHz s br

/-- The rate at this selector is above the one asked for, by less than a hertz. -/
def JustAbove (pclk targetHz : UInt32) (br : Nat) : Prop :=
  targetHz.toNat * 2 ^ (br + 1) < pclk.toNat ∧ pclk.toNat < (targetHz.toNat + 1) * 2 ^ (br + 1)

/-! ## The selector -/

section

variable {pclk targetHz : UInt32} {br : Nat}

theorem bitRate_le_iff :
    bitRate pclk br ≤ targetHz.toNat ↔ pclk.toNat ≤ targetHz.toNat * 2 ^ (br + 1) := by
  have hpos : (0 : ℚ) < (2 ^ (br + 1) : ℕ) := by exact_mod_cast Nat.two_pow_pos (br + 1)
  rw [bitRate, div_le_iff₀ hpos]
  exact_mod_cast Iff.rfl

theorem floor_bitRate : ⌊bitRate pclk br⌋₊ = pclk.toNat / 2 ^ (br + 1) :=
  Nat.floor_div_eq_div _ _

theorem shift_toNat (hbr : br < 8) :
    (pclk >>> UInt32.ofNat (br + 1)).toNat = pclk.toNat / 2 ^ (br + 1) := by
  have hshift : (UInt32.ofNat (br + 1)).toNat % 32 = br + 1 := by
    rw [UInt32.toNat_ofNat']
    omega
  rw [UInt32.toNat_shiftRight, hshift, Nat.shiftRight_eq_div_pow]

/-- The comparison of the code, which is made on the quotient. -/
theorem shift_le_iff (hbr : br < 8) :
    pclk >>> UInt32.ofNat (br + 1) ≤ targetHz ↔
      pclk.toNat < (targetHz.toNat + 1) * 2 ^ (br + 1) := by
  rw [UInt32.le_iff_toNat_le, shift_toNat hbr, ← Nat.lt_succ_iff,
    Nat.div_lt_iff_lt_mul (Nat.two_pow_pos _)]

theorem selectBr_eq_some_iff :
    selectBr pclk targetHz = some br ↔
      br < 8 ∧ pclk.toNat < (targetHz.toNat + 1) * 2 ^ (br + 1) ∧
        ∀ br' < br, (targetHz.toNat + 1) * 2 ^ (br' + 1) ≤ pclk.toNat := by
  simp only [selectBr, List.find?_range_eq_some, List.mem_range, decide_eq_true_eq,
    Bool.not_eq_true', decide_eq_false_iff_not]
  constructor
  · rintro ⟨hle, hbr, hfirst⟩
    refine ⟨hbr, (shift_le_iff hbr).mp hle, fun br' hlt => ?_⟩
    exact Nat.not_lt.mp (mt (shift_le_iff (by omega)).mpr (hfirst br' hlt))
  · rintro ⟨hbr, hle, hfirst⟩
    refine ⟨(shift_le_iff hbr).mpr hle, hbr, fun br' hlt => ?_⟩
    exact mt (shift_le_iff (by omega)).mp (Nat.not_lt.mpr (hfirst br' hlt))

theorem selectBr_eq_none (h : selectBr pclk targetHz = none) (hbr : br < 8) :
    (targetHz.toNat + 1) * 2 ^ (br + 1) ≤ pclk.toNat := by
  have hno := List.find?_eq_none.mp h br (List.mem_range.mpr hbr)
  rw [decide_eq_true_eq] at hno
  exact Nat.not_lt.mp (mt (shift_le_iff hbr).mpr hno)

/-- A selector just above is the one that the loop stops at: one less is twice as fast. -/
theorem JustAbove.selected (h : JustAbove pclk targetHz br) (hbr : br < 8) (hpos : targetHz ≠ 0) :
    selectBr pclk targetHz = some br := by
  have htarget : 0 < targetHz.toNat :=
    Nat.pos_of_ne_zero fun hz => hpos (UInt32.toNat_inj.mp hz)
  refine selectBr_eq_some_iff.mpr ⟨hbr, h.2, fun br' hlt => ?_⟩
  calc (targetHz.toNat + 1) * 2 ^ (br' + 1)
      ≤ (2 * targetHz.toNat) * 2 ^ (br' + 1) := Nat.mul_le_mul_right _ (by omega)
    _ = targetHz.toNat * 2 ^ (br' + 1 + 1) := by rw [Nat.pow_succ 2 (br' + 1)]; ring
    _ ≤ targetHz.toNat * 2 ^ (br + 1) :=
        Nat.mul_le_mul_left _ (Nat.pow_le_pow_right (by decide) (by omega))
    _ ≤ pclk.toNat := Nat.le_of_lt h.1

end

/-! ## The registers -/

section

variable {family : Family} {clocks : ApbClocks} {spi : HalSpiInstance} {cfg : HalSpiConfig}
  {targetHz : UInt32} {s : Stm32Spi} {br : Nat}

theorem cr1Word_br (config : HalSpiConfig) (dff : Bool) :
    field 3 3 (cr1Word config dff ||| spiCr1Spe) = field 0 3 config.baudrate := by
  have hspe : field 3 3 spiCr1Spe = 0 := by decide
  have hssm : field 3 3 (spiCr1Ssm ||| spiCr1Ssi) = 0 := by decide
  have hmstr : field 3 3 spiCr1Mstr = 0 := by decide
  rw [field_or, hspe, cr1Word, field_or, hssm, field_ite_or _ _ (by decide),
    field_ite_or _ _ (by decide), field_ite_or _ _ (by decide), field_ite_or _ _ (by decide),
    field_or, hmstr, spiCr1BrPos, field_shiftLeft _ (by decide) (by decide)]
  simp

theorem stm32SpiInit_eq : stm32SpiInit family spi cfg s =
    (.ok, { enableSpiClock spi s with
      regs := fun n =>
        if n = spi then
          { cr1 := cr1Word cfg (decide (family = .f4)) ||| spiCr1Spe, cr2 := cr2Word family cfg }
        else (enableSpiClock spi s).regs n }) := by
  cases spi <;> exact if_neg (by decide)

theorem stm32SpiInit_br (hbr : br < 8) :
    (field 3 3 ((stm32SpiInit family spi { cfg with baudrate := BitVec.ofNat 32 br } s).2.regs
      spi).cr1).toNat = br := by
  rw [stm32SpiInit_eq]
  dsimp only
  rw [if_pos rfl, cr1Word_br, field_zero_toNat, BitVec.toNat_ofNat]
  omega

theorem getBaudrate_toNat (spi : HalSpiInstance) (s : Stm32Spi) :
    (stm32SpiGetBaudrate spi s).toNat = (field 3 3 (s.regs spi).cr1).toNat := by
  have hbase : ¬ getSpi spi = 0#32 := by cases spi <;> decide
  have hread : (((s.regs spi).cr1 &&& spiCr1BrMsk) >>> spiCr1BrPos).toNat =
      (field 3 3 (s.regs spi).cr1).toNat := by
    rw [← toNat_shiftRight_and_mask (s.regs spi).cr1 (by decide), BitVec.ushiftRight_and_distrib]
    rfl
  have hlt := (field 3 3 (s.regs spi).cr1).isLt
  rw [stm32SpiGetBaudrate, if_neg hbase, UInt8.toNat_ofBitVec, BitVec.toNat_setWidth, hread]
  exact Nat.mod_eq_of_lt (by omega)

theorem halSpiGetClockHz_toNat (hpclk : stm32SpiInputClock clocks spi ≠ 0)
    (hbr : (field 3 3 (s.regs spi).cr1).toNat = br) :
    (halSpiGetClockHz (stm32SpiOps family clocks) spi s).toNat =
      (stm32SpiInputClock clocks spi).toNat / 2 ^ (br + 1) := by
  have hlt := (field 3 3 (s.regs spi).cr1).isLt
  have hread := (getBaudrate_toNat spi s).trans hbr
  have hshift : (stm32SpiGetBaudrate spi s).toUInt32 + 1 = UInt32.ofNat (br + 1) := by
    apply UInt32.toNat_inj.mp
    rw [UInt32.toNat_add, UInt8.toNat_toUInt32, hread, UInt32.toNat_ofNat']
    rfl
  have hclock : halSpiGetClockHz (stm32SpiOps family clocks) spi s =
      stm32SpiInputClock clocks spi >>> ((stm32SpiGetBaudrate spi s).toUInt32 + 1) :=
    if_neg hpclk
  rw [hclock, hshift, shift_toNat (by omega)]

/-! ## When it is kept -/

theorem initHz_of_selected (hpclk : stm32SpiInputClock clocks spi ≠ 0) (htarget : targetHz ≠ 0)
    (h : selectBr (stm32SpiInputClock clocks spi) targetHz = some br) :
    halSpiInitHz (stm32SpiOps family clocks) spi (some cfg) targetHz s =
      stm32SpiInit family spi { cfg with baudrate := BitVec.ofNat 32 br } s := by
  simp only [halSpiInitHz, stm32SpiOps, if_neg htarget, if_neg hpclk, h]

theorem initHz_of_none (hpclk : stm32SpiInputClock clocks spi ≠ 0) (htarget : targetHz ≠ 0)
    (h : selectBr (stm32SpiInputClock clocks spi) targetHz = none) :
    halSpiInitHz (stm32SpiOps family clocks) spi (some cfg) targetHz s = (.errInvalidArg, s) := by
  simp only [halSpiInitHz, stm32SpiOps, if_neg htarget, if_neg hpclk, h]

/-- What is selected is programmed and read back, whether it is slow enough or not. -/
theorem initHz_ok (family : Family) (cfg : HalSpiConfig) (s : Stm32Spi)
    (hpclk : stm32SpiInputClock clocks spi ≠ 0) (htarget : targetHz ≠ 0)
    (h : selectBr (stm32SpiInputClock clocks spi) targetHz = some br) :
    (halSpiInitHz (stm32SpiOps family clocks) spi (some cfg) targetHz s).1 = .ok ∧
      (field 3 3 ((halSpiInitHz (stm32SpiOps family clocks) spi (some cfg)
        targetHz s).2.regs spi).cr1).toNat = br := by
  rw [initHz_of_selected hpclk htarget h]
  refine ⟨?_, stm32SpiInit_br (selectBr_eq_some_iff.mp h).1⟩
  rw [stm32SpiInit_eq]

theorem Programs.of_selected (hpclk : stm32SpiInputClock clocks spi ≠ 0) (htarget : targetHz ≠ 0)
    (h : selectBr (stm32SpiInputClock clocks spi) targetHz = some br)
    (hslow : (stm32SpiInputClock clocks spi).toNat ≤ targetHz.toNat * 2 ^ (br + 1)) :
    Programs family clocks spi cfg targetHz s br := by
  obtain ⟨hbr, -, hfirst⟩ := selectBr_eq_some_iff.mp h
  obtain ⟨hok, hfield⟩ := initHz_ok family cfg s hpclk htarget h
  refine ⟨hbr, bitRate_le_iff.mpr hslow, fun br' hlt => ?_, initHz_of_selected hpclk htarget h,
    hok, hfield, ?_⟩
  · rw [← not_le, bitRate_le_iff]
    have hnext := hfirst br' hlt
    rw [Nat.succ_mul] at hnext
    have hpow := Nat.two_pow_pos (br' + 1)
    omega
  · rw [halSpiGetClockHz_toNat hpclk hfield, floor_bitRate]

end

/-- The rate is kept unless the clock, at one of the dividers, is above it by a fraction of
a hertz. -/
theorem rate_kept_iff (family : Family) (clocks : ApbClocks) (spi : HalSpiInstance)
    (cfg : HalSpiConfig) (targetHz : UInt32) (s : Stm32Spi)
    (hpclk : stm32SpiInputClock clocks spi ≠ 0) (htarget : targetHz ≠ 0) :
    RateKept family clocks spi cfg targetHz s ↔
      ∀ br < 8, ¬ JustAbove (stm32SpiInputClock clocks spi) targetHz br := by
  constructor
  · intro h br hbr habove
    have hselect := habove.selected hbr htarget
    obtain ⟨hok, hfield⟩ := initHz_ok family cfg s hpclk htarget hselect
    have hprogrammed := h.programmed fun herr => HalStatus.noConfusion (hok.symm.trans herr)
    obtain ⟨br', hprograms⟩ := hprogrammed
    have hsame : br' = br := hprograms.selects.symm.trans hfield
    have hslow := bitRate_le_iff.mp hprograms.slow
    rw [hsame] at hslow
    exact Nat.not_le.mpr habove.1 hslow
  · intro h
    cases hselect : selectBr (stm32SpiInputClock clocks spi) targetHz with
    | none =>
      have hlast := selectBr_eq_none hselect (by decide : 7 < 8)
      have hrefused : (halSpiInitHz (stm32SpiOps family clocks) spi (some cfg) targetHz s).1 =
          .errInvalidArg := by
        rw [initHz_of_none hpclk htarget hselect]
      refine ⟨iff_of_true hrefused ?_, fun hne => absurd hrefused hne⟩
      rw [← not_le, bitRate_le_iff]
      omega
    | some br =>
      obtain ⟨hbr, hbelow, -⟩ := selectBr_eq_some_iff.mp hselect
      have hslow : (stm32SpiInputClock clocks spi).toNat ≤ targetHz.toNat * 2 ^ (br + 1) :=
        Nat.not_lt.mp fun hlt => h br hbr ⟨hlt, hbelow⟩
      obtain ⟨hok, -⟩ := initHz_ok family cfg s hpclk htarget hselect
      refine ⟨iff_of_false ?_ ?_, fun _ => ⟨br, .of_selected hpclk htarget hselect hslow⟩⟩
      · exact fun herr => HalStatus.noConfusion (hok.symm.trans herr)
      · rw [not_lt, bitRate_le_iff]
        refine Nat.le_trans hslow (Nat.mul_le_mul_left _ ?_)
        exact Nat.pow_le_pow_right (by decide) (by omega)

def plainConfig : HalSpiConfig := ⟨0#32, .low, .edge1, .bit8, .msb⟩

def resetSpi : Stm32Spi := ⟨0#32, 0#32, fun _ => ⟨0#32, 0#32⟩⟩

/-- 84 MHz down to 1 MHz: the last divider but one, and no quotient is 1000000. -/
theorem rate_kept_1MHz : RateKept .f4 ⟨42000000, 84000000⟩ .spi1 plainConfig 1000000 resetSpi :=
  (rate_kept_iff .f4 ⟨42000000, 84000000⟩ .spi1 plainConfig 1000000 resetSpi
    (by decide) (by decide)).mpr (by unfold JustAbove; decide)

/-- 42 MHz through 256 is 164062.5 Hz: not refused for a rate of 164062 Hz. -/
theorem half_hertz_too_fast :
    ¬ RateKept .f4 ⟨42000000, 84000000⟩ .spi2 plainConfig 164062 resetSpi := by
  intro h
  have hselect : selectBr (stm32SpiInputClock ⟨42000000, 84000000⟩ .spi2) 164062 = some 7 :=
    JustAbove.selected ⟨by decide, by decide⟩ (by decide) (by decide)
  have hok : (halSpiInitHz (stm32SpiOps .f4 ⟨42000000, 84000000⟩) .spi2 (some plainConfig)
      164062 resetSpi).1 = .ok :=
    (initHz_ok .f4 plainConfig resetSpi (by decide) (by decide) hselect).1
  have habove : ((164062 : UInt32).toNat : ℚ) <
      bitRate (stm32SpiInputClock ⟨42000000, 84000000⟩ .spi2) 7 := by
    rw [← not_le, bitRate_le_iff]
    decide
  exact HalStatus.noConfusion (hok.symm.trans (h.refused.mpr habove))

end NavHAL.Spi
