import NavHAL.I2c.F7Lengths

/-!
# The buffers of the STM32F7's register reads (`i2c_f7.c`, `hal_i2c_dma.c`)

A read by DMA comes to the driver through `read_regs` of `_hal_i2c_dma_ops`, and what
`rx_coherent_iff` says of buffers holds of its.  `hal_i2c_read_regs_dma` never comes this
far on the F7: no stream is known for it.
-/

namespace NavHAL.Dma

open I2c.F7 (F7I2c Willing stm32f7I2cDmaReadRegs)

variable {t : Tcm}

/-- What the driver accepts has passed the guard. -/
theorem readRegs_guard {dev : Willing} {bus : Nat} {devAddr reg : BitVec 8} {cfg : DmaConfig}
    {callback : Option Nat} {st : F7I2c}
    (h : (stm32f7I2cDmaReadRegs t dev bus devAddr reg cfg callback st).1 = .ok) :
    navhalDmaRxGuard t (UInt32.ofBitVec cfg.dstAddr) = .ok := by
  unfold stm32f7I2cDmaReadRegs at h
  split at h
  · assumption
  · exact h

/-- A read that the driver accepts; the address past its buffer is an address. -/
structure F7Read (t : Tcm) where
  dev : Willing
  bus : Nat
  devAddr : BitVec 8
  reg : BitVec 8
  cfg : DmaConfig
  callback : Option Nat
  st : F7I2c
  fits : cfg.dstAddr.toNat + cfg.dataCount.toNat < 4294967296
  accepted : (stm32f7I2cDmaReadRegs t dev bus devAddr reg cfg callback st).1 = .ok

/-- Its buffer. -/
def F7Read.buffer (read : F7Read t) : RxBuffer t where
  addr := UInt32.ofBitVec read.cfg.dstAddr
  len := UInt32.ofBitVec (read.cfg.dataCount.setWidth 32)
  fits := by
    have hlen : (read.cfg.dataCount.setWidth 32).toNat = read.cfg.dataCount.toNat := by
      rw [BitVec.toNat_setWidth]
      exact Nat.mod_eq_of_lt (Nat.lt_trans read.cfg.dataCount.isLt (by decide))
    change read.cfg.dstAddr.toNat + (read.cfg.dataCount.setWidth 32).toNat < _
    rw [hlen]
    exact read.fits
  accepted := readRegs_guard read.accepted

/-! ## Two reads on the STM32F767 -/

/-- Nothing is cached. -/
def cold : Bus nucleoF767zi where
  mem := fun _ => 0
  data := fun _ => 0
  present := fun _ => false
  dirty := fun _ => false
  cacheable_of_present := by simp

/-- A sensor that answers at once. -/
def sensor : Willing := ⟨fun _ => 0, fun _ => ⟨[], 0, by decide⟩⟩

/-- A read of `count` bytes on stream 0 of DMA1. -/
def rxInto (buffer : BitVec 32) (count : BitVec 16) : DmaConfig :=
  rxConfig ⟨.dma1, 0, 1, 0, 0⟩ buffer count

/-- Into one whole line of SRAM1. -/
def alignedRead : F7Read nucleoF767zi :=
  ⟨sensor, 0, 0x68, 0x3B, rxInto 0x20020000 32, none, {}, by decide, by decide⟩

theorem aligned_rx_coherent : Coherent alignedRead.buffer cold := by
  refine (rx_coherent_iff alignedRead.buffer cold (by simp [Cache.Cached.Consistent, cold])).mpr ?_
  rintro a ⟨hlow, hhigh⟩ -
  change 0x20020000 ≤ a at hlow
  change a < 0x20020000 + 32 at hhigh
  refine ⟨by decide, fun b hb => ?_, by simp [Cache.Cached.IsDirty, cold]⟩
  show 0x20020000 ≤ b ∧ b < 0x20020000 + 32
  omega

/-- Into six bytes in the middle of a line, as in a structure. -/
def embeddedRead : F7Read nucleoF767zi :=
  ⟨sensor, 0, 0x68, 0x3B, rxInto 0x20020010 6, none, {}, by decide, by decide⟩

/-- `read_regs` accepts them; `hal_i2c_read_regs_dma` would not call it. -/
theorem embedded_rx_not_coherent :
    (stm32f7I2cDmaReadRegs nucleoF767zi sensor 0 0x68 0x3B (rxInto 0x20020010 6) none {}).1 = .ok ∧
      ¬ Coherent embeddedRead.buffer cold ∧
      (I2c.F7.halI2cReadRegsDma nucleoF767zi sensor 0 0x68 0x3B 0x20020010 6 none {}).1 =
        .errNotSupported := by
  refine ⟨embeddedRead.accepted, fun h => ?_, by decide⟩
  have hin : embeddedRead.buffer.Has 0x20020010 := by decide
  have hout : ¬ embeddedRead.buffer.Has 0x20020000 := by decide
  exact hout (h.alone hin (by decide) (by decide))

end NavHAL.Dma
