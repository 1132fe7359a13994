import NavHAL.Uart.Backends

/-!
# The baud rates that are programmed or refused

On the STM32 and the AVR the divisor is the rounded quotient of the clock, so that only its
range counts, and whether the sums before the division fit 32 bits.  The PC cuts its
quotient off.  `delivers_or_refuses_iff` has the rates for which each port does as it should.
-/

namespace NavHAL.Uart

open NearestQuotient (HalfStep halfStep_div_iff halfStep_rounded)

/-- The rates that a USART of the STM32 can be set to from this clock. -/
def stm32Range (clk baudrate : Nat) : Prop :=
  clk + baudrate / 2 < 4294967296 ∧ 16 * baudrate ≤ clk + baudrate / 2 ∧
    clk + baudrate / 2 < 65536 * baudrate

/-- The rates at which the code does as it should; a UART that is not there is refused. -/
def Port.Settable : Port → UInt32 → Prop
  | .f4 _ clocks uart, baudrate => F4.HasUsart uart →
    baudrate ≠ 0 ∧ stm32Range (F4.uartClk clocks uart).toNat baudrate.toNat
  | .f7 _ clocks uart, baudrate => F7.HasUsart uart →
    baudrate ≠ 0 ∧ stm32Range (F7.uartPeriphClk clocks uart).toNat baudrate.toNat
  | .avr fCpu uart, baudrate => Avr.uartValid uart → baudrate ≠ 0 →
    8 * baudrate.toNat < 4294967296 ∧ fCpu.toNat + 4 * baudrate.toNat < 4294967296 ∧
      8 * baudrate.toNat ≤ fCpu.toNat + 4 * baudrate.toNat ∧
      fCpu.toNat + 4 * baudrate.toNat < 4097 * (8 * baudrate.toNat)
  | .pc uart, baudrate => Pc.uartBase uart ≠ 0 → baudrate ≠ 0 →
    baudrate ≠ 1 ∧ baudrate.toNat ≤ 230400 ∧
      (baudrate.toNat ≤ 115200 → 2 * (115200 % baudrate.toNat) ≤ baudrate.toNat)

/-- A call that refuses, and has divided by nothing on the way. -/
theorem refuses_all {b : Backend} {baudrate : UInt32}
    (hexact : baudrate ≠ 0 → b.Exact baudrate) (hdivides : b.divides baudrate = [])
    (hinit : ∀ s, b.init baudrate s = (.errInvalidArg, s)) : DeliversOrRefuses b baudrate := by
  have hstatus : ∀ s, (b.init baudrate s).1 ≠ .ok := fun s => by
    rw [hinit s]
    exact HalStatus.noConfusion
  unfold DeliversOrRefuses
  split
  · refine ⟨?_, fun _ => hstatus⟩
    rw [hdivides]
    exact List.not_mem_nil
  · next hbaud =>
    refine ⟨hexact hbaud, fun s => ⟨fun hok => absurd hok (hstatus s),
      fun hok => absurd hok (hstatus s), fun _ => ?_⟩⟩
    rw [hinit s]
    exact ⟨rfl, rfl⟩

/-! ## The STM32, either family -/

section

variable {init : UInt32 → Stm32 → HalStatus × Stm32} {uart : Nat} {clk baudrate : UInt32}
  {divides : UInt32 → List UInt32}

theorem half_toNat (baudrate : UInt32) : (baudrate / 2).toNat = baudrate.toNat / 2 :=
  UInt32.toNat_div _ _

theorem toNat_pos (h : baudrate ≠ 0) : 0 < baudrate.toNat :=
  Nat.pos_of_ne_zero fun hz => h (UInt32.toNat_inj.mp hz)

/-- The sum wraps, or `BRR` gets the rounded quotient. -/
theorem stm32_programs_iff (hbaud : baudrate ≠ 0) (hdivides : divides baudrate ≠ [])
    (hok : ∀ s, (init baudrate s).1 = .ok)
    (hbrr : ∀ s, ((init baudrate s).2.usart uart).brr = (clk + baudrate / 2) / baudrate) :
    DeliversOrRefuses (stm32Backend init uart clk divides) baudrate ↔
      stm32Range clk.toNat baudrate.toNat := by
  have hpos := toNat_pos hbaud
  have hhalf := half_toNat baudrate
  unfold DeliversOrRefuses
  rw [if_neg hbaud]
  have hsum : (clk + baudrate / 2).toNat = clk.toNat + (baudrate / 2).toNat ↔
      clk.toNat + baudrate.toNat / 2 < 4294967296 := by
    have hlt := (clk + baudrate / 2).toNat_lt
    constructor
    · intro h
      rw [h, hhalf] at hlt
      exact hlt
    · intro h
      rw [UInt32.toNat_add, hhalf]
      exact Nat.mod_eq_of_lt h
  constructor
  · rintro ⟨hexact, hall⟩
    have hsmall := hsum.mp (hexact hdivides)
    let s : Stm32 := ⟨0, 0, fun _ => 0, fun _ => ⟨0, 0⟩⟩
    have hfits : stm32Holds ((init baudrate s).2.usart uart).brr.toNat := (hall s).fits (hok s)
    rw [hbrr, UInt32.toNat_div, hexact hdivides, hhalf] at hfits
    exact ⟨hsmall, (Nat.le_div_iff_mul_le hpos).mp hfits.1,
      (Nat.div_lt_iff_lt_mul hpos).mp hfits.2⟩
  · rintro ⟨hsmall, hmin, hmax⟩
    have hexact := hsum.mpr hsmall
    refine ⟨fun _ => hexact, fun (s : Stm32) => ⟨fun _ => ?_, fun _ => ?_,
      fun hne => absurd (hok s) hne⟩⟩
    · change stm32Holds ((init baudrate s).2.usart uart).brr.toNat
      rw [hbrr s, UInt32.toNat_div, hexact, hhalf]
      exact ⟨(Nat.le_div_iff_mul_le hpos).mpr hmin, (Nat.div_lt_iff_lt_mul hpos).mpr hmax⟩
    · change HalfStep clk.toNat (1 * baudrate.toNat) ((init baudrate s).2.usart uart).brr.toNat
      rw [hbrr s, UInt32.toNat_div, hexact, hhalf, Nat.one_mul]
      exact halfStep_rounded hpos

end

theorem setUsart_self (uart : Nat) (regs : Usart) (s : Stm32) :
    (s.setUsart uart regs).usart uart = regs :=
  if_pos rfl

theorem f4_iff (pinmap : List UartPinmap) (clocks : ApbClocks) (uart : Nat) (baudrate : UInt32) :
    DeliversOrRefuses (Port.f4 pinmap clocks uart).backend baudrate ↔
      (Port.f4 pinmap clocks uart).Settable baudrate := by
  by_cases huart : F4.HasUsart uart
  · have hdivides : (if F4.HasUsart uart then [baudrate] else []) = [baudrate] := if_pos huart
    have hinit : ∀ s, F4.stm32UartInit pinmap clocks uart baudrate s =
        (.ok, F4.uartHwInit pinmap clocks uart baudrate s) := fun s => if_pos huart
    by_cases hbaud : baudrate = 0
    · refine iff_of_false (fun h => ?_) fun h => (h huart).1 hbaud
      unfold DeliversOrRefuses at h
      rw [if_pos hbaud] at h
      refine h.1 ?_
      change 0 ∈ (if F4.HasUsart uart then [baudrate] else [])
      rw [hdivides, hbaud]
      exact List.mem_singleton_self 0
    · have hne : (if F4.HasUsart uart then [baudrate] else []) ≠ [] := by
        rw [hdivides]
        exact List.cons_ne_nil _ _
      refine (stm32_programs_iff hbaud hne (fun s => ?_) (fun s => ?_)).trans
        ⟨fun h _ => ⟨hbaud, h⟩, fun h => (h huart).2⟩
      · rw [hinit s]
      · rw [hinit s, F4.uartHwInit, if_pos huart, setUsart_self]
  · have hnone : (Port.f4 pinmap clocks uart).backend.divides baudrate = [] := if_neg huart
    refine iff_of_true (refuses_all (fun _ hne => absurd hnone hne) hnone fun s => if_neg huart) ?_
    exact fun h => absurd h huart

/-- With a rate of 0 nothing is written, and the status is `HAL_OK`. -/
theorem f7_iff (pinmap : List UartPinmap) (clocks : ApbClocks) (uart : Nat) (baudrate : UInt32) :
    DeliversOrRefuses (Port.f7 pinmap clocks uart).backend baudrate ↔
      (Port.f7 pinmap clocks uart).Settable baudrate := by
  by_cases huart : F7.HasUsart uart
  · have hinit : ∀ s, F7.stm32f7UartInit pinmap clocks uart baudrate s =
        (.ok, F7.uartHwInit pinmap clocks uart baudrate s) := fun s => if_pos huart
    by_cases hbaud : baudrate = 0
    · refine iff_of_false (fun h => ?_) fun h => (h huart).1 hbaud
      unfold DeliversOrRefuses at h
      rw [if_pos hbaud] at h
      let s : Stm32 := ⟨0, 0, fun _ => 0, fun _ => ⟨0, 0⟩⟩
      have hleaves : ∀ s, (F7.stm32f7UartInit pinmap clocks uart baudrate s).2 = s := fun s => by
        rw [hinit s]
        exact if_pos (Or.inr hbaud)
      exact h.2 hleaves s (congrArg Prod.fst (hinit s))
    · have hne : (if F7.HasUsart uart ∧ baudrate ≠ 0 then [baudrate] else []) ≠ [] := by
        rw [if_pos ⟨huart, hbaud⟩]
        exact List.cons_ne_nil _ _
      have hwrites : ¬ (¬ F7.HasUsart uart ∨ baudrate = 0) := by
        rintro (hno | hzero)
        · exact hno huart
        · exact hbaud hzero
      refine (stm32_programs_iff hbaud hne (fun s => ?_) (fun s => ?_)).trans
        ⟨fun h _ => ⟨hbaud, h⟩, fun h => (h huart).2⟩
      · rw [hinit s]
      · rw [hinit s, F7.uartHwInit, if_neg hwrites, setUsart_self]
  · have hnone : (Port.f7 pinmap clocks uart).backend.divides baudrate = [] :=
      if_neg fun h => huart h.1
    refine iff_of_true (refuses_all (fun _ hne => absurd hnone hne) hnone fun s => if_neg huart) ?_
    exact fun h => absurd h huart

/-! ## The ATmega328P -/

/-- A word in a register for each half. -/
theorem halves_toNat (v : UInt16) :
    (v >>> 8).toUInt8.toNat * 256 + (v &&& 0xFF).toUInt8.toNat = v.toNat := by
  have hlt := v.toNat_lt
  have hhigh : (v >>> 8).toNat = v.toNat / 256 := by
    rw [UInt16.toNat_shiftRight]
    exact Nat.shiftRight_eq_div_pow v.toNat 8
  have hlow : (v &&& 0xFF).toNat = v.toNat % 256 :=
    Nat.and_two_pow_sub_one_eq_mod v.toNat 8
  rw [UInt16.toNat_toUInt8, UInt16.toNat_toUInt8, hhigh, hlow]
  omega

section

variable {fCpu baudrate : UInt32}

theorem mul_exact_iff {k : UInt32} :
    (k * baudrate).toNat = k.toNat * baudrate.toNat ↔
      k.toNat * baudrate.toNat < 4294967296 := by
  rw [UInt32.toNat_mul]
  constructor
  · intro h
    rw [← h]
    exact Nat.mod_lt _ (by decide)
  · exact Nat.mod_eq_of_lt

/-- With the sums exact, one less than the rounded quotient, in 16 bits. -/
theorem ubrrOf_toNat {q : Nat}
    (hnum : (fCpu + 4 * baudrate).toNat = fCpu.toNat + 4 * baudrate.toNat)
    (hden : (8 * baudrate).toNat = 8 * baudrate.toNat)
    (hq : (fCpu.toNat + 4 * baudrate.toNat) / (8 * baudrate.toNat) = q) :
    (Avr.ubrrOf fCpu baudrate).toNat = if q = 0 then 65535 else (q - 1) % 65536 := by
  have hquot : ((fCpu + 4 * baudrate) / (8 * baudrate)).toNat = q := by
    rw [UInt32.toNat_div, hnum, hden, hq]
  unfold Avr.ubrrOf
  generalize (fCpu + 4 * baudrate) / (8 * baudrate) = quot at hquot ⊢
  rw [UInt32.toNat_toUInt16]
  split
  · next hzero =>
    have hnone : quot = 0 := UInt32.toNat_inj.mp (hquot.trans hzero)
    rw [hnone]
    rfl
  · next hne =>
    have hone : (1 : UInt32) ≤ quot := by
      rw [UInt32.le_iff_toNat_le, hquot]
      exact Nat.one_le_iff_ne_zero.mpr hne
    rw [UInt32.toNat_sub_of_le _ _ hone, hquot]
    rfl

/-- `8 * baudrate` is the larger of the products, and the sum has `4 * baudrate` in it. -/
theorem sums_exact_iff :
    ((4 * baudrate).toNat = 4 * baudrate.toNat ∧ (8 * baudrate).toNat = 8 * baudrate.toNat ∧
        (fCpu + 4 * baudrate).toNat = fCpu.toNat + (4 * baudrate).toNat) ↔
      8 * baudrate.toNat < 4294967296 ∧ fCpu.toNat + 4 * baudrate.toNat < 4294967296 := by
  constructor
  · rintro ⟨hfour, height, hsum⟩
    have hlt := (fCpu + 4 * baudrate).toNat_lt
    rw [hsum, hfour] at hlt
    exact ⟨mul_exact_iff.mp height, hlt⟩
  · rintro ⟨hden, hnum⟩
    have hfour : (4 * baudrate).toNat = 4 * baudrate.toNat :=
      mul_exact_iff.mpr (Nat.lt_of_le_of_lt (Nat.le_add_left _ fCpu.toNat) hnum)
    refine ⟨hfour, mul_exact_iff.mpr hden, ?_⟩
    rw [UInt32.toNat_add, hfour]
    exact Nat.mod_eq_of_lt hnum

/-- With the sums exact, `UBRR0` is right exactly when the rounded quotient is in range. -/
theorem ubrrOf_right_iff (hbaud : baudrate ≠ 0)
    (hnum : (fCpu + 4 * baudrate).toNat = fCpu.toNat + 4 * baudrate.toNat)
    (hden : (8 * baudrate).toNat = 8 * baudrate.toNat) :
    ((Avr.ubrrOf fCpu baudrate).toNat < 4096 ∧
        HalfStep fCpu.toNat (8 * baudrate.toNat) ((Avr.ubrrOf fCpu baudrate).toNat + 1)) ↔
      8 * baudrate.toNat ≤ fCpu.toNat + 4 * baudrate.toNat ∧
        fCpu.toNat + 4 * baudrate.toNat < 4097 * (8 * baudrate.toNat) := by
  have hpos := toNat_pos hbaud
  have hstep : 0 < 8 * baudrate.toNat := by omega
  have hhalf : 8 * baudrate.toNat / 2 = 4 * baudrate.toNat := by omega
  have hrounded := halfStep_rounded (n := fCpu.toNat) hstep
  rw [hhalf] at hrounded
  have hmin : 8 * baudrate.toNat ≤ fCpu.toNat + 4 * baudrate.toNat ↔
      1 ≤ (fCpu.toNat + 4 * baudrate.toNat) / (8 * baudrate.toNat) := by
    rw [Nat.le_div_iff_mul_le hstep, Nat.one_mul]
  rw [hmin, ← Nat.div_lt_iff_lt_mul hstep]
  generalize hq : (fCpu.toNat + 4 * baudrate.toNat) / (8 * baudrate.toNat) = q at hrounded ⊢
  rw [ubrrOf_toNat hnum hden hq]
  constructor
  · rintro ⟨hfits, hnear⟩
    have hle := hnear.rounded_le hstep
    rw [hhalf, hq] at hle
    by_cases hzero : q = 0
    · rw [if_pos hzero] at hfits
      omega
    · rw [if_neg hzero] at hfits hle
      omega
  · rintro ⟨hone, hmost⟩
    have hubrr : (q - 1) % 65536 = q - 1 := Nat.mod_eq_of_lt (by omega)
    rw [if_neg (by omega), hubrr, Nat.sub_add_cancel hone]
    exact ⟨by omega, hrounded⟩

theorem avr_iff (fCpu : UInt32) (uart : Nat) (baudrate : UInt32) :
    DeliversOrRefuses (Port.avr fCpu uart).backend baudrate ↔
      (Port.avr fCpu uart).Settable baudrate := by
  by_cases hset : Avr.uartValid uart ∧ baudrate ≠ 0
  · obtain ⟨huart, hbaud⟩ := hset
    have hwrites : ¬ (¬ Avr.uartValid uart ∨ baudrate = 0) := by
      rintro (hno | hzero)
      · exact hno huart
      · exact hbaud hzero
    have hstatus : ∀ s, (Avr.avrUartInit fCpu uart baudrate s).1 = .ok := fun s => by
      rw [Avr.avrUartInit, if_neg hwrites]
    have hcontent : ∀ s, (Port.avr fCpu uart).backend.divisor
        (Avr.avrUartInit fCpu uart baudrate s).2 = (Avr.ubrrOf fCpu baudrate).toNat := fun s => by
      rw [Avr.avrUartInit, if_neg hwrites]
      exact halves_toNat _
    unfold DeliversOrRefuses
    rw [if_neg hbaud]
    constructor
    · rintro ⟨hexact, hall⟩ - -
      obtain ⟨hfour, height, hsum⟩ := hexact huart
      let s : Avr.Usart0 := ⟨0, 0, 0, 0, 0⟩
      have hfits : (Port.avr fCpu uart).backend.divisor
          (Avr.avrUartInit fCpu uart baudrate s).2 < 4096 := (hall s).fits (hstatus s)
      have hnear : HalfStep fCpu.toNat (8 * baudrate.toNat)
          ((Port.avr fCpu uart).backend.divisor
            (Avr.avrUartInit fCpu uart baudrate s).2 + 1) := (hall s).near (hstatus s)
      rw [hcontent s] at hfits hnear
      obtain ⟨hden, hnum⟩ := sums_exact_iff.mp ⟨hfour, height, hsum⟩
      exact ⟨hden, hnum, (ubrrOf_right_iff hbaud (hsum.trans (by rw [hfour])) height).mp
        ⟨hfits, hnear⟩⟩
    · intro h
      obtain ⟨hden, hnum, hrange⟩ := h huart hbaud
      obtain ⟨hfour, height, hsum⟩ := sums_exact_iff.mpr ⟨hden, hnum⟩
      have hright := (ubrrOf_right_iff hbaud (hsum.trans (by rw [hfour])) height).mpr hrange
      refine ⟨fun _ => ⟨hfour, height, hsum⟩, fun s => ⟨fun _ => ?_, fun _ => ?_,
        fun hne => absurd (hstatus s) hne⟩⟩
      · change (Port.avr fCpu uart).backend.divisor (Avr.avrUartInit fCpu uart baudrate s).2 < 4096
        rw [hcontent s]
        exact hright.1
      · change HalfStep fCpu.toNat (8 * baudrate.toNat)
          ((Port.avr fCpu uart).backend.divisor (Avr.avrUartInit fCpu uart baudrate s).2 + 1)
        rw [hcontent s]
        exact hright.2
  · have hrefused : ∀ s, Avr.avrUartInit fCpu uart baudrate s = (.errInvalidArg, s) := fun s => by
      refine if_pos ?_
      by_cases huart : Avr.uartValid uart
      · exact Or.inr (not_not.mp fun hbaud => hset ⟨huart, hbaud⟩)
      · exact Or.inl huart
    refine iff_of_true ?_ fun huart hbaud => absurd ⟨huart, hbaud⟩ hset
    exact refuses_all (fun hbaud huart => absurd ⟨huart, hbaud⟩ hset) (if_neg hset) hrefused

end

/-! ## The PC -/

namespace Pc

theorem div_toNat (baudrate : UInt32) :
    (115200 / baudrate).toUInt16.toNat = 115200 / baudrate.toNat % 65536 := by
  rw [UInt32.toNat_toUInt16, UInt32.toNat_div]
  rfl

theorem divOf_toNat {baudrate : UInt32} (hbaud : baudrate ≠ 0) :
    (divOf baudrate).toNat = max 1 (115200 / baudrate.toNat % 65536) := by
  have hdiv := div_toNat baudrate
  unfold divOf
  rw [if_pos hbaud]
  dsimp only
  split
  · next hzero =>
    rw [← hdiv, hzero]
    rfl
  · next hne =>
    have hpos : 1 ≤ (115200 / baudrate).toUInt16.toNat :=
      Nat.one_le_iff_ne_zero.mpr fun hz => hne (UInt16.toNat_inj.mp hz)
    rw [← hdiv, Nat.max_eq_right hpos]

/-- Whatever the registers were, the latch holds the divisor. -/
theorem program_latch (div : UInt16) (u : Uart16550) :
    (program div u).dlm.toNat * 256 + (program div u).dll.toNat = div.toNat := by
  have hdll : (program div u).dll = (div &&& 0xFF).toUInt8 := by
    simp [program, Uart16550.outb, Uart16550.dlab]
  have hdlm : (program div u).dlm = (div >>> 8 &&& 0xFF).toUInt8 := by
    simp [program, Uart16550.outb, Uart16550.dlab]
  have hhigh : (div >>> 8 &&& 0xFF).toUInt8 = (div >>> 8).toUInt8 := by
    apply UInt8.toNat_inj.mp
    rw [UInt16.toNat_toUInt8, UInt16.toNat_toUInt8, UInt16.toNat_and]
    exact (congrArg (· % 256) (Nat.and_two_pow_sub_one_eq_mod _ 8)).trans (Nat.mod_mod _ _)
  rw [hdll, hdlm, hhigh]
  exact halves_toNat div

/-- The quotient is cut off, in the division and to 16 bits, and is 1 at least. -/
theorem div_near_iff {b : Nat} (hpos : 0 < b) :
    HalfStep 115200 b (max 1 (115200 / b % 65536)) ↔
      b ≠ 1 ∧ b ≤ 230400 ∧ (b ≤ 115200 → 2 * (115200 % b) ≤ b) := by
  by_cases hone : b = 1
  · rw [hone]
    refine iff_of_false (fun h => ?_) fun h => h.1 rfl
    have hbelow : 2 * 115200 ≤ 2 * (max 1 (115200 / 1 % 65536) * 1) + 1 := h.1
    exact absurd hbelow (by decide)
  by_cases hslow : b ≤ 115200
  · have hmin : 1 ≤ 115200 / b := (Nat.le_div_iff_mul_le hpos).mpr (by omega)
    have hmax : 115200 / b ≤ 115200 / 2 := Nat.div_le_div_left (by omega) (by decide)
    rw [Nat.mod_eq_of_lt (by omega), Nat.max_eq_right hmin, halfStep_div_iff]
    constructor
    · exact fun h => ⟨hone, by omega, fun _ => h⟩
    · exact fun h => h.2.2 hslow
  · have hzero : 115200 / b = 0 := Nat.div_eq_of_lt (by omega)
    have hmax : max 1 (0 % 65536) = 1 := rfl
    rw [hzero, hmax]
    constructor
    · intro h
      have habove := h.2
      exact ⟨hone, by omega, fun hle => absurd hle hslow⟩
    · intro h
      constructor <;> omega

end Pc

section

variable {uart : Nat} {baudrate : UInt32}

theorem pcUartInit_ok (hbase : Pc.uartBase uart ≠ 0) (s : Pc.Machine) :
    (Pc.pcUartInit uart baudrate s).1 = .ok := by
  rw [Pc.pcUartInit]
  exact congrArg Prod.fst (if_neg hbase)

theorem pcUartInit_divisor (hbase : Pc.uartBase uart ≠ 0) (s : Pc.Machine) :
    (Port.pc uart).backend.divisor (Pc.pcUartInit uart baudrate s).2 =
      (Pc.divOf baudrate).toNat := by
  have hinit : (Pc.pcUartInit uart baudrate s).2 (Pc.uartBase uart) =
      Pc.program (Pc.divOf baudrate) (s (Pc.uartBase uart)) := by
    simp [Pc.pcUartInit, hbase]
  change ((Pc.pcUartInit uart baudrate s).2 (Pc.uartBase uart)).dlm.toNat * 256 +
    ((Pc.pcUartInit uart baudrate s).2 (Pc.uartBase uart)).dll.toNat = _
  rw [hinit]
  exact Pc.program_latch _ _

/-- A rate of 0 is taken to be 115200, and something is written. -/
theorem pc_zero (hbase : Pc.uartBase uart ≠ 0) :
    DeliversOrRefuses (Port.pc uart).backend 0 := by
  unfold DeliversOrRefuses
  rw [if_pos rfl]
  refine ⟨?_, fun hleaves s => ?_⟩
  · change 0 ∉ (if Pc.uartBase uart ≠ 0 then [if (0 : UInt32) ≠ 0 then 0 else 115200] else [])
    rw [if_pos hbase]
    decide
  · let zero : Pc.Uart16550 := ⟨0, 0, 0, 0, 0, 0, 0⟩
    have hone := @pcUartInit_divisor uart 0 hbase fun _ => zero
    have hsame : (Pc.pcUartInit uart 0 fun _ => zero).2 = fun _ => zero :=
      hleaves fun _ => zero
    have hlatch : (Port.pc uart).backend.divisor (fun _ => zero : Pc.Machine) =
        zero.dlm.toNat * 256 + zero.dll.toNat := rfl
    rw [hsame, hlatch] at hone
    exact absurd hone (by decide)

end

theorem pc_iff (uart : Nat) (baudrate : UInt32) :
    DeliversOrRefuses (Port.pc uart).backend baudrate ↔ (Port.pc uart).Settable baudrate := by
  by_cases hbase : Pc.uartBase uart = 0
  · have hrefused : ∀ s, Pc.pcUartInit uart baudrate s = (.errInvalidArg, s) :=
      fun s => if_pos hbase
    refine iff_of_true ?_ fun hne => absurd hbase hne
    exact refuses_all (fun _ => trivial) (if_neg fun hne => hne hbase) hrefused
  by_cases hbaud : baudrate = 0
  · subst hbaud
    exact iff_of_true (pc_zero hbase) fun _ hne => absurd rfl hne
  · have hdiv := Pc.divOf_toNat hbaud
    have hnear := Pc.div_near_iff (toNat_pos hbaud)
    unfold DeliversOrRefuses
    rw [if_neg hbaud]
    constructor
    · rintro ⟨-, hall⟩ - -
      let s : Pc.Machine := fun _ => ⟨0, 0, 0, 0, 0, 0, 0⟩
      have hhalf : HalfStep 115200 (1 * baudrate.toNat)
          ((Port.pc uart).backend.divisor (Pc.pcUartInit uart baudrate s).2) :=
        (hall s).near (pcUartInit_ok hbase s)
      rw [pcUartInit_divisor hbase s, hdiv, Nat.one_mul] at hhalf
      obtain ⟨hone, hrange⟩ := hnear.mp hhalf
      exact ⟨fun h => hone (congrArg UInt32.toNat h), hrange⟩
    · intro h
      obtain ⟨hone, hrange⟩ := h hbase hbaud
      have hne : baudrate.toNat ≠ 1 := fun h1 => hone (UInt32.toNat_inj.mp h1)
      refine ⟨trivial, fun s => ⟨fun _ => ?_, fun _ => ?_,
        fun hno => absurd (pcUartInit_ok hbase s) hno⟩⟩
      · change 1 ≤ (Port.pc uart).backend.divisor (Pc.pcUartInit uart baudrate s).2
        rw [pcUartInit_divisor hbase s, hdiv]
        exact Nat.le_max_left _ _
      · change HalfStep 115200 (1 * baudrate.toNat)
          ((Port.pc uart).backend.divisor (Pc.pcUartInit uart baudrate s).2)
        rw [pcUartInit_divisor hbase s, hdiv, Nat.one_mul]
        exact hnear.mpr ⟨hne, hrange⟩

/-! ## Every port -/

/-- The rate is programmed or refused exactly where the sums do not wrap and the divisor is
in range, and on the PC, where the quotient is not rounded, the remainder is small. -/
theorem delivers_or_refuses_iff (port : Port) (baudrate : UInt32) :
    DeliversOrRefuses port.backend baudrate ↔ port.Settable baudrate := by
  cases port with
  | f4 pinmap clocks uart => exact f4_iff pinmap clocks uart baudrate
  | f7 pinmap clocks uart => exact f7_iff pinmap clocks uart baudrate
  | avr fCpu uart => exact avr_iff fCpu uart baudrate
  | pc uart => exact pc_iff uart baudrate

/-- USART1 of the F4 at 84 MHz, and 1200 baud: `HAL_OK`, with 70000 for a field of 16 bits. -/
theorem slow_rate_does_not_fit :
    ¬ DeliversOrRefuses (Port.f4 [] ⟨42000000, 84000000⟩ 1).backend 1200 := by
  intro hset
  unfold DeliversOrRefuses at hset
  rw [if_neg (by decide)] at hset
  let s : Stm32 := ⟨0, 0, fun _ => 0, fun _ => ⟨0, 0⟩⟩
  have hok : (F4.stm32UartInit [] ⟨42000000, 84000000⟩ 1 1200 s).1 = .ok := rfl
  have hfits : stm32Holds
      ((F4.stm32UartInit [] ⟨42000000, 84000000⟩ 1 1200 s).2.usart 1).brr.toNat :=
    (hset.2 s).fits hok
  have hbrr : ((F4.stm32UartInit [] ⟨42000000, 84000000⟩ 1 1200 s).2.usart 1).brr.toNat = 70000 :=
    rfl
  rw [hbrr] at hfits
  exact absurd hfits.2 (by decide)

end NavHAL.Uart
