import NavHAL.Dma.UartTx
import NavHAL.Usb.Handed

/-!
# The writers of strings

`hal_uart_write_string_dma`, `hal_usb_cdc_write_string` and the console on the CDC route
measure their string with the same loop, whose index has 16 bits. `scan_eq` and
`scan_none` say where it ends; behind it the request carries the whole string
(`strings_sent_iff`).
-/

namespace NavHAL.Strings

open Dma (UartDma DmaConfig Controllers halUartWriteDma)
open Usb.BulkIn (CdcProgram Hands HandsOver Log bytesAt halUsbCdcWrite)

/-! ## The writers -/

section

variable (mem : Nat → UInt8)

/-- `while (s[len] != '\\0') len++`; `none` where the fuel is spent. -/
def scan (s : Nat) : Nat → UInt16 → Option UInt16
  | 0, _ => none
  | fuel + 1, len => if mem (s + len.toNat) ≠ 0 then scan s fuel (len + 1) else some len

def halUartWriteStringDma (uart : Nat) (s : BitVec 32) (fuel : Nat) (st : UartDma) :
    Option (HalStatus × UartDma × Option DmaConfig) :=
  if s = 0 then some (.errInvalidArg, st, none)
  else (scan mem s.toNat fuel 0).map fun len => halUartWriteDma uart s len.toBitVec st

def halUsbCdcWriteString (s : BitVec 32) (fuel : Nat) : Option (CdcProgram HalStatus) :=
  if s = 0 then some (return .errInvalidArg)
  else (scan mem s.toNat fuel 0).map fun len => halUsbCdcWrite mem s.toNat len

/-- `console_put` on the CDC route, which drops the status. -/
def consolePut (s : BitVec 32) (fuel : Nat) : Option (CdcProgram Unit) :=
  (scan mem s.toNat fuel 0).map fun n => do
    let _ ← halUsbCdcWrite mem s.toNat n
    return ()

def halConsoleWrite (s : BitVec 32) (fuel : Nat) : Option (CdcProgram Unit) :=
  if s ≠ 0 then consolePut mem s fuel else some (return ())

/-! ## What is asked of them -/

/-- A string in memory, with its NUL. -/
structure CString (s : BitVec 32) (str : List UInt8) : Prop where
  not_null : s ≠ 0
  bytes : bytesAt mem s.toNat str.length = str
  nonzero : 0 ∉ str
  nul : mem (s.toNat + str.length) = 0

/-- The stream of a configuration has been started on these bytes. -/
structure Takes (cfg : DmaConfig) (dma : Controllers) (str : List UInt8) : Prop where
  enabled : ((dma.ctrl cfg.controller).stream (Dma.streamIdx cfg.stream)).cr.getLsbD 0 = true
  reads : bytesAt mem ((dma.ctrl cfg.controller).stream (Dma.streamIdx cfg.stream)).m0ar.toNat
    ((dma.ctrl cfg.controller).stream (Dma.streamIdx cfg.stream)).ndtr.toNat = str

/-- Each writer comes to an end. With `HAL_OK` the transport has been given all bytes of the
string; what the endpoint has been given is in any case the front of it. -/
structure StringsSent (s : BitVec 32) (str : List UInt8) : Prop where
  uart : ∀ uart st, ∃ fuel r, halUartWriteStringDma mem uart s fuel st = some r ∧
    (r.1 = .ok → ∃ cfg, r.2.2 = some cfg ∧ Takes mem cfg r.2.1.dma str)
  cdc : ∃ fuel prog, halUsbCdcWriteString mem s fuel = some prog ∧
    Hands prog (HandsOver [] str) .empty
  console : ∃ fuel prog, halConsoleWrite mem s fuel = some prog ∧
    Hands prog (fun _ l => l.handed <+: str) .empty

end

/-! ## The scan -/

section

variable {mem : Nat → UInt8} {s : Nat}

theorem mem_bytesAt_iff {n : Nat} {b : UInt8} :
    b ∈ bytesAt mem s n ↔ ∃ i < n, mem (s + i) = b := by
  induction n generalizing s with
  | zero => simp [bytesAt]
  | succ n ih =>
    rw [bytesAt, List.mem_cons, ih]
    constructor
    · rintro (rfl | ⟨i, hi, rfl⟩)
      · exact ⟨0, Nat.succ_pos n, rfl⟩
      · exact ⟨i + 1, Nat.succ_lt_succ hi, by rw [Nat.add_comm i 1, Nat.add_assoc]⟩
    · rintro ⟨i, hi, rfl⟩
      cases i with
      | zero => exact Or.inl rfl
      | succ i =>
        refine Or.inr ⟨i, Nat.lt_of_succ_lt_succ hi, ?_⟩
        rw [Nat.add_comm i 1, Nat.add_assoc]

/-- Up to the first NUL, if the index gets there. -/
theorem scan_eq {n : Nat} {len : UInt16} (hn : len.toNat + n < 65536)
    (hbefore : ∀ i < n, mem (s + (len.toNat + i)) ≠ 0) (hnul : mem (s + (len.toNat + n)) = 0) :
    scan mem s (n + 1) len = some (UInt16.ofNat (len.toNat + n)) := by
  induction n generalizing len with
  | zero =>
    rw [Nat.add_zero] at hnul
    rw [scan, if_neg (not_not_intro hnul), Nat.add_zero, UInt16.ofNat_toNat]
  | succ n ih =>
    have hnext : (len + 1).toNat = len.toNat + 1 := by
      rw [UInt16.toNat_add]
      exact Nat.mod_eq_of_lt (show len.toNat + 1 < 65536 by omega)
    have hshift (i : Nat) : (len + 1).toNat + i = len.toNat + (i + 1) := by
      rw [hnext]
      omega
    have hrest : scan mem s (n + 1) (len + 1) = _ := ih (by omega)
      (fun i hi => hshift i ▸ hbefore (i + 1) (Nat.succ_lt_succ hi)) (hshift n ▸ hnul)
    have hhere : mem (s + len.toNat) ≠ 0 := hbefore 0 (Nat.succ_pos n)
    rw [scan, if_pos hhere, hrest, hshift]

/-- With no NUL among the first 65536 bytes the index goes round. -/
theorem scan_none (h : ∀ i < 65536, mem (s + i) ≠ 0) (fuel : Nat) (len : UInt16) :
    scan mem s fuel len = none := by
  induction fuel generalizing len with
  | zero => rfl
  | succ fuel ih => rw [scan, if_pos (h _ len.toNat_lt), ih]

end

/-! ## The UART -/

section

variable {uart : Nat} {data : BitVec 32} {length : BitVec 16} {st : UartDma}

theorem binding_error {e : HalStatus} (h : Dma.halUartDmaGetBinding uart st = .error e) :
    e = .errInvalidArg := by
  unfold Dma.halUartDmaGetBinding Dma.stm32UartDmaBinding at h
  split at h
  · exact (Except.error.inj h).symm
  split at h
  · cases h
  split at h
  · cases h
  · exact (Except.error.inj h).symm

/-- Only a started stream is answered with `HAL_OK`. -/
theorem write_starts (h : (halUartWriteDma uart data length st).1 = .ok) :
    (halUartWriteDma uart data length st).2.2 ≠ none := by
  unfold halUartWriteDma Dma.descriptor at h ⊢
  by_cases hargs : data = 0 ∨ length = 0 ∨ Dma.uartSlots ≤ uart
  · rw [if_pos hargs] at h
    cases h
  rw [if_neg hargs] at h ⊢
  cases hbinding : Dma.halUartDmaGetBinding uart st with
  | error e =>
    simp only [hbinding, binding_error hbinding] at h
    cases h
  | ok b =>
    simp only [hbinding] at h ⊢
    split at h
    · split at h
      · exact Option.some_ne_none _
      · next hne _ => exact (hne h).elim
    · next hne _ => exact (hne h).elim

/-- A start takes the address and the count as it finds them. -/
theorem started_takes {mem : Nat → UInt8} {cfg : DmaConfig} {dma dma' : Controllers}
    (hdma : dma' = Dma.started cfg dma)
    (h : ((dma.ctrl cfg.controller).stream (Dma.streamIdx cfg.stream)).m0ar = data ∧
      ((dma.ctrl cfg.controller).stream (Dma.streamIdx cfg.stream)).ndtr = length.setWidth 32) :
    Takes mem cfg dma' (bytesAt mem data.toNat length.toNat) := by
  have hstream :
      ((Dma.started cfg dma).ctrl cfg.controller).stream (Dma.streamIdx cfg.stream) = _ :=
    Dma.started_stream cfg
  rw [if_pos ⟨rfl, rfl⟩] at hstream
  rw [hdma]
  constructor
  · rw [hstream]
    simp [Dma.dmaSxcrEn]
  · rw [hstream]
    dsimp only
    rw [h.1, h.2, BitVec.toNat_setWidth_of_le (by decide)]

theorem write_takes (mem : Nat → UInt8) (h : (halUartWriteDma uart data length st).1 = .ok) :
    ∃ cfg, (halUartWriteDma uart data length st).2.2 = some cfg ∧
      Takes mem cfg (halUartWriteDma uart data length st).2.1.dma
        (bytesAt mem data.toNat length.toNat) := by
  have hstarts := write_starts h
  have houtcome := Dma.write_outcome uart data length st
  cases hr : halUartWriteDma uart data length st with
  | mk status rest =>
    obtain ⟨st', started⟩ := rest
    rw [hr] at houtcome hstarts
    cases houtcome with
    | refused => exact absurd rfl hstarts
    | @first b _ _ _ _ _ _ hdma =>
      refine ⟨_, rfl, started_takes hdma ?_⟩
      rw [Dma.txInit_stream, if_pos ⟨rfl, rfl⟩]
      exact ⟨rfl, rfl⟩
    | @again b _ _ hlength _ _ _ hle hdma =>
      refine ⟨_, rfl, started_takes hdma ?_⟩
      rw [Dma.txRepoint_stream hlength hle, if_pos ⟨rfl, Dma.streamIdx_of_le hle⟩]
      exact ⟨rfl, rfl⟩

end

/-! ## Every string -/

section

variable {mem : Nat → UInt8} {s : BitVec 32} {str : List UInt8}

namespace CString

theorem byte_ne_zero (h : CString mem s str) {i : Nat} (hi : i < str.length) :
    mem (s.toNat + i) ≠ 0 := by
  intro hzero
  have hmem : mem (s.toNat + i) ∈ str := h.bytes ▸ mem_bytesAt_iff.mpr ⟨i, hi, rfl⟩
  exact h.nonzero (hzero ▸ hmem)

theorem scan_eq (h : CString mem s str) (hlen : str.length < 65536) :
    scan mem s.toNat (str.length + 1) 0 = some (UInt16.ofNat str.length) := by
  have hzero (i : Nat) : (0 : UInt16).toNat + i = i := Nat.zero_add i
  have hscan : scan mem s.toNat (str.length + 1) 0 = _ :=
    Strings.scan_eq (by rwa [hzero]) (fun i hi => by rw [hzero]; exact h.byte_ne_zero hi)
      (by rw [hzero]; exact h.nul)
  rwa [hzero] at hscan

theorem scan_none (h : CString mem s str) (hlen : ¬ str.length < 65536) (fuel : Nat) :
    scan mem s.toNat fuel 0 = none :=
  Strings.scan_none (fun _ hi => h.byte_ne_zero (Nat.lt_of_lt_of_le hi (Nat.not_lt.mp hlen))) fuel 0

end CString

theorem sent_of_short (h : CString mem s str) (hlen : str.length < 65536) :
    StringsSent mem s str := by
  have hscan := h.scan_eq hlen
  have hcount : (UInt16.ofNat str.length).toNat = str.length := by
    rw [UInt16.toNat_ofNat']
    exact Nat.mod_eq_of_lt hlen
  have hwrite : Hands (halUsbCdcWrite mem s.toNat (UInt16.ofNat str.length)) (HandsOver [] str)
      .empty := by
    have hands : Hands (halUsbCdcWrite mem s.toNat (UInt16.ofNat str.length))
        (HandsOver [] _) .empty := Usb.BulkIn.hands_write s.toNat (UInt16.ofNat str.length)
    rwa [hcount, h.bytes] at hands
  constructor
  case uart =>
    intro uart st
    refine ⟨str.length + 1, halUartWriteDma uart s (UInt16.ofNat str.length).toBitVec st, ?_, ?_⟩
    · rw [halUartWriteStringDma, if_neg h.not_null, hscan]
      rfl
    · intro hok
      obtain ⟨cfg, hcfg, htakes⟩ := write_takes mem hok
      rw [UInt16.toNat_toBitVec, hcount, h.bytes] at htakes
      exact ⟨cfg, hcfg, htakes⟩
  case cdc =>
    refine ⟨str.length + 1, _, ?_, hwrite⟩
    rw [halUsbCdcWriteString, if_neg h.not_null, hscan]
    rfl
  case console =>
    have hprog : halConsoleWrite mem s (str.length + 1) =
        some (halUsbCdcWrite mem s.toNat (UInt16.ofNat str.length) >>= fun _ => return ()) := by
      rw [halConsoleWrite, if_pos h.not_null, consolePut, hscan]
      rfl
    exact ⟨_, _, hprog, hwrite.bind fun _ _ hl => Usb.BulkIn.hands_done hl.1⟩

theorem not_sent_of_long (h : CString mem s str) (hlong : ¬ str.length < 65536) :
    ¬ StringsSent mem s str := by
  intro hsent
  obtain ⟨fuel, prog, hprog, -⟩ := hsent.cdc
  rw [halUsbCdcWriteString, if_neg h.not_null, h.scan_none hlong] at hprog
  cases hprog

/-- A string of fewer than 65536 bytes is sent by all of them; a longer one is scanned
forever. -/
theorem strings_sent_iff (h : CString mem s str) :
    StringsSent mem s str ↔ str.length < 65536 :=
  ⟨fun hsent => Decidable.byContradiction fun hlong => not_sent_of_long h hlong hsent,
    sent_of_short h⟩

end

/-- `Hi` at the start of the RAM. -/
def greeting (a : Nat) : UInt8 :=
  if a = 0x20000000 then 72 else if a = 0x20000001 then 105 else 0

theorem greeting_sent : StringsSent greeting 0x20000000 [72, 105] :=
  (strings_sent_iff ⟨by decide, by decide, by decide, by decide⟩).mpr (by decide)

/-- 65536 times `A`, and a NUL behind them. -/
def longText (a : Nat) : UInt8 := if a < 0x20010000 then 65 else 0

theorem long_text_not_sent :
    CString longText 0x20000000 (List.replicate 65536 65) ∧
      ¬ StringsSent longText 0x20000000 (List.replicate 65536 65) := by
  have hstr : CString longText 0x20000000 (List.replicate 65536 65) := by
    refine ⟨by decide, ?_, ?_, ?_⟩
    · rw [List.length_replicate, List.eq_replicate_iff]
      refine ⟨Usb.BulkIn.bytesAt_length _ _, fun b hb => ?_⟩
      obtain ⟨i, hi, rfl⟩ := mem_bytesAt_iff.mp hb
      exact if_pos (show 0x20000000 + i < 0x20010000 by omega)
    · intro hmem
      exact absurd (List.eq_of_mem_replicate hmem) (by decide)
    · rw [List.length_replicate]
      exact if_neg (Nat.lt_irrefl 0x20010000)
  refine ⟨hstr, not_sent_of_long hstr ?_⟩
  rw [List.length_replicate]
  exact Nat.lt_irrefl _

end NavHAL.Strings
