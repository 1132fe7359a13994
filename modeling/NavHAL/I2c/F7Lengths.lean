import NavHAL.Dma.Coherence
import NavHAL.I2c.Transactions

/-!
# Lengths of the STM32F7's I2C transfers (`i2c_f7.c`, `hal_i2c_dma.c`)

A length of 16 bits goes into `NBYTES`, which has 8: a longer transfer ends early, and the
loop that goes on waits in vain (`lengths_kept_iff`).  The DMA read, which would cut the
length the same way, is refused before `START`: no stream is known for it, and none can be
set.
-/

namespace NavHAL.I2c.F7

open Dma (DmaBinding DmaConfig Controllers StreamCbs StreamOwner Tcm halDmaInit halDmaStart
  halDmaAttachCallback navhalDmaRxGuard rxConfig)
open Steps (Each)

/-! ## The driver -/

/-- A device that acknowledges every address and byte. -/
structure Willing where
  rx : Nat → BitVec 8
  timing : Nat → Arrivals

def Willing.answers (dev : Willing) : Answers := ⟨true, true, fun _ => true, dev.rx, dev.timing⟩

/-- The peripherals by the bus number that their base address is computed from, and the
statics of the two files. -/
structure F7I2c where
  hw : Nat → I2cHw := fun _ => {}
  /-- `CR1.RXDMAEN` -/
  rxdmaen : Nat → Bool := fun _ => false
  /-- `s_override`, where `s_has_override` is set. -/
  overrides : Nat → Bool → Option DmaBinding := fun _ _ => none
  dma : Controllers := {}
  streamCb : StreamCbs StreamOwner := fun _ _ => none
  rxCallback : Option Nat := none
  activeBus : Nat := 0
  active : Option DmaConfig := none

def F7I2c.setHw (st : F7I2c) (bus : Nat) (hw : I2cHw) : F7I2c :=
  { st with hw := fun k => if k = bus then hw else st.hw k }

/-- `_i2c_bus_valid`, with `STM32_I2C_BUS_COUNT` -/
def i2cBusValid (bus : Nat) : Bool := decide (bus < 3)

/-- `stm32f7_i2c_dma_default_binding`: no stream is established for any bus. -/
def stm32f7I2cDmaDefaultBinding (_bus : Nat) (_tx : Bool) : Except HalStatus DmaBinding :=
  .error .errNotSupported

/-- `I2C_BUS_SLOTS` -/
def i2cBusSlots : Nat := 4

def halI2cDmaGetBinding (bus : Nat) (tx : Bool) (st : F7I2c) : Except HalStatus DmaBinding :=
  if i2cBusSlots ≤ bus then .error .errInvalidArg
  else
    match st.overrides bus tx with
    | some binding => .ok binding
    | none => stm32f7I2cDmaDefaultBinding bus tx

/-- `hal_i2c_dma_set_binding`; NULL restores the default. -/
def halI2cDmaSetBinding (bus : Nat) (tx : Bool) (binding : Option DmaBinding) (st : F7I2c) :
    HalStatus × F7I2c :=
  let override := fun new =>
    { st with overrides := fun k t => if k = bus ∧ t = tx then new else st.overrides k t }
  if i2cBusSlots ≤ bus then (.errInvalidArg, st)
  else
    match binding with
    | none => (.ok, override none)
    | some binding =>
      match stm32f7I2cDmaDefaultBinding bus tx with
      | .error s => (s, st)
      | .ok _ => (.ok, override (some binding))

section Driver

variable (t : Tcm) (dev : Willing)

/-- The address of `RXDR`. -/
def rxdrAddr (bus : Nat) : BitVec 32 := BitVec.ofNat 32 (0x40005400 + 0x400 * bus + 0x24)

/-- The read phase of `stm32f7_i2c_dma_read_regs`. -/
def startDmaRead (bus : Nat) (devAddr : BitVec 8) (cfg : DmaConfig) (callback : Option Nat)
    (st : F7I2c) : HalStatus × F7I2c :=
  let cfg := { cfg with
    direction := .p2m, srcAddr := rxdrAddr bus, srcInc := false, dstInc := true,
    dataWidth := .width8 }
  let st := { st with
    rxCallback := callback, activeBus := bus, active := some cfg
    rxdmaen := fun k => k = bus || st.rxdmaen k
    dma := halDmaInit cfg st.dma }
  let claimed :=
    if cfg.controller = .dma1 then halDmaAttachCallback .dma1 cfg.stream .i2c st.streamCb
    else (.ok, st.streamCb)
  match claimed with
  | (.ok, cbs) =>
    let st := { st with streamCb := cbs, dma := halDmaStart cfg st.dma }
    (.ok, st.setHw bus ((st.hw bus).start ⟨devAddr, cfg.dataCount.setWidth 8, true, true⟩ true))
  | _ => (.errBusy, st)

/-- `stm32f7_i2c_dma_read_regs` -/
def stm32f7I2cDmaReadRegs (bus : Nat) (devAddr reg : BitVec 8) (cfg : DmaConfig)
    (callback : Option Nat) (st : F7I2c) : HalStatus × F7I2c :=
  match navhalDmaRxGuard t (UInt32.ofBitVec cfg.dstAddr) with
  | .ok =>
    match waitFor .txis (dev.timing 0) ((st.hw bus).start ⟨devAddr, 1, false, false⟩ true) with
    | (.ok, hw) =>
      match waitFor .tc (dev.timing 1) (hw.writeTxdr reg true) with
      | (.ok, hw) => startDmaRead bus devAddr cfg callback (st.setHw bus hw)
      | (s, hw) => (s, st.setHw bus hw)
    | (s, hw) => (s, st.setHw bus hw)
  | s => (s, st)

def halI2cReadRegsDma (bus : Nat) (devAddr reg : BitVec 8) (buffer : BitVec 32) (length : BitVec 16)
    (callback : Option Nat) (st : F7I2c) : HalStatus × F7I2c :=
  if buffer = 0 ∨ length = 0 then (.errInvalidArg, st)
  else
    match halI2cDmaGetBinding bus false st with
    | .error s => (s, st)
    | .ok b => stm32f7I2cDmaReadRegs t dev bus devAddr reg (rxConfig b buffer length) callback st

/-- What a call has in its buffer, at most `UINT16_MAX` bytes. -/
abbrev Bytes16 := { bytes : List (BitVec 8) // bytes.length < 65536 }

/-- The calls; a missing buffer is a `NULL` pointer. -/
inductive Request
  | write (devAddr : BitVec 8) (data : Option Bytes16)
  | read (devAddr : BitVec 8) (hasBuffer : Bool) (len : BitVec 16)
  | writeRead (devAddr : BitVec 8) (tx : Option Bytes16) (hasBuffer : Bool) (rxLen : BitVec 16)
  | readRegsDma (devAddr reg : BitVec 8) (buffer : BitVec 32) (length : BitVec 16)
      (callback : Option Nat)
  | dmaSetBinding (tx : Bool) (binding : Option DmaBinding)

/-- `hal_i2c_write`, `hal_i2c_read` and so on, with the backend of the F7. -/
def perform (bus : Nat) (request : Request) (st : F7I2c) : HalStatus × F7I2c :=
  match request with
  | .write devAddr (some data) =>
    if !i2cBusValid bus then (.errInvalidArg, st)
    else
      let result := stm32f7I2cWrite dev.answers devAddr data.1 (st.hw bus)
      (result.1, st.setHw bus result.2)
  | .read devAddr true len =>
    if !i2cBusValid bus then (.errInvalidArg, st)
    else
      let result := stm32f7I2cRead dev.answers devAddr len.toNat (st.hw bus)
      (result.1, st.setHw bus result.2.2)
  | .writeRead devAddr (some tx) true rxLen =>
    if !i2cBusValid bus then (.errInvalidArg, st)
    else
      let result := stm32f7I2cWriteRead dev.answers devAddr tx.1 rxLen.toNat (st.hw bus)
      (result.1, st.setHw bus result.2.2)
  | .readRegsDma devAddr reg buffer length callback =>
    halI2cReadRegsDma t dev bus devAddr reg buffer length callback st
  | .dmaSetBinding tx binding => halI2cDmaSetBinding bus tx binding st
  | .write _ none | .read _ false _ | .writeRead _ none _ _ | .writeRead _ (some _) false _ =>
    (.errInvalidArg, st)

end Driver

/-! ## Waits -/

section Waits

variable {hw hw' : I2cHw} {flag : IsrFlag} {stopped : Bool}

/-- What has crossed the bus is the same. -/
structure SameBus (hw hw' : I2cHw) : Prop where
  starts : hw'.starts = hw.starts
  sent : hw'.sent = hw.sent
  received : hw'.received = hw.received

theorem waitIsr_sameBus (flag : IsrFlag) (spin : Nat) (polls : List Nat) (hw : I2cHw) :
    SameBus hw (waitIsr flag spin polls hw).2 := by
  induction spin generalizing polls hw with
  | zero => exact ⟨rfl, rfl, rfl⟩
  | succ spin ih =>
    rw [waitIsr]
    split
    · exact ⟨rfl, rfl, rfl⟩
    · split
      · exact ⟨rfl, rfl, rfl⟩
      · have hnext := ih polls.tail (hw.arrive (polls.head?.getD hw.upcoming.length))
        exact ⟨hnext.starts, hnext.sent, hnext.received⟩

theorem waitFor_sameBus {arr : Arrivals} {status : HalStatus}
    (h : waitFor flag arr hw = (status, hw')) : SameBus hw hw' := by
  have hsame := waitIsr_sameBus flag i2cSpin arr.polls hw
  obtain rfl : _ = hw' := congrArg Prod.snd h
  exact ⟨hsame.starts, hsame.sent, hsame.received⟩

/-- A wait that nothing ends goes on until everything has arrived. -/
theorem waitIsr_timeout (spin : Nat) (polls : List Nat)
    (hnever : ∀ k, seen flag (hw.arrive k) = false) :
    ∃ k, waitIsr flag spin polls hw = (.errTimeout, hw.arrive k) ∧
      (polls.length < spin → hw.upcoming.length ≤ k) := by
  induction spin generalizing polls hw with
  | zero => exact ⟨0, by simp [waitIsr, I2cHw.arrive], fun h => absurd h (Nat.not_lt_zero _)⟩
  | succ spin ih =>
    rw [waitIsr_succ]
    simp only [hnever, Bool.false_eq_true, if_false]
    generalize hn : polls.head?.getD hw.upcoming.length = n
    have hlater : ∀ k, seen flag ((hw.arrive n).arrive k) = false := by
      intro k
      rw [arrive_arrive]
      exact hnever (n + k)
    obtain ⟨k, hwait, hall⟩ := ih polls.tail hlater
    refine ⟨n + k, by rw [hwait, arrive_arrive], fun hlen => ?_⟩
    cases polls with
    | nil =>
      have hn' : hw.upcoming.length = n := hn
      omega
    | cons m rest =>
      have hm : m = n := hn
      have hshort := hall (by simpa using hlen)
      simp only [I2cHw.arrive, List.length_drop] at hshort
      omega

/-- Between calls `STOPF` can be up, or about to be, and `TC` of a transfer that was given up. -/
structure Calm (hw : I2cHw) : Prop where
  isr : ∀ f, f ≠ .stopf → f ≠ .tc → hw.isr f = false
  upcoming : ∃ n, hw.upcoming = List.replicate n .stopf

/-- A transfer that has ended, with `STOPF` or `TC` to come. -/
structure Ended (hw : I2cHw) : Prop where
  isr : ∀ f, f ≠ .stopf → f ≠ .tc → hw.isr f = false
  upcoming : ∀ f ∈ hw.upcoming, f = .stopf ∨ f = .tc

theorem Ended.not_seen (h : Ended hw) (hstop : flag ≠ .stopf) (htc : flag ≠ .tc) (k : Nat) :
    seen flag (hw.arrive k) = false := by
  have hnot : ∀ f, f ≠ .stopf → f ≠ .tc → (hw.arrive k).isr f = false := by
    intro f hstop htc
    have hcome : (hw.upcoming.take k).contains f = false := by
      rw [← Bool.not_eq_true, List.contains_iff_mem]
      intro hmem
      exact (h.upcoming f (List.mem_of_mem_take hmem)).elim hstop htc
    simp only [I2cHw.arrive, h.isr f hstop htc, hcome, Bool.or_false]
  rw [seen, hnot flag hstop htc, hnot .nackf (by decide) (by decide), Bool.or_false]

/-- The loop that goes on after the end of the transfer waits in vain. -/
theorem Ended.wait (h : Ended hw) (flag : IsrFlag) (hstop : flag ≠ .stopf) (htc : flag ≠ .tc)
    (arr : Arrivals) :
    ∃ hw', waitFor flag arr hw = (.errTimeout, hw') ∧ Calm hw' ∧ SameBus hw hw' := by
  obtain ⟨k, hwait, hall⟩ := waitIsr_timeout i2cSpin arr.polls (h.not_seen hstop htc)
  have hcalm : Calm (hw.arrive k) := by
    rw [arrive_all (hall arr.within)]
    refine ⟨fun f hstop htc => ?_, 0, by simp [I2cHw.arrive]⟩
    have hcome : hw.upcoming.contains f = false := by
      rw [← Bool.not_eq_true, List.contains_iff_mem]
      intro hmem
      exact (h.upcoming f hmem).elim hstop htc
    simp only [I2cHw.arrive, List.take_length, h.isr f hstop htc, hcome, Bool.or_false]
  have hfor : waitFor flag arr hw = (.errTimeout, (hw.arrive k).arrive arr.after) := by
    rw [waitFor, hwait]
  refine ⟨_, hfor, ?_, waitFor_sameBus hfor⟩
  obtain ⟨n, hup⟩ := hcalm.upcoming
  refine ⟨fun f hstop htc => ?_, n - arr.after, ?_⟩
  · simp only [I2cHw.arrive] at hup ⊢
    rw [hup, List.take_replicate, contains_replicate_stopf hstop, Bool.or_false]
    exact hcalm.isr f hstop htc
  · simp only [I2cHw.arrive] at hup ⊢
    rw [hup, List.drop_replicate]

theorem Calm.expecting (h : Calm hw) :
    ∃ up stopped, (up = [] ∨ up = [.tc]) ∧ Expecting up [] stopped hw := by
  obtain ⟨n, hup⟩ := h.upcoming
  have hstop : ∃ stopped, stopped = (hw.isr .stopf || n != 0) := ⟨_, rfl⟩
  obtain ⟨stopped, hstop⟩ := hstop
  cases htc : hw.isr .tc with
  | true =>
    refine ⟨[.tc], stopped, Or.inr rfl, fun f hf => ?_, n, by rw [hup, List.append_nil], hstop⟩
    by_cases htc' : f = .tc
    · rw [htc', htc]
      rfl
    · rw [h.isr f hf htc']
      simp [htc']
  | false =>
    refine ⟨[], stopped, Or.inl rfl, fun f hf => ?_, n, by rw [hup, List.append_nil], hstop⟩
    by_cases htc' : f = .tc
    · rw [htc', htc]
      rfl
    · exact h.isr f hf htc'

theorem calm_of_quiet (h : Quiet hw) : Calm hw := by
  obtain ⟨stopped, h⟩ := h
  obtain ⟨n, hup, -⟩ := h.upcoming
  exact ⟨fun f hf _ => h.isr f hf, n, by rw [hup, List.append_nil]⟩

theorem ended_of_expecting {next : List IsrFlag} (h : Expecting [] next stopped hw)
    (hnext : ∀ f ∈ next, f = .stopf ∨ f = .tc) : Ended hw := by
  obtain ⟨n, hup, -⟩ := h.upcoming
  refine ⟨fun f hf _ => h.isr f hf, fun f hmem => ?_⟩
  rw [hup] at hmem
  rcases List.mem_append.mp hmem with hmem | hmem
  · exact Or.inl (List.eq_of_mem_replicate hmem)
  · exact hnext f hmem

end Waits

/-! ## Loops -/

section Loops

variable (dev : Willing) {hw : I2cHw} {stopped : Bool}

/-- A transfer that sends, with `n` bytes to go. -/
structure Sending (n : Nat) (auto : Bool) (stopped : Bool) (hw : I2cHw) : Prop where
  left : hw.left = n
  autoend : hw.autoend = auto
  flags : Expecting [] (sentFlags n auto true) stopped hw

theorem Sending.ended {autoend : Bool} (h : Sending 0 autoend stopped hw) : Ended hw := by
  refine ended_of_expecting h.flags fun f hf => ?_
  cases autoend with
  | true => exact Or.inl (List.mem_singleton.mp hf)
  | false => exact Or.inr (List.mem_singleton.mp hf)

/-- The loop over the data moves what the transfer has room for, and if there is more it gives
up. -/
theorem sendBytes_moves (bytes : List (BitVec 8)) (i left : Nat) {autoend : Bool}
    (h : Sending left autoend stopped hw) :
    (bytes.length ≤ left ∧ ∃ hw', sendBytes dev.answers i bytes hw = (.ok, hw') ∧
      Sending (left - bytes.length) autoend stopped hw' ∧ hw'.starts = hw.starts ∧
      hw'.sent = hw.sent ++ bytes ∧ hw'.received = hw.received) ∨
    (left < bytes.length ∧ ∃ hw', sendBytes dev.answers i bytes hw = (.errTimeout, hw') ∧
      Calm hw' ∧ hw'.starts = hw.starts) := by
  induction bytes generalizing i left hw with
  | nil => exact Or.inl ⟨Nat.zero_le _, hw, rfl, h, rfl, (List.append_nil _).symm, rfl⟩
  | cons b bytes ih =>
    cases left with
    | zero =>
      obtain ⟨hw', hwait, hcalm, hsame⟩ :=
        h.ended.wait .txis (by decide) (by decide) (dev.timing i)
      refine Or.inr ⟨Nat.succ_pos _, hw', ?_, hcalm, hsame.starts⟩
      have hwait' : waitFor .txis (dev.answers.timing i) hw = (.errTimeout, hw') := hwait
      rw [sendBytes, hwait']
    | succ left =>
      have hflag : Expecting [] [.txis] stopped hw := h.flags
      obtain ⟨hw', hwait, hleft, hauto, hflags⟩ := send_round dev.answers i left b h.left hflag
      obtain ⟨hstarts, hsent, hreceived⟩ := waitFor_sameBus hwait
      rw [h.autoend] at hauto hflags
      have hroom : hw'.left = left + 1 := (waitFor_transfer hwait).1.trans h.left
      have hnext : Sending left autoend stopped (hw'.writeTxdr b true) := ⟨hleft, hauto, hflags⟩
      have hstep : sendBytes dev.answers i (b :: bytes) hw =
          sendBytes dev.answers (i + 1) bytes (hw'.writeTxdr b true) := by
        rw [sendBytes, hwait]
        rfl
      have hsent' : (hw'.writeTxdr b true).sent = hw.sent ++ [b] := by
        simp [I2cHw.writeTxdr, hroom, hsent]
      rw [hstep, List.length_cons, Nat.add_sub_add_right]
      rcases ih (i + 1) left hnext with
        ⟨hle, hw'', hrest, hdone, hs, hse, hr⟩ | ⟨hlt, hw'', hrest, hcalm, hs⟩
      · refine Or.inl ⟨Nat.succ_le_succ hle, hw'', hrest, hdone, hs.trans hstarts, ?_,
          hr.trans hreceived⟩
        rw [hse, hsent', List.append_assoc, List.singleton_append]
      · exact Or.inr ⟨Nat.succ_lt_succ hlt, hw'', hrest, hcalm, hs.trans hstarts⟩

/-- A transfer that receives, with `n` bytes to go; `STOP` comes with the last one. -/
structure Receiving (n : Nat) (stopped : Bool) (hw : I2cHw) : Prop where
  left : hw.left = n
  autoend : hw.autoend = true
  flags : if n = 0 then Expecting [] [] true hw
    else Expecting [] (receivedFlags n true) stopped hw

theorem Receiving.ended (h : Receiving 0 stopped hw) : Ended hw :=
  ended_of_expecting h.flags fun _ hf => absurd hf (List.not_mem_nil)

theorem recvBytes_moves (n i w left : Nat) (h : Receiving left stopped hw) :
    (n ≤ left ∧ ∃ data hw' stopped', recvBytes dev.answers n i w hw = (.ok, data, hw') ∧
      Receiving (left - n) stopped' hw' ∧ hw'.starts = hw.starts ∧ hw'.sent = hw.sent ∧
      hw'.received = hw.received + n) ∨
    (left < n ∧ ∃ data hw', recvBytes dev.answers n i w hw = (.errTimeout, data, hw') ∧
      Calm hw' ∧ hw'.starts = hw.starts) := by
  induction n generalizing i w left hw stopped with
  | zero => exact Or.inl ⟨Nat.zero_le _, [], hw, stopped, rfl, h, rfl, rfl, rfl⟩
  | succ n ih =>
    cases left with
    | zero =>
      obtain ⟨hw', hwait, hcalm, hsame⟩ :=
        h.ended.wait .rxne (by decide) (by decide) (dev.timing w)
      refine Or.inr ⟨Nat.succ_pos _, [], hw', ?_, hcalm, hsame.starts⟩
      have hwait' : waitFor .rxne (dev.answers.timing w) hw = (.errTimeout, hw') := hwait
      rw [recvBytes, hwait']
    | succ left =>
      obtain ⟨m, hm⟩ : ∃ m, receivedFlags (left + 1) true =
          .rxne :: List.replicate m .stopf ∧ (left = 0 → m = 1) := by
        cases left with
        | zero => exact ⟨1, rfl, fun _ => rfl⟩
        | succ left => exact ⟨0, rfl, fun h => absurd h (Nat.succ_ne_zero left)⟩
      have hflags := h.flags
      rw [if_neg (Nat.succ_ne_zero left), hm.1] at hflags
      obtain ⟨hw', hwait, hleft, hauto, hread⟩ :=
        recv_round dev.answers w left m h.left h.autoend hflags
      obtain ⟨hstarts, hsent, hreceived⟩ := waitFor_sameBus hwait
      have hroom : hw'.left = left + 1 := (waitFor_transfer hwait).1.trans h.left
      have hnext : Receiving left (stopped || m != 0) hw'.readRxdr := by
        refine ⟨hleft, hauto, ?_⟩
        split
        · next hzero =>
          rw [hzero, hm.2 hzero] at hread
          simpa [receivedFlags] using hread
        · exact hread
      have hreceived' : hw'.readRxdr.received = hw.received + 1 := by
        simp [I2cHw.readRxdr, hroom, hreceived]
      rcases ih (i + 1) (w + 1) left hnext with
        ⟨hle, data, hw'', st, hrest, hdone, hs, hse, hr⟩ | ⟨hlt, data, hw'', hrest, hcalm, hs⟩
      · refine Or.inl ⟨Nat.succ_le_succ hle, dev.answers.rx i :: data, hw'', st, ?_, ?_,
          hs.trans hstarts, hse.trans hsent, ?_⟩
        · rw [recvBytes, hwait]
          dsimp only
          rw [hrest]
        · rwa [Nat.add_sub_add_right]
        · rw [hr, hreceived']
          omega
      · refine Or.inr ⟨Nat.succ_lt_succ hlt, dev.answers.rx i :: data, hw'', ?_, hcalm,
          hs.trans hstarts⟩
        rw [recvBytes, hwait]
        dsimp only
        rw [hrest]

end Loops

/-! ## Calls -/

/-- How a call of `txLen` and `rxLen` bytes ends: before `START`, with its bytes moved, or, when
they do not fit, in a timeout. -/
inductive Outcome (hw : I2cHw) (tx : List (BitVec 8)) (rx : Nat) (fits : Prop) :
    HalStatus → I2cHw → Prop
  | refused {status : HalStatus} (hfits : fits) (hne : status ≠ .ok) : Outcome hw tx rx fits status hw
  | moved {hw' : I2cHw} (hfits : fits) (hcalm : Calm hw') (hsent : hw'.sent = hw.sent ++ tx)
      (hreceived : hw'.received = hw.received + rx) : Outcome hw tx rx fits .ok hw'
  | short {hw' : I2cHw} (hnot : ¬ fits) (hcalm : Calm hw') (hstarts : hw.starts < hw'.starts) :
      Outcome hw tx rx fits .errTimeout hw'

section Calls

variable (dev : Willing) {hw : I2cHw} {stopped : Bool} (devAddr : BitVec 8)

theorem nbytes_of_le {n : Nat} (h : n ≤ 255) : (BitVec.ofNat 8 n).toNat = n := by
  rw [BitVec.toNat_ofNat]
  omega

theorem nbytes_lt {n : Nat} (h : 255 < n) : (BitVec.ofNat 8 n).toNat < n := by
  rw [BitVec.toNat_ofNat]
  omega

theorem start_sending (n : Nat) (auto : Bool) (h : Calm hw) :
    ∃ stopped, Sending (BitVec.ofNat 8 n).toNat auto stopped
      (hw.start ⟨devAddr, BitVec.ofNat 8 n, false, auto⟩ true) := by
  obtain ⟨up, stopped, hup, hexp⟩ := h.expecting
  have hstart := hexp.start ⟨devAddr, BitVec.ofNat 8 n, false, auto⟩ true hup
  simp only [Bool.false_eq_true, false_and, if_false] at hstart
  exact ⟨stopped, rfl, rfl, hstart⟩

theorem start_receiving {up : List IsrFlag} (n : Nat) (hup : up = [] ∨ up = [.tc])
    (h : Expecting up [] stopped hw) :
    Receiving (BitVec.ofNat 8 n).toNat stopped
      (hw.start ⟨devAddr, BitVec.ofNat 8 n, true, true⟩ true) := by
  have hstart := h.start ⟨devAddr, BitVec.ofNat 8 n, true, true⟩ true hup
  refine ⟨rfl, rfl, ?_⟩
  simp only [true_and] at hstart
  split
  · next hzero =>
    rw [if_neg (by simpa using hzero), hzero] at hstart
    exact hstart.of_stop
  · next hpos =>
    rwa [if_pos hpos] at hstart

/-- The end of a call whose transfer is complete. -/
theorem finish_moves (w : Nat) (h : Expecting [] [] true hw) :
    ∃ hw', finish dev.answers w hw = (.ok, hw') ∧ Calm hw' ∧ hw'.sent = hw.sent ∧
      hw'.received = hw.received := by
  obtain ⟨hw', hfinish, hquiet⟩ := finish_ok dev.answers w h
  have hsame := waitIsr_sameBus .stopf i2cSpin (dev.answers.timing w).polls hw
  have hend : (finish dev.answers w hw).2 = hw' := congrArg Prod.snd hfinish
  refine ⟨hw', hfinish, calm_of_quiet hquiet, ?_, ?_⟩
  · rw [← hend]
    exact hsame.sent
  · rw [← hend]
    exact hsame.received

theorem write_outcome (bytes : List (BitVec 8)) (h : Calm hw) :
    Outcome hw bytes 0 (bytes.length ≤ 255)
      (stm32f7I2cWrite dev.answers devAddr bytes hw).1
      (stm32f7I2cWrite dev.answers devAddr bytes hw).2 := by
  rw [stm32f7I2cWrite]
  split
  · next hzero => exact .refused (by omega) HalStatus.noConfusion
  · next hpos =>
    obtain ⟨stopped, hsending⟩ := start_sending devAddr bytes.length true h
    have hack : dev.answers.ackAddr = true := rfl
    simp only [hack]
    rcases sendBytes_moves dev bytes 0 _ hsending with
      ⟨hle, hw', hloop, hdone, -, hsent, hreceived⟩ | ⟨hlt, hw', hloop, hcalm, hstarts⟩
    · have hfits : bytes.length ≤ 255 := by
        by_contra hlong
        have hshort := nbytes_lt (Nat.not_le.mp hlong)
        omega
      rw [nbytes_of_le hfits, Nat.sub_self] at hdone
      obtain ⟨hw'', hfinish, hcalm, hsent', hreceived'⟩ :=
        finish_moves dev bytes.length (Expecting.of_stop hdone.flags)
      simp only [hloop, hfinish]
      exact .moved hfits hcalm (hsent'.trans hsent) (hreceived'.trans hreceived)
    · have hnot : ¬ bytes.length ≤ 255 := fun hfits => by
        rw [nbytes_of_le hfits] at hlt
        exact Nat.lt_irrefl _ hlt
      simp only [hloop]
      exact .short hnot hcalm (Nat.lt_of_lt_of_eq (Nat.lt_succ_self _) hstarts.symm)

/-- The read transfer of a call, and its end. -/
theorem receive_outcome {up : List IsrFlag} (n w w' : Nat) (hup : up = [] ∨ up = [.tc])
    (h : Expecting up [] stopped hw) :
    let started := hw.start ⟨devAddr, BitVec.ofNat 8 n, true, true⟩ true
    (n ≤ 255 ∧ ∃ data hw' hw'', recvBytes dev.answers n 0 w started = (.ok, data, hw') ∧
      finish dev.answers w' hw' = (.ok, hw'') ∧ Calm hw'' ∧ hw''.sent = hw.sent ∧
      hw''.received = hw.received + n) ∨
    (¬ n ≤ 255 ∧ ∃ data hw', recvBytes dev.answers n 0 w started = (.errTimeout, data, hw') ∧
      Calm hw' ∧ hw.starts < hw'.starts) := by
  have hreceiving := start_receiving devAddr n hup h
  rcases recvBytes_moves dev n 0 w _ hreceiving with
    ⟨hle, data, hw', stopped', hloop, hdone, -, hsent, hreceived⟩ | ⟨hlt, data, hw', hloop, hcalm, hstarts⟩
  · have hfits : n ≤ 255 := by
      by_contra hlong
      have hshort := nbytes_lt (Nat.not_le.mp hlong)
      omega
    rw [nbytes_of_le hfits, Nat.sub_self] at hdone
    obtain ⟨hw'', hfinish, hcalm, hsent', hreceived'⟩ := finish_moves dev w' hdone.flags
    exact Or.inl ⟨hfits, data, hw', hw'', hloop, hfinish, hcalm, hsent'.trans hsent,
      hreceived'.trans hreceived⟩
  · have hnot : ¬ n ≤ 255 := fun hfits => by
      rw [nbytes_of_le hfits] at hlt
      exact Nat.lt_irrefl _ hlt
    exact Or.inr ⟨hnot, data, hw', hloop, hcalm,
      Nat.lt_of_lt_of_eq (Nat.lt_succ_self _) hstarts.symm⟩

theorem read_outcome (n : Nat) (h : Calm hw) :
    Outcome hw [] n (n ≤ 255) (stm32f7I2cRead dev.answers devAddr n hw).1
      (stm32f7I2cRead dev.answers devAddr n hw).2.2 := by
  rw [stm32f7I2cRead]
  split
  · next hzero => exact .refused (by omega) HalStatus.noConfusion
  · next hpos =>
    obtain ⟨up, stopped, hup, hexp⟩ := h.expecting
    have hack : dev.answers.ackAddr = true := rfl
    simp only [hack]
    rcases receive_outcome dev devAddr n 0 n hup hexp with
      ⟨hfits, data, hw', hw'', hloop, hfinish, hcalm, hsent, hreceived⟩ |
        ⟨hnot, data, hw', hloop, hcalm, hstarts⟩
    · simp only [hloop, hfinish]
      exact .moved hfits hcalm (by rw [hsent, List.append_nil]) hreceived
    · simp only [hloop]
      exact .short hnot hcalm hstarts

theorem writeRead_outcome (tx : List (BitVec 8)) (n : Nat) (h : Calm hw) :
    Outcome hw tx n (tx.length = 0 ∨ n = 0 ∨ tx.length ≤ 255 ∧ n ≤ 255)
      (stm32f7I2cWriteRead dev.answers devAddr tx n hw).1
      (stm32f7I2cWriteRead dev.answers devAddr tx n hw).2.2 := by
  rw [stm32f7I2cWriteRead]
  split
  · next hzero => exact .refused (by omega) HalStatus.noConfusion
  · next hpos =>
    obtain ⟨htx, hn⟩ := not_or.mp hpos
    obtain ⟨stopped, hsending⟩ := start_sending devAddr tx.length false h
    have hack : dev.answers.ackAddr = true := rfl
    have hagain : dev.answers.ackAgain = true := rfl
    simp only [hack, hagain]
    rcases sendBytes_moves dev tx 0 _ hsending with
      ⟨hle, hw₁, hloop, hdone, hstarts₁, hsent₁, hreceived₁⟩ | ⟨hlt, hw₁, hloop, hcalm, hstarts₁⟩
    · have hfits : tx.length ≤ 255 := by
        by_contra hlong
        have hshort := nbytes_lt (Nat.not_le.mp hlong)
        omega
      rw [nbytes_of_le hfits, Nat.sub_self] at hdone
      have htc : Expecting [] (.tc :: List.replicate 0 .stopf) stopped hw₁ := hdone.flags
      obtain ⟨hw₂, hwait, htc⟩ := htc.wait_ok (dev.answers.timing tx.length) (by decide)
      obtain ⟨hstarts₂, hsent₂, hreceived₂⟩ := waitFor_sameBus hwait
      simp only [hloop, hwait]
      rcases receive_outcome dev devAddr n (tx.length + 1) (tx.length + 1 + n)
        (Or.inr rfl) htc with ⟨hfits', data, hw₃, hw₄, hrecv, hfinish, hcalm, hsent, hreceived⟩ |
          ⟨hnot, data, hw₃, hrecv, hcalm, hstarts⟩
      · simp only [hrecv, hfinish]
        refine .moved (Or.inr (Or.inr ⟨hfits, hfits'⟩)) hcalm ?_ ?_
        · rw [hsent, hsent₂, hsent₁]
          rfl
        · rw [hreceived, hreceived₂, hreceived₁]
          rfl
      · simp only [hrecv]
        refine .short (fun hfit => ?_) hcalm ?_
        · exact hfit.elim htx fun hfit => hfit.elim hn fun hboth => hnot hboth.2
        · rw [hstarts₂, hstarts₁] at hstarts
          exact Nat.lt_of_succ_lt hstarts
    · have hnot : ¬ tx.length ≤ 255 := fun hfits => by
        rw [nbytes_of_le hfits] at hlt
        exact Nat.lt_irrefl _ hlt
      simp only [hloop]
      refine .short (fun hfit => ?_) hcalm (Nat.lt_of_lt_of_eq (Nat.lt_succ_self _) hstarts₁.symm)
      exact hfit.elim htx fun hfit => hfit.elim hn fun hboth => hnot hboth.1

end Calls

/-! ## Runs -/

/-- A call, and the device that it meets. -/
structure Event where
  bus : Nat
  request : Request
  dev : Willing

def Event.perform (t : Tcm) (ev : Event) (st : F7I2c) : HalStatus × F7I2c :=
  F7.perform t ev.dev ev.bus ev.request st

def eventStep (t : Tcm) (st : F7I2c) (ev : Event) : F7I2c := (ev.perform t st).2

/-- The data bytes that a call is to move in each direction. -/
def Request.bytes : Request → List (BitVec 8) × Nat
  | .write _ (some data) => (data.1, 0)
  | .read _ true len => ([], len.toNat)
  | .writeRead _ (some tx) true rxLen => (tx.1, rxLen.toNat)
  | .readRegsDma _ reg _ length _ => ([reg], length.toNat)
  | _ => ([], 0)

/-- The call failed before `START`, or it returned `HAL_OK` after exactly these bytes. -/
def Moved (st : F7I2c) (bus : Nat) (bytes : List (BitVec 8) × Nat) (result : HalStatus × F7I2c) :
    Prop :=
  (result.1 ≠ .ok ∧ ∀ k, (result.2.hw k).starts = (st.hw k).starts) ∨
    (result.1 = .ok ∧ (result.2.hw bus).sent = (st.hw bus).sent ++ bytes.1 ∧
      (result.2.hw bus).received = (st.hw bus).received + bytes.2)

def LengthKept (t : Tcm) (st : F7I2c) (ev : Event) : Prop :=
  Moved st ev.bus ev.request.bytes (ev.perform t st)

/-- No length of a transfer is above what `NBYTES` holds. -/
def Event.Fits (ev : Event) : Prop :=
  match ev.request with
  | .write _ (some data) => ev.bus < 3 → data.1.length ≤ 255
  | .read _ true len => ev.bus < 3 → len.toNat ≤ 255
  | .writeRead _ (some tx) true rxLen =>
    ev.bus < 3 → tx.1.length = 0 ∨ rxLen.toNat = 0 ∨ tx.1.length ≤ 255 ∧ rxLen.toNat ≤ 255
  | _ => True

/-- No bus has anything but a late flag, and no stream was set for any. -/
structure Steady (st : F7I2c) : Prop where
  calm : ∀ bus, Calm (st.hw bus)
  unset : ∀ bus tx, st.overrides bus tx = none

section Runs

variable {t : Tcm} {st : F7I2c}

theorem getBinding_error (h : Steady st) (bus : Nat) (tx : Bool) :
    ∃ s, s ≠ .ok ∧ halI2cDmaGetBinding bus tx st = .error s := by
  unfold halI2cDmaGetBinding
  split
  · exact ⟨.errInvalidArg, HalStatus.noConfusion, rfl⟩
  · rw [h.unset]
    exact ⟨.errNotSupported, HalStatus.noConfusion, rfl⟩

/-- No stream being known, the DMA read is refused before `START`. -/
theorem readRegsDma_refused (h : Steady st) (dev : Willing) (bus : Nat) (devAddr reg : BitVec 8)
    (buffer : BitVec 32) (length : BitVec 16) (callback : Option Nat) :
    ∃ s, s ≠ .ok ∧
      halI2cReadRegsDma t dev bus devAddr reg buffer length callback st = (s, st) := by
  unfold halI2cReadRegsDma
  split
  · exact ⟨.errInvalidArg, HalStatus.noConfusion, rfl⟩
  · obtain ⟨s, hne, hget⟩ := getBinding_error h bus false
    rw [hget]
    exact ⟨s, hne, rfl⟩

/-- Only the default can be set again. -/
theorem setBinding_steady (h : Steady st) (bus : Nat) (tx : Bool) (binding : Option DmaBinding) :
    Steady (halI2cDmaSetBinding bus tx binding st).2 ∧
      (halI2cDmaSetBinding bus tx binding st).2.hw = st.hw := by
  unfold halI2cDmaSetBinding
  split
  · exact ⟨h, rfl⟩
  · cases binding with
    | none =>
      refine ⟨⟨h.calm, fun k dir => ?_⟩, rfl⟩
      change (if k = bus ∧ dir = tx then none else st.overrides k dir) = none
      rw [h.unset, ite_self]
    | some binding => exact ⟨h, rfl⟩

theorem Steady.setHw (h : Steady st) {bus : Nat} {hw : I2cHw} (hcalm : Calm hw) :
    Steady (st.setHw bus hw) := by
  refine ⟨fun k => ?_, h.unset⟩
  change Calm (if k = bus then hw else st.hw k)
  split
  · exact hcalm
  · exact h.calm k

theorem Outcome.calm {hw hw' : I2cHw} {tx : List (BitVec 8)} {rx : Nat} {fits : Prop}
    {status : HalStatus} (h : Outcome hw tx rx fits status hw') (hcalm : Calm hw) : Calm hw' := by
  cases h with
  | refused _ _ => exact hcalm
  | moved _ hcalm' _ _ => exact hcalm'
  | short _ hcalm' _ => exact hcalm'

theorem moved_of_refused {bus : Nat} {bytes : List (BitVec 8) × Nat} {status : HalStatus}
    (hne : status ≠ .ok) : Moved st bus bytes (status, st) :=
  Or.inl ⟨hne, fun _ => rfl⟩

/-- A transaction moves its bytes exactly if their numbers fit. -/
theorem Outcome.moved_iff {bus : Nat} {hw' : I2cHw} {tx : List (BitVec 8)} {rx : Nat} {fits : Prop}
    {status : HalStatus} (h : Outcome (st.hw bus) tx rx fits status hw') :
    Moved st bus (tx, rx) (status, st.setHw bus hw') ↔ fits := by
  have hself : (st.setHw bus hw').hw bus = hw' := if_pos rfl
  cases h with
  | refused hfits hne =>
    refine iff_of_true (Or.inl ⟨hne, fun k => ?_⟩) hfits
    change (if k = bus then st.hw bus else st.hw k).starts = (st.hw k).starts
    split
    · next hk => rw [hk]
    · rfl
  | moved hfits _ hsent hreceived =>
    refine iff_of_true (Or.inr ⟨rfl, ?_, ?_⟩) hfits
    · exact hself.symm ▸ hsent
    · exact hself.symm ▸ hreceived
  | short hnot _ hstarts =>
    refine iff_of_false ?_ hnot
    rintro (⟨-, hsame⟩ | ⟨hok, -⟩)
    · have hbus : ((st.setHw bus hw').hw bus).starts = (st.hw bus).starts := hsame bus
      rw [hself] at hbus
      omega
    · cases hok

/-- The check of the bus, and a transaction on it. -/
theorem checked_iff (h : Steady st) {bus : Nat} {hw' : I2cHw} {tx : List (BitVec 8)} {rx : Nat}
    {fits : Prop} {status : HalStatus} (houtcome : Outcome (st.hw bus) tx rx fits status hw') :
    (Moved st bus (tx, rx)
        (if (!i2cBusValid bus) = true then (.errInvalidArg, st) else (status, st.setHw bus hw')) ↔
      (bus < 3 → fits)) ∧
    Steady (if (!i2cBusValid bus) = true then (.errInvalidArg, st)
      else (status, st.setHw bus hw')).2 := by
  by_cases hbus : bus < 3
  · have hvalid : ¬ (!i2cBusValid bus) = true := by simp [i2cBusValid, hbus]
    rw [if_neg hvalid, imp_iff_right hbus]
    exact ⟨houtcome.moved_iff, h.setHw (houtcome.calm (h.calm bus))⟩
  · have hinvalid : (!i2cBusValid bus) = true := by simp [i2cBusValid, hbus]
    rw [if_pos hinvalid]
    exact ⟨iff_of_true (moved_of_refused HalStatus.noConfusion) fun hlt => absurd hlt hbus, h⟩

theorem event_kept_iff (h : Steady st) (ev : Event) :
    (LengthKept t st ev ↔ ev.Fits) ∧ Steady (eventStep t st ev) := by
  obtain ⟨bus, request, dev⟩ := ev
  have hnull : ∀ {bytes : List (BitVec 8) × Nat},
      (Moved st bus bytes (.errInvalidArg, st) ↔ True) ∧ Steady st :=
    ⟨iff_of_true (moved_of_refused HalStatus.noConfusion) trivial, h⟩
  cases request with
  | write devAddr data =>
    cases data with
    | none => exact hnull
    | some data => exact checked_iff h (write_outcome dev devAddr data.1 (h.calm bus))
  | read devAddr hasBuffer len =>
    cases hasBuffer with
    | false => exact hnull
    | true => exact checked_iff h (read_outcome dev devAddr len.toNat (h.calm bus))
  | writeRead devAddr tx hasBuffer rxLen =>
    cases tx with
    | none => exact hnull
    | some tx =>
      cases hasBuffer with
      | false => exact hnull
      | true => exact checked_iff h (writeRead_outcome dev devAddr tx.1 rxLen.toNat (h.calm bus))
  | readRegsDma devAddr reg buffer length callback =>
    obtain ⟨s, hne, hread⟩ :=
      readRegsDma_refused (t := t) h dev bus devAddr reg buffer length callback
    have hperform : Event.perform t ⟨bus, .readRegsDma devAddr reg buffer length callback, dev⟩ st =
        (s, st) := hread
    rw [LengthKept, eventStep, hperform]
    exact ⟨iff_of_true (moved_of_refused hne) trivial, h⟩
  | dmaSetBinding tx binding =>
    obtain ⟨hsteady, hhw⟩ := setBinding_steady h bus tx binding
    refine ⟨iff_of_true ?_ trivial, hsteady⟩
    change Moved st bus ([], 0) (halI2cDmaSetBinding bus tx binding st)
    rw [Moved, hhw]
    by_cases hok : (halI2cDmaSetBinding bus tx binding st).1 = .ok
    · exact Or.inr ⟨hok, (List.append_nil _).symm, rfl⟩
    · exact Or.inl ⟨hok, fun _ => rfl⟩

end Runs

theorem steady_reset : Steady {} :=
  ⟨fun _ => ⟨fun _ _ _ => rfl, 0, rfl⟩, fun _ _ => rfl⟩

/-- **In a run of calls with devices that acknowledge everything, every call fails before `START`
or moves exactly its bytes if and only if no transfer is longer than 255 bytes.** -/
theorem lengths_kept_iff (t : Tcm) (events : List Event) :
    Each (eventStep t) (LengthKept t) {} events ↔ ∀ ev ∈ events, ev.Fits := by
  have hiff : ∀ st ev, Steady st → (LengthKept t st ev ↔ ev.Fits) := fun st ev h =>
    (event_kept_iff h ev).1
  have hstep : ∀ st ev, Steady st → Steady (eventStep t st ev) := fun st ev h =>
    (event_kept_iff h ev).2
  have hsame : ∀ (_ : F7I2c) (ev : Event), ev.Fits ↔ ev.Fits := fun _ _ => Iff.rfl
  rw [Steps.each_congr hiff hstep events steady_reset]
  exact Steps.each_iff_forall hsame {} events

/-! ## A page that is cut short -/

/-- 300 bytes, with 44 in `NBYTES`. -/
def page : Bytes16 := ⟨List.replicate 300 0xA5, by rw [List.length_replicate]; omega⟩

/-- Every flag comes before the next poll. -/
def prompt : Willing := ⟨fun _ => 0, fun _ => ⟨[], 0, Nat.succ_pos _⟩⟩

theorem Outcome.times_out {hw hw' : I2cHw} {tx : List (BitVec 8)} {rx : Nat} {fits : Prop}
    {status : HalStatus} (h : Outcome hw tx rx fits status hw') (hnot : ¬ fits) :
    status = .errTimeout := by
  cases h with
  | refused hfits _ => exact absurd hfits hnot
  | moved hfits _ _ _ => exact absurd hfits hnot
  | short _ _ _ => rfl

theorem write_status (t : Tcm) (dev : Willing) (devAddr : BitVec 8) (data : Bytes16) (st : F7I2c)
    {bus : Nat} (hbus : bus < 3) :
    (Event.perform t ⟨bus, .write devAddr (some data), dev⟩ st).1 =
      (stm32f7I2cWrite dev.answers devAddr data.1 (st.hw bus)).1 := by
  simp [Event.perform, F7.perform, i2cBusValid, hbus]

/-- The device acknowledges everything, and the write times out. -/
theorem page_times_out :
    (Event.perform Dma.nucleoF767zi ⟨0, .write 0x50 (some page), prompt⟩ {}).1 = .errTimeout ∧
    ¬ LengthKept Dma.nucleoF767zi {} ⟨0, .write 0x50 (some page), prompt⟩ := by
  have hlong : ¬ page.1.length ≤ 255 := by
    rw [page, List.length_replicate]
    omega
  have houtcome := write_outcome prompt 0x50 page.1 (steady_reset.calm 0)
  refine ⟨?_, fun hkept => hlong ?_⟩
  · rw [write_status Dma.nucleoF767zi prompt 0x50 page {} (by decide)]
    exact houtcome.times_out hlong
  · exact (event_kept_iff steady_reset _).1.mp hkept (by decide)

end NavHAL.I2c.F7
