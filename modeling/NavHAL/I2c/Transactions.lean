import NavHAL.Dma.I2cRead

/-!
# Blocking I2C transactions of the STM32F7 (`i2c_f7.c`)

`NACKF` and `STOPF` stay set until they are cleared.  A call that fails leaves
the `STOPF` of its own transfer behind, and a later `hal_i2c_write` whose last
byte is refused then ends with `HAL_OK` (`i2c_results_own_iff`).
-/

namespace NavHAL.I2c

open Dma (I2cBus)
open Steps (run Each)

/-! ## The peripheral -/

/-- The flags of `ISR` that the driver polls. -/
inductive IsrFlag
  | txis
  | rxne
  | tc
  | nackf
  | stopf
  deriving DecidableEq, Repr

/-- `ISR`, the flags that the peripheral raises next without the driver, in
order, and the transfer under way.  What has crossed the bus so far is kept for
the statements: the `START`s, the data bytes sent, and how many were received. -/
structure I2cHw where
  isr : IsrFlag → Bool := fun _ => false
  upcoming : List IsrFlag := []
  left : Nat := 0
  autoend : Bool := false
  txdr : BitVec 8 := 0
  starts : Nat := 0
  sent : List (BitVec 8) := []
  received : Nat := 0

/-- The fields of `CR2` that a call writes, with `START`. -/
structure Cr2 where
  sadd7 : BitVec 8
  nbytes : BitVec 8
  rdWrn : Bool := false
  autoend : Bool := false

def I2cHw.clear (flag : IsrFlag) (hw : I2cHw) : I2cHw :=
  { hw with isr := fun f => f != flag && hw.isr f }

/-- The next `n` flags are raised. -/
def I2cHw.arrive (n : Nat) (hw : I2cHw) : I2cHw :=
  { hw with
    isr := fun f => hw.isr f || (hw.upcoming.take n).contains f
    upcoming := hw.upcoming.drop n }

/-- What follows a byte that the master sent, with `left` bytes to go: a NACK
ends the transfer with a `STOP`. -/
def sentFlags (left : Nat) (autoend ack : Bool) : List IsrFlag :=
  if ack then (if left = 0 then [if autoend then .stopf else .tc] else [.txis]) else [.nackf, .stopf]

/-- What the peripheral receives on its own, with `left` bytes to go. -/
def receivedFlags (left : Nat) (autoend : Bool) : List IsrFlag :=
  if left = 0 then [] else if left = 1 then [.rxne, if autoend then .stopf else .tc] else [.rxne]

/-- A write of `CR2`; `ack` is the answer to the address.  The transfer starts
when the one before it has ended; one of no bytes ends with its address. -/
def I2cHw.start (cr2 : Cr2) (ack : Bool) (hw : I2cHw) : I2cHw :=
  let left := cr2.nbytes.toNat
  { hw.clear .tc with
    left := left
    autoend := cr2.autoend
    starts := hw.starts + 1
    upcoming := hw.upcoming ++
      if cr2.rdWrn ∧ ack ∧ left ≠ 0 then receivedFlags left cr2.autoend
      else sentFlags left cr2.autoend ack }

/-- A write of `TXDR`; `ack` is the answer to the byte. -/
def I2cHw.writeTxdr (byte : BitVec 8) (ack : Bool) (hw : I2cHw) : I2cHw :=
  { hw.clear .txis with
    txdr := byte
    left := hw.left - 1
    sent := if hw.left = 0 then hw.sent else hw.sent ++ [byte]
    upcoming := hw.upcoming ++ sentFlags (hw.left - 1) hw.autoend ack }

/-- A read of `RXDR`. -/
def I2cHw.readRxdr (hw : I2cHw) : I2cHw :=
  { hw.clear .rxne with
    left := hw.left - 1
    received := if hw.left = 0 then hw.received else hw.received + 1
    upcoming := hw.upcoming ++ receivedFlags (hw.left - 1) hw.autoend }

/-! ## Waiting -/

/-- `I2C_SPIN` -/
def i2cSpin : Nat := 100000

/-- How many flags come before each poll of a wait; before the poll after the
listed ones, which is within the budget, all that are left come.  `after` of
them come between the wait and the driver's next access. -/
structure Arrivals where
  polls : List Nat
  after : Nat
  within : polls.length < i2cSpin

/-- `_wait_isr` -/
def waitIsr (flag : IsrFlag) : Nat → List Nat → I2cHw → HalStatus × I2cHw
  | 0, _, hw => (.errTimeout, hw)
  | spin + 1, polls, hw =>
    let hw := hw.arrive (polls.head?.getD hw.upcoming.length)
    if hw.isr flag then (.ok, hw)
    else if hw.isr .nackf then (.errIo, hw.clear .nackf)
    else waitIsr flag spin polls.tail hw

def waitFor (flag : IsrFlag) (arr : Arrivals) (hw : I2cHw) : HalStatus × I2cHw :=
  let result := waitIsr flag i2cSpin arr.polls hw
  (result.1, result.2.arrive arr.after)

/-! ## The driver -/

/-- The devices on the bus during a call, and when its flags come. -/
structure Answers where
  /-- The ACK of the address, and of the repeated one. -/
  ackAddr : Bool
  ackAgain : Bool
  /-- The ACK of each data byte. -/
  ackByte : Nat → Bool
  rx : Nat → BitVec 8
  /-- One for each wait of the call. -/
  timing : Nat → Arrivals

section Driver

variable (env : Answers)

/-- The loop that fills `TXDR`, from byte `i` on. -/
def sendBytes : Nat → List (BitVec 8) → I2cHw → HalStatus × I2cHw
  | _, [], hw => (.ok, hw)
  | i, b :: bs, hw =>
    match waitFor .txis (env.timing i) hw with
    | (.ok, hw) => sendBytes (i + 1) bs (hw.writeTxdr b (env.ackByte i))
    | (s, hw) => (s, hw)

/-- The loop that empties `RXDR`: `n` bytes, the first one being byte `i`, from
the wait `w` on. -/
def recvBytes : Nat → Nat → Nat → I2cHw → HalStatus × List (BitVec 8) × I2cHw
  | 0, _, _, hw => (.ok, [], hw)
  | n + 1, i, w, hw =>
    match waitFor .rxne (env.timing w) hw with
    | (.ok, hw) =>
      let rest := recvBytes n (i + 1) (w + 1) hw.readRxdr
      (rest.1, env.rx i :: rest.2.1, rest.2.2)
    | (s, hw) => (s, [], hw)

/-- `STOPF` is waited for and cleared, whatever the wait says. -/
def finish (w : Nat) (hw : I2cHw) : HalStatus × I2cHw :=
  let result := waitFor .stopf (env.timing w) hw
  (result.1, result.2.clear .stopf)

/-- `stm32f7_i2c_write` -/
def stm32f7I2cWrite (devAddr : BitVec 8) (data : List (BitVec 8)) (hw : I2cHw) :
    HalStatus × I2cHw :=
  if data.length = 0 then (.errIo, hw)
  else
    let hw := hw.start ⟨devAddr, BitVec.ofNat 8 data.length, false, true⟩ env.ackAddr
    match sendBytes env 0 data hw with
    | (.ok, hw) => finish env data.length hw
    | (s, hw) => (s, hw)

/-- `stm32f7_i2c_read`, with the bytes stored. -/
def stm32f7I2cRead (devAddr : BitVec 8) (len : Nat) (hw : I2cHw) :
    HalStatus × List (BitVec 8) × I2cHw :=
  if len = 0 then (.errIo, [], hw)
  else
    let hw := hw.start ⟨devAddr, BitVec.ofNat 8 len, true, true⟩ env.ackAddr
    match recvBytes env len 0 0 hw with
    | (.ok, data, hw) =>
      let result := finish env len hw
      (result.1, data, result.2)
    | (s, data, hw) => (s, data, hw)

/-- `stm32f7_i2c_write_read`; its first transfer has no `AUTOEND`. -/
def stm32f7I2cWriteRead (devAddr : BitVec 8) (tx : List (BitVec 8)) (rxLen : Nat) (hw : I2cHw) :
    HalStatus × List (BitVec 8) × I2cHw :=
  if tx.length = 0 ∨ rxLen = 0 then (.errIo, [], hw)
  else
    let hw := hw.start ⟨devAddr, BitVec.ofNat 8 tx.length, false, false⟩ env.ackAddr
    match sendBytes env 0 tx hw with
    | (.ok, hw) =>
      match waitFor .tc (env.timing tx.length) hw with
      | (.ok, hw) =>
        let hw := hw.start ⟨devAddr, BitVec.ofNat 8 rxLen, true, true⟩ env.ackAgain
        match recvBytes env rxLen 0 (tx.length + 1) hw with
        | (.ok, data, hw) =>
          let result := finish env (tx.length + 1 + rxLen) hw
          (result.1, data, result.2)
        | (s, data, hw) => (s, data, hw)
      | (s, hw) => (s, [], hw)
    | (s, hw) => (s, [], hw)

end Driver

/-! ## Waits -/

section Waits

variable {hw : I2cHw} {flag : IsrFlag} {up next : List IsrFlag} {stopped : Bool}

theorem arrive_arrive (j k : Nat) (hw : I2cHw) : (hw.arrive j).arrive k = hw.arrive (j + k) := by
  simp [I2cHw.arrive, List.take_add, Bool.or_assoc]

theorem arrive_all {k : Nat} (h : hw.upcoming.length ≤ k) :
    hw.arrive k = hw.arrive hw.upcoming.length := by
  simp [I2cHw.arrive, List.take_of_length_le h, List.drop_of_length_le h]

/-- The poll ends the wait. -/
def seen (flag : IsrFlag) (hw : I2cHw) : Bool := hw.isr flag || hw.isr .nackf

/-- What a wait does in the poll that ends it. -/
def lastPoll (flag : IsrFlag) (hw : I2cHw) : HalStatus × I2cHw :=
  if hw.isr flag then (.ok, hw) else (.errIo, hw.clear .nackf)

theorem waitIsr_succ (spin : Nat) (polls : List Nat) (hw : I2cHw) :
    waitIsr flag (spin + 1) polls hw =
      let hw' := hw.arrive (polls.head?.getD hw.upcoming.length)
      if seen flag hw' then lastPoll flag hw' else waitIsr flag spin polls.tail hw' := by
  rw [waitIsr]
  simp only [seen, lastPoll, Bool.or_eq_true]
  split
  · rename_i h
    rw [if_pos (.inl h)]
  · rename_i h
    split
    · rename_i hn
      rw [if_pos (.inr hn)]
    · rename_i hn
      rw [if_neg (not_or.mpr ⟨h, hn⟩)]

/-- A wait that some flag ends, within the budget. -/
theorem waitIsr_seen (polls : List Nat) (spin : Nat) (hlen : polls.length < spin) (hw : I2cHw)
    (hall : seen flag (hw.arrive hw.upcoming.length) = true) :
    ∃ k, seen flag (hw.arrive k) = true ∧
      waitIsr flag spin polls hw = lastPoll flag (hw.arrive k) := by
  obtain ⟨spin, rfl⟩ : ∃ n, spin = n + 1 := ⟨spin - 1, by omega⟩
  induction polls generalizing spin hw with
  | nil =>
    refine ⟨hw.upcoming.length, hall, ?_⟩
    rw [waitIsr_succ]
    exact if_pos hall
  | cons n polls ih =>
    rw [waitIsr_succ]
    by_cases hseen : seen flag (hw.arrive n) = true
    · exact ⟨n, hseen, if_pos hseen⟩
    · obtain ⟨spin, rfl⟩ : ∃ m, spin = m + 1 := ⟨spin - 1, by
        simp only [List.length_cons] at hlen
        omega⟩
      have hrest : seen flag ((hw.arrive n).arrive (hw.arrive n).upcoming.length) = true := by
        rw [arrive_arrive, arrive_all (by simp only [I2cHw.arrive, List.length_drop]; omega)]
        exact hall
      obtain ⟨k, hk, hwait⟩ := ih (hw.arrive n) hrest spin (Nat.lt_of_succ_lt_succ hlen)
      rw [arrive_arrive] at hk hwait
      exact ⟨n + k, hk, (if_neg hseen).trans hwait⟩

/-- The flags `up` are raised, and `next` will be after what is left of earlier
transfers, of which only `STOPF` can be; `stopped` tells whether one of these
is up or to come. -/
structure Expecting (up next : List IsrFlag) (stopped : Bool) (hw : I2cHw) : Prop where
  isr : ∀ f, f ≠ .stopf → hw.isr f = up.contains f
  upcoming : ∃ n, hw.upcoming = List.replicate n .stopf ++ next ∧
    stopped = (hw.isr .stopf || n != 0)

/-- Between calls no flag but `STOPF` is set, or will be. -/
def Quiet (hw : I2cHw) : Prop := ∃ stopped, Expecting [] [] stopped hw

theorem contains_replicate_stopf {f : IsrFlag} (h : f ≠ .stopf) (n : Nat) :
    (List.replicate n IsrFlag.stopf).contains f = false := by
  rw [List.contains_replicate]
  simp [h]

/-- What is left of earlier transfers arrives. -/
theorem Expecting.arrive (h : Expecting up [] stopped hw) (k : Nat) :
    Expecting up [] stopped (hw.arrive k) := by
  obtain ⟨n, hup, hstopped⟩ := h.upcoming
  rw [List.append_nil] at hup
  refine ⟨fun f hf => ?_, n - k, ?_, ?_⟩
  · simp only [I2cHw.arrive, hup, List.take_replicate, contains_replicate_stopf hf, Bool.or_false]
    exact h.isr f hf
  · simp [I2cHw.arrive, hup]
  · rw [hstopped]
    simp only [I2cHw.arrive, hup, List.take_replicate, List.contains_replicate]
    cases hw.isr .stopf with
    | true => simp
    | false => grind

/-- Nothing but `STOPF` is up before the next flag is. -/
theorem Expecting.next_flag {m : Nat} (hflag : flag ≠ .stopf)
    (h : Expecting [] (flag :: List.replicate m .stopf) stopped hw) :
    ∃ n, (∀ k ≤ n, ∀ f, f ≠ .stopf → (hw.arrive k).isr f = false) ∧ n < hw.upcoming.length ∧
      Expecting [flag] [] (stopped || m != 0) (hw.arrive (n + 1)) := by
  obtain ⟨n, hup, hstopped⟩ := h.upcoming
  have htake : hw.upcoming.take (n + 1) = List.replicate n .stopf ++ [flag] := by
    rw [hup, List.take_append, List.take_of_length_le (by simp)]
    simp
  have hdrop : hw.upcoming.drop (n + 1) = List.replicate m .stopf := by
    rw [hup, List.drop_append, List.drop_of_length_le (by simp)]
    simp
  refine ⟨n, fun k hk f hf => ?_, ?_, fun f hf => ?_, m, ?_, ?_⟩
  · simp only [I2cHw.arrive, hup, h.isr f hf]
    rw [List.take_append_of_le_length (by simpa using hk), List.take_replicate,
      contains_replicate_stopf hf]
    rfl
  · simp [hup]
  · simp only [I2cHw.arrive, htake, h.isr f hf, List.contains_append, contains_replicate_stopf hf]
    rfl
  · simp [I2cHw.arrive, hdrop]
  · simp only [I2cHw.arrive, htake, List.contains_append, List.contains_replicate, hstopped]
    simp [hflag.symm, bne]

theorem Expecting.clear_self (hflag : flag ≠ .stopf) (h : Expecting [flag] next stopped hw) :
    Expecting [] next stopped (hw.clear flag) := by
  obtain ⟨n, hup, hstopped⟩ := h.upcoming
  refine ⟨fun f hf => ?_, n, hup, ?_⟩
  · simp [I2cHw.clear, h.isr f hf]
  · simp [I2cHw.clear, hstopped, bne_iff_ne.mpr hflag.symm]

/-- A wait that the next flag ends. -/
theorem Expecting.waits {m : Nat} {awaited : IsrFlag} (arr : Arrivals) (hawaited : awaited ≠ .stopf)
    (hflag : flag ≠ .stopf) (hends : flag = awaited ∨ flag = .nackf)
    (h : Expecting [] (flag :: List.replicate m .stopf) stopped hw) :
    ∃ hw', Expecting [flag] [] (stopped || m != 0) hw' ∧
      waitIsr awaited i2cSpin arr.polls hw = lastPoll awaited hw' := by
  obtain ⟨n, hbefore, hlen, hnext⟩ := h.next_flag hflag
  have hsees : ∀ {hw'}, Expecting [flag] [] (stopped || m != 0) hw' → seen awaited hw' = true := by
    intro hw' h'
    rcases hends with rfl | rfl
    · simp [seen, h'.isr _ hflag]
    · simp [seen, h'.isr _ hflag]
  have hafter : ∀ k, n < k → Expecting [flag] [] (stopped || m != 0) (hw.arrive k) := by
    intro k hk
    have harrive := hnext.arrive (k - (n + 1))
    rwa [arrive_arrive, Nat.add_sub_cancel' hk] at harrive
  obtain ⟨k, hk, hwait⟩ := waitIsr_seen arr.polls i2cSpin arr.within hw (hsees (hafter _ hlen))
  have hlt : n < k := by
    refine Nat.lt_of_not_le fun hle => ?_
    simp [seen, hbefore k hle awaited hawaited, hbefore k hle .nackf (by decide)] at hk
  exact ⟨hw.arrive k, hafter k hlt, hwait⟩

/-- The flag that the driver waits for. -/
theorem Expecting.wait_ok {m : Nat} (arr : Arrivals) (hflag : flag ≠ .stopf)
    (h : Expecting [] (flag :: List.replicate m .stopf) stopped hw) :
    ∃ hw', waitFor flag arr hw = (.ok, hw') ∧ Expecting [flag] [] (stopped || m != 0) hw' := by
  obtain ⟨hw', h', hwait⟩ := h.waits arr hflag hflag (.inl rfl)
  refine ⟨hw'.arrive arr.after, ?_, h'.arrive _⟩
  rw [waitFor, hwait, lastPoll, if_pos (by simp [h'.isr _ hflag])]

/-- A NACK, while the driver waits for something else. -/
theorem Expecting.wait_nack (flag : IsrFlag) (arr : Arrivals) (hflag : flag ≠ .stopf) (hnack : flag ≠ .nackf)
    (h : Expecting [] [.nackf, .stopf] stopped hw) :
    ∃ hw', waitFor flag arr hw = (.errIo, hw') ∧ Expecting [] [] true hw' := by
  have hnext : Expecting [] (.nackf :: List.replicate 1 .stopf) stopped hw := h
  obtain ⟨hw', h', hwait⟩ := hnext.waits arr hflag (by decide) (.inr rfl)
  refine ⟨(hw'.clear .nackf).arrive arr.after, ?_, ?_⟩
  · rw [waitFor, hwait, lastPoll, if_neg (by simp [h'.isr _ hflag, hnack])]
  · have hclear := h'.clear_self (by decide)
    rw [show (stopped || 1 != 0) = true by simp] at hclear
    exact hclear.arrive _

/-- The end of a transfer without a NACK. -/
theorem Expecting.wait_stop (arr : Arrivals) (h : Expecting [] [] true hw) :
    ∃ hw', waitFor .stopf arr hw = (.ok, hw') ∧ Expecting [] [] true hw' := by
  have hall : seen .stopf (hw.arrive hw.upcoming.length) = true := by
    obtain ⟨n, hup, hstopped⟩ := (h.arrive hw.upcoming.length).upcoming
    have hn : 0 = n := by simpa [I2cHw.arrive] using congrArg List.length hup
    subst hn
    simp only [bne_self_eq_false, Bool.or_false] at hstopped
    rw [seen, ← hstopped, Bool.true_or]
  obtain ⟨k, hk, hwait⟩ := waitIsr_seen arr.polls i2cSpin arr.within hw hall
  have harrive := h.arrive k
  have hstop : (hw.arrive k).isr .stopf = true := by
    rw [seen, harrive.isr .nackf (by decide)] at hk
    simpa using hk
  refine ⟨(hw.arrive k).arrive arr.after, ?_, harrive.arrive _⟩
  rw [waitFor, hwait, lastPoll, if_pos hstop]

theorem Expecting.clear_stop (h : Expecting [] [] stopped hw) :
    Quiet (hw.clear .stopf) := by
  obtain ⟨n, hup, -⟩ := h.upcoming
  refine ⟨_, fun f hf => ?_, n, hup, rfl⟩
  simp [I2cHw.clear, h.isr f hf]

/-! ### A NACK on the last byte -/

/-- A poll of the wait falls between `NACKF` and its `STOPF`. -/
def NackFirst (polls : List Nat) : Prop := polls.find? (0 < ·) = some 1

instance (polls : List Nat) : Decidable (NackFirst polls) :=
  inferInstanceAs (Decidable (_ = _))

/-- `STOPF` of an earlier transfer hides the NACK. -/
theorem Expecting.wait_stopped (arr : Arrivals) (h : Expecting [] [.nackf, .stopf] true hw) :
    (waitFor .stopf arr hw).1 = .ok := by
  obtain ⟨n, hup, hstopped⟩ := h.upcoming
  have hall : seen .stopf (hw.arrive hw.upcoming.length) = true := by
    simp only [seen, I2cHw.arrive, List.take_length, hup]
    simp
  obtain ⟨k, hk, hwait⟩ := waitIsr_seen arr.polls i2cSpin arr.within hw hall
  have hstop : (hw.arrive k).isr .stopf = true := by
    by_cases hup0 : hw.isr .stopf = true
    · simp [I2cHw.arrive, hup0]
    · -- the one to come is the first to arrive
      have hisr : ∀ f, hw.isr f = false := fun f => by
        by_cases hf : f = .stopf
        · rw [hf]
          exact Bool.eq_false_iff.mpr hup0
        · exact h.isr f hf
      obtain ⟨n, rfl⟩ : ∃ j, n = j + 1 := ⟨n - 1, by simp [hup0] at hstopped; omega⟩
      cases k with
      | zero => simp [seen, I2cHw.arrive, hisr] at hk
      | succ k => simp [I2cHw.arrive, hup, List.replicate_succ]
  rw [waitFor, hwait, lastPoll, if_pos hstop]

/-- The poll that sees something. -/
theorem Expecting.wait_fresh (polls : List Nat) (spin : Nat) (hlen : polls.length < spin)
    (h : Expecting [] [.nackf, .stopf] false hw) :
    waitIsr .stopf spin polls hw =
      lastPoll .stopf (hw.arrive ((polls.find? (0 < ·)).getD 2)) := by
  obtain ⟨n, hup, hstopped⟩ := h.upcoming
  simp only [Bool.false_eq, Bool.or_eq_false_iff, bne_eq_false_iff_eq] at hstopped
  obtain ⟨hstop, rfl⟩ := hstopped
  obtain ⟨spin, rfl⟩ : ∃ n, spin = n + 1 := ⟨spin - 1, by omega⟩
  induction polls generalizing spin with
  | nil =>
    rw [waitIsr_succ]
    simp [hup, seen, I2cHw.arrive]
  | cons n polls ih =>
    rw [waitIsr_succ]
    cases n with
    | zero =>
      have hzero : hw.arrive 0 = hw := by simp [I2cHw.arrive]
      have hblind : seen .stopf (hw.arrive 0) = false := by
        simp [seen, hzero, hstop, h.isr .nackf]
      obtain ⟨spin, rfl⟩ : ∃ m, spin = m + 1 := ⟨spin - 1, by
        simp only [List.length_cons] at hlen
        omega⟩
      have hrest := ih spin (Nat.lt_of_succ_lt_succ hlen)
      simp only [List.head?_cons, Option.getD_some, hblind]
      simpa [hzero] using hrest
    | succ n =>
      have hnow : seen .stopf (hw.arrive (n + 1)) = true := by
        simp [seen, I2cHw.arrive, hup]
      simp [hnow]

/-- A NACK on the last byte is reported exactly when a poll tells it from the `STOP`. -/
theorem Expecting.wait_last (arr : Arrivals) (h : Expecting [] [.nackf, .stopf] stopped hw) :
    ((waitFor .stopf arr hw).1 = .ok ↔ ¬ (stopped = false ∧ NackFirst arr.polls)) ∧
    ((waitFor .stopf arr hw).1 ≠ .ok → Expecting [] [] true (waitFor .stopf arr hw).2) := by
  cases stopped with
  | true =>
    have hok := h.wait_stopped arr
    exact ⟨iff_of_true hok (by simp), fun hne => absurd hok hne⟩
  | false =>
    have hwait := h.wait_fresh arr.polls i2cSpin arr.within
    obtain ⟨n, hup, hstopped⟩ := h.upcoming
    simp only [Bool.false_eq, Bool.or_eq_false_iff, bne_eq_false_iff_eq] at hstopped
    obtain ⟨hstop, rfl⟩ := hstopped
    by_cases hfirst : NackFirst arr.polls
    · have hone : Expecting [.nackf] [] true (hw.arrive 1) := by
        refine ⟨fun f hf => ?_, 1, ?_, ?_⟩
        · simp [I2cHw.arrive, hup, h.isr f hf]
        · simp [I2cHw.arrive, hup]
        · simp
      have hlast : waitFor .stopf arr hw =
          (.errIo, ((hw.arrive 1).clear .nackf).arrive arr.after) := by
        rw [waitFor, hwait, hfirst, Option.getD_some, lastPoll,
          if_neg (by simp [I2cHw.arrive, hup, hstop])]
      rw [hlast]
      refine ⟨iff_of_false nofun (fun hne => hne ⟨rfl, hfirst⟩), fun _ => ?_⟩
      exact (hone.clear_self (by decide)).arrive _
    · have htwo : ∃ k, (arr.polls.find? (0 < ·)).getD 2 = k + 2 := by
        cases hfind : arr.polls.find? (0 < ·) with
        | none => exact ⟨0, rfl⟩
        | some k =>
          have hpos := List.find?_some hfind
          have hne : k ≠ 1 := by
            rintro rfl
            exact hfirst hfind
          simp only [decide_eq_true_eq] at hpos
          exact ⟨k - 2, by rw [Option.getD_some]; omega⟩
      obtain ⟨k, hk⟩ := htwo
      have hok : (waitFor .stopf arr hw).1 = .ok := by
        rw [waitFor, hwait, hk, lastPoll, if_pos]
        simp [I2cHw.arrive, hup]
      exact ⟨iff_of_true hok (fun hand => hfirst hand.2), fun hne => absurd hok hne⟩

/-- More flags are to come; the rest of the state does not matter. -/
theorem Expecting.append (h : Expecting up [] stopped hw) {hw' : I2cHw} (hisr : hw'.isr = hw.isr)
    (hcome : hw'.upcoming = hw.upcoming ++ next) : Expecting up next stopped hw' := by
  obtain ⟨n, hup, hstopped⟩ := h.upcoming
  rw [List.append_nil] at hup
  exact ⟨hisr ▸ h.isr, n, by rw [hcome, hup], hisr ▸ hstopped⟩

theorem Expecting.clear_none (hflag : flag ≠ .stopf) (h : Expecting [] next stopped hw) :
    Expecting [] next stopped (hw.clear flag) := by
  obtain ⟨n, hup, hstopped⟩ := h.upcoming
  refine ⟨fun f hf => ?_, n, hup, ?_⟩
  · simp [I2cHw.clear, h.isr f hf]
  · simp [I2cHw.clear, hstopped, bne_iff_ne.mpr hflag.symm]

end Waits

/-! ## The loops of a call -/

section Loops

variable {env : Answers} {hw : I2cHw} {stopped : Bool}

/-- Bytes sent until one of them, or the address, is refused; the answer to the
last byte is still to come. -/
inductive SendOutcome (acked : Prop) (last : List IsrFlag) (stopped : Bool) :
    HalStatus × I2cHw → Prop
  | sent {hw' : I2cHw} (hacked : acked) (hw : Expecting [] last stopped hw') :
      SendOutcome acked last stopped (.ok, hw')
  | refused {hw' : I2cHw} (hacked : ¬ acked) (hw : Expecting [] [] true hw') :
      SendOutcome acked last stopped (.errIo, hw')

theorem SendOutcome.congr {acked acked' : Prop} {last : List IsrFlag} {result : HalStatus × I2cHw}
    (hiff : acked ↔ acked') (h : SendOutcome acked last stopped result) :
    SendOutcome acked' last stopped result := by
  cases h with
  | sent hacked hw => exact .sent (hiff.mp hacked) hw
  | refused hacked hw => exact .refused (fun h => hacked (hiff.mpr h)) hw

theorem waitIsr_transfer (flag : IsrFlag) (spin : Nat) (polls : List Nat) (hw : I2cHw) :
    (waitIsr flag spin polls hw).2.left = hw.left ∧
    (waitIsr flag spin polls hw).2.autoend = hw.autoend := by
  induction spin generalizing polls hw with
  | zero => exact ⟨rfl, rfl⟩
  | succ spin ih =>
    rw [waitIsr]
    split
    · exact ⟨rfl, rfl⟩
    · split
      · exact ⟨rfl, rfl⟩
      · exact ih _ _

theorem waitFor_transfer {flag : IsrFlag} {arr : Arrivals} {status : HalStatus} {hw' : I2cHw}
    (h : waitFor flag arr hw = (status, hw')) :
    hw'.left = hw.left ∧ hw'.autoend = hw.autoend := by
  have htransfer := waitIsr_transfer flag i2cSpin arr.polls hw
  obtain rfl : _ = hw' := congrArg Prod.snd h
  exact htransfer

/-- One round of the loop that sends, the byte before it having been taken. -/
theorem send_round (env : Answers) (i n : Nat) (b : BitVec 8) (hleft : hw.left = n + 1)
    (h : Expecting [] [.txis] stopped hw) :
    ∃ hw', waitFor .txis (env.timing i) hw = (.ok, hw') ∧
      (hw'.writeTxdr b (env.ackByte i)).left = n ∧
      (hw'.writeTxdr b (env.ackByte i)).autoend = hw.autoend ∧
      Expecting [] (sentFlags n hw.autoend (env.ackByte i)) stopped
        (hw'.writeTxdr b (env.ackByte i)) := by
  have hnext : Expecting [] (.txis :: List.replicate 0 .stopf) stopped hw := h
  obtain ⟨hw', hwait, hup⟩ := hnext.wait_ok (env.timing i) (by decide)
  obtain ⟨hleft', hauto'⟩ := waitFor_transfer hwait
  rw [hleft] at hleft'
  refine ⟨hw', hwait, by simp [I2cHw.writeTxdr, hleft'], hauto', ?_⟩
  have hclear : Expecting [] [] stopped (hw'.clear .txis) := by
    simpa using hup.clear_self (by decide)
  refine hclear.append rfl ?_
  simp [I2cHw.writeTxdr, I2cHw.clear, hleft', hauto']

theorem sendBytes_outcome (env : Answers) (bs : List (BitVec 8)) (b : BitVec 8) (i : Nat) (ack : Bool)
    (hleft : hw.left = bs.length + 1)
    (h : Expecting [] (sentFlags (bs.length + 1) hw.autoend ack) stopped hw) :
    SendOutcome (ack = true ∧ ∀ k < bs.length, env.ackByte (i + k) = true)
      (sentFlags 0 hw.autoend (env.ackByte (i + bs.length))) stopped
      (sendBytes env i (b :: bs) hw) := by
  induction bs generalizing b i hw ack with
  | nil =>
    cases ack with
    | false =>
      obtain ⟨hw', hwait, hquiet⟩ := h.wait_nack .txis (env.timing i) (by decide) (by decide)
      simp only [sendBytes, hwait]
      exact .refused nofun hquiet
    | true =>
      obtain ⟨hw', hwait, -, -, hsent⟩ := send_round env i 0 b hleft h
      simp only [sendBytes, hwait]
      exact .sent ⟨trivial, nofun⟩ hsent
  | cons c bs ih =>
    cases ack with
    | false =>
      obtain ⟨hw', hwait, hquiet⟩ := h.wait_nack .txis (env.timing i) (by decide) (by decide)
      simp only [sendBytes, hwait]
      exact .refused nofun hquiet
    | true =>
      obtain ⟨hw', hwait, hleft', hauto', hsent⟩ := send_round env i (bs.length + 1) b hleft h
      have hrest := ih c (i + 1) (env.ackByte i) hleft' (hauto' ▸ hsent)
      rw [hauto'] at hrest
      rw [sendBytes, hwait]
      rw [List.length_cons, ← Nat.add_assoc, Nat.add_right_comm]
      refine hrest.congr ⟨fun hacks => ⟨rfl, fun k hk => ?_⟩, fun hacks => ⟨?_, fun k hk => ?_⟩⟩
      · cases k with
        | zero => exact hacks.1
        | succ k =>
          rw [← Nat.add_assoc, Nat.add_right_comm]
          exact hacks.2 k (Nat.lt_of_succ_lt_succ hk)
      · exact hacks.2 0 (Nat.succ_pos _)
      · rw [Nat.add_right_comm, Nat.add_assoc]
        exact hacks.2 (k + 1) (Nat.succ_lt_succ hk)

/-- One round of the loop that receives; on the last one `STOPF` is to come too. -/
theorem recv_round (env : Answers) (w n m : Nat) (hleft : hw.left = n + 1)
    (hauto : hw.autoend = true)
    (h : Expecting [] (.rxne :: List.replicate m .stopf) stopped hw) :
    ∃ hw', waitFor .rxne (env.timing w) hw = (.ok, hw') ∧ hw'.readRxdr.left = n ∧
      hw'.readRxdr.autoend = true ∧
      Expecting [] (receivedFlags n true) (stopped || m != 0) hw'.readRxdr := by
  obtain ⟨hw', hwait, hup⟩ := h.wait_ok (env.timing w) (by decide)
  obtain ⟨hleft', hauto'⟩ := waitFor_transfer hwait
  rw [hleft] at hleft'
  rw [hauto] at hauto'
  refine ⟨hw', hwait, by simp [I2cHw.readRxdr, hleft'], hauto', ?_⟩
  have hclear : Expecting [] [] (stopped || m != 0) (hw'.clear .rxne) :=
    hup.clear_self (by decide)
  refine hclear.append rfl ?_
  simp [I2cHw.readRxdr, I2cHw.clear, hleft', hauto']

theorem recvBytes_ok (env : Answers) (n i w : Nat) (hleft : hw.left = n + 1)
    (hauto : hw.autoend = true) (h : Expecting [] (receivedFlags (n + 1) true) stopped hw) :
    ∃ hw', recvBytes env (n + 1) i w hw = (.ok, (List.range' i (n + 1)).map env.rx, hw') ∧
      Expecting [] [] true hw' := by
  induction n generalizing i w hw stopped with
  | zero =>
    obtain ⟨hw', hwait, -, -, hread⟩ := recv_round env w 0 1 hleft hauto h
    refine ⟨hw'.readRxdr, by simp [recvBytes, hwait], ?_⟩
    simpa [receivedFlags] using hread
  | succ n ih =>
    obtain ⟨hw', hwait, hleft', hauto', hread⟩ := recv_round env w (n + 1) 0 hleft hauto h
    obtain ⟨hw'', hrest, hquiet⟩ := ih (i + 1) (w + 1) hleft' hauto' hread
    refine ⟨hw'', ?_, hquiet⟩
    rw [recvBytes, hwait]
    dsimp only
    rw [hrest]
    rfl

theorem recvBytes_nacked (env : Answers) (n i w : Nat)
    (h : Expecting [] [.nackf, .stopf] stopped hw) :
    ∃ hw', recvBytes env (n + 1) i w hw = (.errIo, [], hw') ∧ Expecting [] [] true hw' := by
  obtain ⟨hw', hwait, hquiet⟩ := h.wait_nack .rxne (env.timing w) (by decide) (by decide)
  exact ⟨hw', by rw [recvBytes, hwait], hquiet⟩

/-- The flags that follow a `START`. -/
theorem Expecting.start {up : List IsrFlag} (cr2 : Cr2) (ack : Bool) (hup : up = [] ∨ up = [.tc])
    (h : Expecting up [] stopped hw) :
    Expecting [] (if cr2.rdWrn ∧ ack ∧ cr2.nbytes.toNat ≠ 0 then
        receivedFlags cr2.nbytes.toNat cr2.autoend
      else sentFlags cr2.nbytes.toNat cr2.autoend ack) stopped (hw.start cr2 ack) := by
  have hclear : Expecting [] [] stopped (hw.clear .tc) := by
    rcases hup with rfl | rfl
    · exact h.clear_none (by decide)
    · exact h.clear_self (by decide)
  exact hclear.append rfl rfl

/-- The `STOP` of a transfer is to come. -/
theorem Expecting.of_stop (h : Expecting [] [.stopf] stopped hw) : Expecting [] [] true hw := by
  obtain ⟨n, hup, -⟩ := h.upcoming
  refine ⟨h.isr, n + 1, ?_, by simp⟩
  rw [hup, List.append_nil, List.replicate_succ']

/-- The end of a call whose transfer ends without a NACK. -/
theorem finish_ok (env : Answers) (w : Nat) (h : Expecting [] [] true hw) :
    ∃ hw', finish env w hw = (.ok, hw') ∧ Quiet hw' := by
  obtain ⟨hw', hwait, hquiet⟩ := h.wait_stop (env.timing w)
  exact ⟨hw'.clear .stopf, by rw [finish, hwait], hquiet.clear_stop⟩

/-- The end of a call whose last byte is refused. -/
theorem finish_refused (env : Answers) (w : Nat) (h : Expecting [] [.nackf, .stopf] stopped hw) :
    ((finish env w hw).1 = .ok ↔ ¬ (stopped = false ∧ NackFirst (env.timing w).polls)) ∧
    ((finish env w hw).1 ≠ .ok → Quiet (finish env w hw).2) := by
  obtain ⟨hok, hquiet⟩ := h.wait_last (env.timing w)
  exact ⟨hok, fun hne => (hquiet hne).clear_stop⟩

end Loops

/-! ## Runs -/

/-- A buffer of a length that `NBYTES` holds. -/
abbrev Payload := { bytes : List (BitVec 8) // 1 ≤ bytes.length ∧ bytes.length ≤ 255 }

abbrev Length := { n : Nat // 1 ≤ n ∧ n ≤ 255 }

inductive Transaction
  | write (data : Payload)
  | read (len : Length)
  | writeRead (tx : Payload) (rxLen : Length)

/-- A call, and how the devices answer to it. -/
structure Call where
  bus : I2cBus
  devAddr : BitVec 8
  transaction : Transaction
  env : Answers

def Call.perform (call : Call) (hw : I2cHw) : HalStatus × I2cHw :=
  match call.transaction with
  | .write data => stm32f7I2cWrite call.env call.devAddr data.1 hw
  | .read len =>
    let result := stm32f7I2cRead call.env call.devAddr len.1 hw
    (result.1, result.2.2)
  | .writeRead tx rxLen =>
    let result := stm32f7I2cWriteRead call.env call.devAddr tx.1 rxLen.1 hw
    (result.1, result.2.2)

def callStep (st : I2cBus → I2cHw) (call : Call) : I2cBus → I2cHw :=
  fun bus => if bus = call.bus then (call.perform (st bus)).2 else st bus

/-- Every address phase and every data byte that the master sends is acknowledged. -/
def Call.AllAcked (call : Call) : Prop :=
  match call.transaction with
  | .write data => call.env.ackAddr = true ∧ ∀ k < data.1.length, call.env.ackByte k = true
  | .read _ => call.env.ackAddr = true
  | .writeRead tx _ =>
    call.env.ackAddr = true ∧ (∀ k < tx.1.length, call.env.ackByte k = true) ∧
      call.env.ackAgain = true

/-- The result of a call tells what the device answered in this call. -/
def ResultOwn (st : I2cBus → I2cHw) (call : Call) : Prop :=
  (call.perform (st call.bus)).1 = .ok ↔ call.AllAcked

/-- The last byte of a write is the first thing that is refused. -/
def LastRefused (env : Answers) (n : Nat) : Prop :=
  env.ackAddr = true ∧ (∀ k < n - 1, env.ackByte k = true) ∧ env.ackByte (n - 1) = false

/-- No `STOPF` of an earlier transfer is set, or about to be. -/
def NoStopLeft (hw : I2cHw) : Prop := hw.isr .stopf = false ∧ hw.upcoming = []

/-- A write whose last byte is refused finds no `STOPF` left over, and polls
between `NACKF` and its own. -/
def LastNackSeen (st : I2cBus → I2cHw) (call : Call) : Prop :=
  match call.transaction with
  | .write data => LastRefused call.env data.1.length →
    NoStopLeft (st call.bus) ∧ NackFirst (call.env.timing data.1.length).polls
  | _ => True

theorem Expecting.noStopLeft_iff {hw : I2cHw} {stopped : Bool} (h : Expecting [] [] stopped hw) :
    stopped = false ↔ NoStopLeft hw := by
  obtain ⟨n, hup, hstopped⟩ := h.upcoming
  rw [hstopped, NoStopLeft, hup]
  simp

section Calls

variable {hw : I2cHw} (env : Answers) (devAddr : BitVec 8)

/-- A write transfer from its `START` on. -/
theorem send_started (b : BitVec 8) (bs : List (BitVec 8)) (autoend : Bool) {stopped : Bool}
    (hle : (b :: bs).length ≤ 255) (h : Expecting [] [] stopped hw) :
    SendOutcome (env.ackAddr = true ∧ ∀ k < bs.length, env.ackByte k = true)
      (sentFlags 0 autoend (env.ackByte bs.length)) stopped
      (sendBytes env 0 (b :: bs)
        (hw.start ⟨devAddr, BitVec.ofNat 8 (bs.length + 1), false, autoend⟩ env.ackAddr)) := by
  rw [List.length_cons] at hle
  have hn : (BitVec.ofNat 8 (bs.length + 1)).toNat = bs.length + 1 := by
    rw [BitVec.toNat_ofNat]
    omega
  have hstart := h.start ⟨devAddr, BitVec.ofNat 8 (bs.length + 1), false, autoend⟩ env.ackAddr
    (.inl rfl)
  simp only [hn, Bool.false_eq_true, false_and, if_false] at hstart
  have houtcome := sendBytes_outcome env bs b 0 env.ackAddr hn hstart
  rw [Nat.zero_add] at houtcome
  simp only [Nat.zero_add] at houtcome
  exact houtcome

theorem all_acked_iff {acks : Nat → Bool} {n : Nat} :
    (∀ k < n + 1, acks k = true) ↔ (∀ k < n, acks k = true) ∧ acks n = true := by
  constructor
  · exact fun hall => ⟨fun k hk => hall k (Nat.lt_succ_of_lt hk), hall n (Nat.lt_succ_self n)⟩
  · rintro ⟨hall, hlast⟩ k hk
    rcases Nat.lt_succ_iff_lt_or_eq.mp hk with hlt | rfl
    · exact hall k hlt
    · exact hlast

theorem write_own (data : Payload) (h : Quiet hw) :
    let result := stm32f7I2cWrite env devAddr data.1 hw
    let acked := env.ackAddr = true ∧ ∀ k < data.1.length, env.ackByte k = true
    ((result.1 = .ok ↔ acked) ↔ (LastRefused env data.1.length → NoStopLeft hw ∧
      NackFirst (env.timing data.1.length).polls)) ∧
    ((result.1 = .ok ↔ acked) → Quiet result.2) := by
  obtain ⟨stopped, h⟩ := h
  obtain ⟨bytes, hpos, hle⟩ := data
  obtain ⟨b, bs, rfl⟩ : ∃ b bs, bytes = b :: bs := List.exists_cons_of_length_pos hpos
  have houtcome := send_started env devAddr b bs true hle h
  simp only [stm32f7I2cWrite, List.length_cons, Nat.succ_ne_zero, if_false, LastRefused,
    Nat.add_sub_cancel, all_acked_iff]
  generalize sendBytes env 0 (b :: bs) _ = sent at houtcome ⊢
  cases houtcome with
  | @sent hw' hacked hsent =>
    dsimp only
    cases hlast : env.ackByte bs.length with
    | true =>
      rw [hlast] at hsent
      obtain ⟨hw'', hfinish, hquiet⟩ := finish_ok env (bs.length + 1) hsent.of_stop
      simp only [hfinish]
      exact ⟨iff_of_true (iff_of_true trivial ⟨hacked.1, hacked.2, trivial⟩)
        (fun hand => nomatch hand.2.2), fun _ => hquiet⟩
    | false =>
      rw [hlast] at hsent
      obtain ⟨hok, hquiet⟩ := finish_refused env (bs.length + 1) hsent
      generalize finish env (bs.length + 1) hw' = result at hok hquiet ⊢
      have hnot : ¬ (env.ackAddr = true ∧ (∀ k < bs.length, env.ackByte k = true) ∧
          false = true) := fun hacks => nomatch hacks.2.2
      rw [iff_false_right hnot]
      refine ⟨?_, hquiet⟩
      rw [hok, Decidable.not_not, h.noStopLeft_iff]
      exact ⟨fun hseen _ => hseen, fun hseen => hseen ⟨hacked.1, hacked.2, rfl⟩⟩
  | refused hacked hquiet =>
    refine ⟨iff_of_true (iff_of_false nofun (fun hacks => hacked ⟨hacks.1, hacks.2.1⟩)) ?_,
      fun _ => ⟨true, hquiet⟩⟩
    exact fun hand => absurd ⟨hand.1, hand.2.1⟩ hacked

/-- A read transfer from a `START` on. -/
theorem receive_own {up : List IsrFlag} (n w : Nat) (ack : Bool) (stopped : Bool)
    (hup : up = [] ∨ up = [.tc]) (hle : n + 1 ≤ 255) (h : Expecting up [] stopped hw) :
    let started := hw.start ⟨devAddr, BitVec.ofNat 8 (n + 1), true, true⟩ ack
    (ack = true ∧ ∃ hw', recvBytes env (n + 1) 0 w started =
        (.ok, (List.range' 0 (n + 1)).map env.rx, hw') ∧ Expecting [] [] true hw') ∨
    (ack = false ∧ ∃ hw', recvBytes env (n + 1) 0 w started = (.errIo, [], hw') ∧
      Expecting [] [] true hw') := by
  have hn : (BitVec.ofNat 8 (n + 1)).toNat = n + 1 := by
    rw [BitVec.toNat_ofNat]
    omega
  have hstart := h.start ⟨devAddr, BitVec.ofNat 8 (n + 1), true, true⟩ ack hup
  simp only [hn, true_and] at hstart
  cases ack with
  | true => exact .inl ⟨rfl, recvBytes_ok env n 0 w hn rfl hstart⟩
  | false => exact .inr ⟨rfl, recvBytes_nacked env n 0 w hstart⟩

theorem read_own (len : Length) (h : Quiet hw) :
    let result := stm32f7I2cRead env devAddr len.1 hw
    (result.1 = .ok ↔ env.ackAddr = true) ∧ Quiet result.2.2 := by
  obtain ⟨stopped, h⟩ := h
  obtain ⟨len, hpos, hle⟩ := len
  obtain ⟨n, rfl⟩ : ∃ n, len = n + 1 := ⟨len - 1, by omega⟩
  simp only [stm32f7I2cRead, Nat.succ_ne_zero, if_false]
  rcases receive_own env devAddr n 0 env.ackAddr stopped (.inl rfl) hle h with
    ⟨hack, hw', hrecv, hquiet⟩ | ⟨hack, hw', hrecv, hquiet⟩
  · obtain ⟨hw'', hfinish, hquiet⟩ := finish_ok env (n + 1) hquiet
    simp only [hrecv, hfinish]
    exact ⟨iff_of_true trivial hack, hquiet⟩
  · simp only [hrecv]
    exact ⟨iff_of_false nofun (by simp [hack]), true, hquiet⟩

theorem writeRead_own (tx : Payload) (rxLen : Length) (h : Quiet hw) :
    let result := stm32f7I2cWriteRead env devAddr tx.1 rxLen.1 hw
    (result.1 = .ok ↔ env.ackAddr = true ∧ (∀ k < tx.1.length, env.ackByte k = true) ∧
      env.ackAgain = true) ∧ Quiet result.2.2 := by
  obtain ⟨stopped, h⟩ := h
  obtain ⟨bytes, hpos, htx⟩ := tx
  obtain ⟨b, bs, rfl⟩ : ∃ b bs, bytes = b :: bs := List.exists_cons_of_length_pos hpos
  obtain ⟨len, hlen, hrx⟩ := rxLen
  obtain ⟨n, rfl⟩ : ∃ n, len = n + 1 := ⟨len - 1, by omega⟩
  have houtcome := send_started env devAddr b bs false htx h
  simp only [stm32f7I2cWriteRead, List.length_cons, Nat.succ_ne_zero, or_self, if_false,
    all_acked_iff]
  generalize sendBytes env 0 (b :: bs) _ = sent at houtcome ⊢
  cases houtcome with
  | @sent hw₁ hacked hsent =>
    dsimp only
    cases hlast : env.ackByte bs.length with
    | true =>
      rw [hlast] at hsent
      have htc : Expecting [] (.tc :: List.replicate 0 .stopf) stopped hw₁ := hsent
      obtain ⟨hw₂, hwait, htc⟩ := htc.wait_ok (env.timing (bs.length + 1)) (by decide)
      simp only [hwait]
      rcases receive_own env devAddr n (bs.length + 1 + 1) env.ackAgain _ (.inr rfl) hrx htc with
        ⟨hack, hw₃, hrecv, hquiet⟩ | ⟨hack, hw₃, hrecv, hquiet⟩
      · obtain ⟨hw₄, hfinish, hquiet⟩ := finish_ok env (bs.length + 1 + 1 + (n + 1)) hquiet
        simp only [hrecv, hfinish]
        exact ⟨iff_of_true trivial ⟨hacked.1, ⟨hacked.2, trivial⟩, hack⟩, hquiet⟩
      · simp only [hrecv]
        exact ⟨iff_of_false nofun (by simp [hack]), true, hquiet⟩
    | false =>
      rw [hlast] at hsent
      obtain ⟨hw₂, hwait, hquiet⟩ :=
        hsent.wait_nack .tc (env.timing (bs.length + 1)) (by decide) (by decide)
      simp only [hwait]
      exact ⟨iff_of_false nofun (fun hacks => nomatch hacks.2.1.2), true, hquiet⟩
  | refused hacked hquiet =>
    exact ⟨iff_of_false nofun (fun hacks => hacked ⟨hacks.1, hacks.2.1.1⟩), true, hquiet⟩

end Calls

/-! ### Every call of a run -/

/-- No bus has a flag set, or to come, but `STOPF`. -/
def AllQuiet (st : I2cBus → I2cHw) : Prop := ∀ bus, Quiet (st bus)

theorem call_own {st : I2cBus → I2cHw} (h : AllQuiet st) (call : Call) :
    (ResultOwn st call ↔ LastNackSeen st call) ∧
    (ResultOwn st call → Quiet (call.perform (st call.bus)).2) := by
  obtain ⟨bus, devAddr, transaction, env⟩ := call
  cases transaction with
  | write data => exact write_own env devAddr data (h bus)
  | read len =>
    obtain ⟨hown, hquiet⟩ := read_own env devAddr len (h bus)
    exact ⟨iff_of_true hown trivial, fun _ => hquiet⟩
  | writeRead tx rxLen =>
    obtain ⟨hown, hquiet⟩ := writeRead_own env devAddr tx rxLen (h bus)
    exact ⟨iff_of_true hown trivial, fun _ => hquiet⟩

theorem AllQuiet.step {st : I2cBus → I2cHw} (h : AllQuiet st) (call : Call)
    (hown : ResultOwn st call) : AllQuiet (callStep st call) := by
  intro bus
  rw [callStep]
  split
  · rename_i hbus
    exact hbus ▸ (call_own h call).2 hown
  · exact h bus

theorem allQuiet_idle : AllQuiet fun _ => {} := fun _ =>
  ⟨false, fun _ _ => rfl, 0, rfl, rfl⟩

/-- **Every result of a run tells what the device answered in its own call
exactly when every write whose last byte is the first to be refused finds no
`STOPF` left over, and polls between `NACKF` and its own `STOPF`.** -/
theorem i2c_results_own_iff (calls : List Call) :
    Each callStep ResultOwn (fun _ => {}) calls ↔ Each callStep LastNackSeen (fun _ => {}) calls :=
  Steps.each_congr_of (fun _ call h => (call_own h call).1) (fun _ call h => h.step call) calls
    allQuiet_idle

/-! ## A failure that hides the next one -/

/-- One flag before each poll. -/
def oneByOne : Arrivals := ⟨[1, 1, 1, 1], 0, by decide⟩

/-- Nothing answers at 0x51; the device at 0x50 takes its address, but not the byte. -/
def refusedWrites : List Call :=
  [⟨.i2c1, 0x51, .write ⟨[0xAA], by decide⟩, ⟨false, false, fun _ => false, fun _ => 0, fun _ => oneByOne⟩⟩,
    ⟨.i2c1, 0x50, .write ⟨[0xAA], by decide⟩, ⟨true, false, fun _ => false, fun _ => 0, fun _ => oneByOne⟩⟩]

/-- The second write returns `HAL_OK` for a byte that was refused. -/
theorem refused_byte_reported_ok :
    let st := run callStep (fun _ => {}) (refusedWrites.take 1)
    (refusedWrites.map fun call => (call.perform (st call.bus)).1) = [.errIo, .ok] ∧
    ¬ Each callStep ResultOwn (fun _ => {}) refusedWrites := by
  refine ⟨by decide, fun h => ?_⟩
  obtain ⟨-, hsecond, -⟩ := h
  have hall := (hsecond.mp (by decide)).2 0 (by decide)
  cases hall

end NavHAL.I2c
