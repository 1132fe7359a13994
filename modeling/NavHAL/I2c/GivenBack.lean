import NavHAL.I2c.F4Master

/-!
# What an F4 I2C transaction leaves behind

Not every exit gives the bus back: a `START` that is not seen is not followed by a `STOP`,
nor is a timeout in the read phase of `hal_i2c_write_read`, and the short reads leave `ACK`
off, or `POS` set (`bus_given_back_iff`).
-/

namespace NavHAL.I2c.F4

open Access (exec exec_bind)

/-! ## A bus during a call -/

inductive Request
  | start
  | stop
  deriving DecidableEq, Repr

/-- `ACK` and `POS`, what the driver has requested since the call began, and how many
waits and reads of `DR` it has made. -/
structure BusState where
  ack : Bool
  pos : Bool
  requests : List Request := []
  waits : Nat := 0
  reads : Nat := 0
  deriving DecidableEq, Repr

/-- What each poll of each wait finds, and what each read of `DR` returns. -/
structure Behaviour where
  polls : Nat → Nat → Bool
  rx : Nat → BitVec 8

/-- Wait `w` sees its flag before its timeout. -/
def Behaviour.Arrives (env : Behaviour) (w : Nat) : Prop := ∃ k < i2cTimeout, env.polls w k = true

def reply (env : Behaviour) : (i : I2cAccess) → BusState → Answer i × BusState
  | .setCr1 .start, b => ((), { b with requests := b.requests ++ [.start] })
  | .setCr1 .stop, b => ((), { b with requests := b.requests ++ [.stop] })
  | .setCr1 .ack, b => ((), { b with ack := true })
  | .setCr1 .pos, b => ((), { b with pos := true })
  | .clearCr1 .start, b => ((), b)
  | .clearCr1 .stop, b => ((), b)
  | .clearCr1 .ack, b => ((), { b with ack := false })
  | .clearCr1 .pos, b => ((), { b with pos := false })
  | .writeDr _, b => ((), b)
  | .readDr, b => (env.rx b.reads, { b with reads := b.reads + 1 })
  | .readSr1, b => ((), b)
  | .readSr2, b => ((), b)
  | .waitFlag _, b => (waitFlag (env.polls b.waits), { b with waits := b.waits + 1 })

/-- The bus after the call. -/
def Call.after (call : Call) (env : Behaviour) (ack pos : Bool) : BusState :=
  (exec (reply env) call.program { ack, pos }).2

/-- A call that requested `START` requested `STOP` last, and leaves `POS` clear and an `ACK`
that was on. -/
def GivesBack (call : Call) (env : Behaviour) (ack pos : Bool) : Prop :=
  let left := call.after env ack pos
  .start ∈ left.requests →
    left.requests.getLast? = some .stop ∧ left.pos = false ∧ (ack = true → left.ack = true)

/-! ### Which waits have to see their flags -/

/-- The waits from `w` on, `n` of them, see their flags. -/
def Behaviour.AllArrive (env : Behaviour) (w n : Nat) : Prop := ∀ j < n, env.Arrives (w + j)

/-- The wait for the last byte is the first that times out. -/
def Behaviour.LastTimesOut (env : Behaviour) (len : Nat) : Prop :=
  env.AllArrive 1 len ∧ ¬ env.Arrives (1 + len)

/-- What the read phase needs, from wait `w` on. -/
def ReadPhaseRestores (env : Behaviour) (w rxLen : Nat) (ack pos : Bool) : Prop :=
  if rxLen = 1 then ack = false ∧ pos = false
  else if rxLen = 2 then env.Arrives w ∧ ack = false
  else env.AllArrive w (rxLen - 1) ∧ pos = false

open Classical in
/-- What a call needs once it requests `START`. -/
def Transaction.Restores (env : Behaviour) (ack pos : Bool) : Transaction → Prop
  | .write _ _ => pos = false
  | .read _ len => pos = false ∧ (env.LastTimesOut len.toNat → ack = false)
  | .writeRead _ txLen _ rxLen =>
    if env.AllArrive 1 (3 + 2 * txLen.toNat) then
      ReadPhaseRestores env (4 + 2 * txLen.toNat) rxLen.toNat ack pos
    else pos = false

/-- The call requests `START`. -/
def Call.Starts (call : Call) : Prop :=
  call.bus < 3 ∧
    match call.transaction with
    | .write data _ => data.isSome = true
    | .read data len => data.isSome = true ∧ len ≠ 0
    | .writeRead txData _ rxData rxLen => txData.isSome = true ∧ rxData.isSome = true ∧ rxLen ≠ 0

/-! ### One lemma for each function -/

variable (env : Behaviour) (b : BusState)

theorem exec_start : exec (reply env) i2cStart b =
    (if waitFlag (env.polls b.waits) then .ok else .errTimeout,
      { b with requests := b.requests ++ [.start], waits := b.waits + 1 }) := by
  cases hwait : waitFlag (env.polls b.waits) with
  | true => simp [i2cStart, reply, hwait]
  | false => simp [i2cStart, reply, hwait]

theorem exec_writeAddr (addr : BitVec 8) : exec (reply env) (i2cWriteAddr addr) b =
    (if waitFlag (env.polls b.waits) then .ok else .errTimeout, { b with waits := b.waits + 1 }) := by
  cases hwait : waitFlag (env.polls b.waits) with
  | true => simp [i2cWriteAddr, reply, hwait]
  | false => simp [i2cWriteAddr, reply, hwait]

variable {env b}

theorem Behaviour.Arrives.seen {w : Nat} (h : env.Arrives w) : waitFlag (env.polls w) = true :=
  (waitFlag_iff _).mpr h

theorem Behaviour.not_seen {w : Nat} (h : ¬ env.Arrives w) : waitFlag (env.polls w) = false := by
  rw [← Bool.not_eq_true, waitFlag_iff]
  exact h

theorem Behaviour.allArrive_succ {w n : Nat} :
    env.AllArrive w (n + 1) ↔ env.Arrives w ∧ env.AllArrive (w + 1) n := by
  constructor
  · intro h
    refine ⟨h 0 (Nat.succ_pos n), fun j hj => ?_⟩
    have hnext := h (j + 1) (by omega)
    rwa [Nat.add_comm j 1, ← Nat.add_assoc] at hnext
  · rintro ⟨hfirst, hrest⟩ j hj
    cases j with
    | zero => exact hfirst
    | succ j =>
      have hnext := hrest j (by omega)
      rwa [Nat.add_assoc, Nat.add_comm 1 j] at hnext

theorem Behaviour.allArrive_add {w m n : Nat} :
    env.AllArrive w (m + n) ↔ env.AllArrive w m ∧ env.AllArrive (w + m) n := by
  induction m generalizing w with
  | zero =>
    rw [Nat.zero_add, Nat.add_zero]
    exact (and_iff_right fun j hj => absurd hj (Nat.not_lt_zero j)).symm
  | succ m ih =>
    rw [Nat.succ_add, allArrive_succ, allArrive_succ, ih, and_assoc, Nat.add_assoc w 1 m,
      Nat.add_comm 1 m]

theorem Behaviour.allArrive_one {w : Nat} : env.AllArrive w 1 ↔ env.Arrives w := by
  rw [allArrive_succ]
  exact and_iff_left fun j hj => absurd hj (Nat.not_lt_zero j)

variable (env b)

/-- The data bytes: a timeout ends the loop with a `STOP`. -/
theorem exec_writeLoop (data : Nat → BitVec 8) (i n : Nat) :
    (env.AllArrive b.waits (2 * n) ∧
      exec (reply env) (writeLoop data i n) b = (.ok, { b with waits := b.waits + 2 * n })) ∨
    (¬ env.AllArrive b.waits (2 * n) ∧ ∃ w, exec (reply env) (writeLoop data i n) b =
      (.errTimeout, { b with requests := b.requests ++ [.stop], waits := w })) := by
  induction n generalizing i b with
  | zero => exact Or.inl ⟨fun j hj => absurd hj (Nat.not_lt_zero j), rfl⟩
  | succ n ih =>
    rw [show 2 * (n + 1) = 2 * n + 1 + 1 by omega, Behaviour.allArrive_succ,
      Behaviour.allArrive_succ]
    by_cases htxe : env.Arrives b.waits
    · by_cases hbtf : env.Arrives (b.waits + 1)
      · have hnext : exec (reply env) (writeLoop data i (n + 1)) b =
            exec (reply env) (writeLoop data (i + 1) n) { b with waits := b.waits + 1 + 1 } := by
          simp [writeLoop, i2cWriteData, reply, htxe.seen, hbtf.seen]
        rw [hnext, and_iff_right htxe, and_iff_right hbtf]
        rcases ih { b with waits := b.waits + 1 + 1 } (i + 1) with ⟨hall, hexec⟩ | ⟨hnot, hexec⟩
        · refine Or.inl ⟨hall, ?_⟩
          rw [hexec]
          simp only [Nat.add_assoc, Nat.add_comm, Nat.add_left_comm]
        · exact Or.inr ⟨hnot, hexec⟩
      · refine Or.inr ⟨fun h => hbtf h.2.1, b.waits + 1 + 1, ?_⟩
        simp [writeLoop, i2cWriteData, i2cStop, reply, htxe.seen, Behaviour.not_seen hbtf]
    · refine Or.inr ⟨fun h => htxe h.1, b.waits + 1, ?_⟩
      simp [writeLoop, i2cWriteData, i2cStop, reply, Behaviour.not_seen htxe]

/-- The receive loop of `stm32_i2c_read`, entered with bytes left: whatever times out, it
has requested `STOP`, and `ACK` is off after it only if the last byte did. -/
theorem exec_readLoop (data : Buffer) (i n : Nat) :
    let left := (exec (reply env) (readLoop i (n + 1) data) b).2
    (∃ before, left.requests = before ++ [.stop]) ∧ left.pos = b.pos ∧
      (b.ack = true → (left.ack = true ↔
        ¬ (env.AllArrive b.waits n ∧ ¬ env.Arrives (b.waits + n)))) := by
  induction n generalizing i b data with
  | zero =>
    by_cases hrxne : env.Arrives b.waits
    · refine ⟨⟨b.requests, ?_⟩, ?_, fun _ => ?_⟩
      all_goals simp [readLoop, i2cStop, reply, hrxne.seen, hrxne]
    · have hnone : env.AllArrive b.waits 0 := fun j hj => absurd hj (Nat.not_lt_zero j)
      refine ⟨⟨b.requests ++ [.stop], ?_⟩, ?_, fun _ => ?_⟩
      all_goals simp [readLoop, i2cStop, reply, Behaviour.not_seen hrxne, hrxne, hnone]
  | succ n ih =>
    by_cases hrxne : env.Arrives b.waits
    · obtain ⟨byte, b', hb', hnext⟩ : ∃ byte b', b' = { b with ack := true, waits := b.waits + 1, reads := b.reads + 1 } ∧
          exec (reply env) (readLoop i (n + 1 + 1) data) b =
          exec (reply env) (readLoop (i + 1) (n + 1) (Function.update data i byte)) b' := by
        refine ⟨env.rx b.reads, _, rfl, ?_⟩
        rw [readLoop]
        simp [reply, hrxne.seen]
      obtain ⟨hstop, hpos, hack⟩ := ih b' (Function.update data i byte) (i + 1)
      rw [hnext]
      subst hb'
      refine ⟨hstop, hpos, fun _ => ?_⟩
      rw [hack rfl, Behaviour.allArrive_succ, and_iff_right hrxne, Nat.add_assoc b.waits 1 n,
        Nat.add_comm 1 n]
    · refine ⟨⟨b.requests, ?_⟩, ?_, fun _ => ?_⟩
      all_goals simp [readLoop, i2cStop, reply, Behaviour.not_seen hrxne,
        Behaviour.allArrive_succ, hrxne]

/-- Case `N > 2`: only its end requests `STOP`. -/
theorem exec_readMany (rxData : Buffer) (i n : Nat) :
    let left := (exec (reply env) (readMany i n rxData) b).2
    left.pos = b.pos ∧
      (env.AllArrive b.waits (n + 2) → left.requests = b.requests ++ [.stop] ∧ left.ack = true) ∧
      (¬ env.AllArrive b.waits (n + 2) → left.requests = b.requests) := by
  induction n generalizing i b rxData with
  | zero =>
    rw [Behaviour.allArrive_succ, Behaviour.allArrive_one]
    by_cases hfirst : env.Arrives b.waits
    · by_cases hsecond : env.Arrives (b.waits + 1)
      · simp [readMany, readLastThree, reply, hfirst.seen, hsecond.seen, hfirst, hsecond]
      · simp [readMany, readLastThree, reply, hfirst.seen, Behaviour.not_seen hsecond, hsecond]
    · simp [readMany, readLastThree, reply, Behaviour.not_seen hfirst, hfirst]
  | succ n ih =>
    rw [Behaviour.allArrive_succ]
    by_cases hrxne : env.Arrives b.waits
    · have hnext : exec (reply env) (readMany i (n + 1) rxData) b =
          exec (reply env) (readMany (i + 1) n (Function.update rxData i (env.rx b.reads)))
            { b with waits := b.waits + 1, reads := b.reads + 1 } := by
        rw [readMany]
        simp [reply, hrxne.seen]
      rw [hnext, and_iff_right hrxne]
      exact ih { b with waits := b.waits + 1, reads := b.reads + 1 } _ (i + 1)
    · simp [readMany, reply, Behaviour.not_seen hrxne, hrxne]

/-- What `GivesBack` asks of a call that requested `START`. -/
def BusState.Free (ack : Bool) (left : BusState) : Prop :=
  left.requests.getLast? = some .stop ∧ left.pos = false ∧ (ack = true → left.ack = true)

section ReadPhase

variable (rxData : Buffer)

theorem readOne_free_iff :
    (exec (reply env) (readPhase rxData 1) b).2.Free b.ack ↔ b.ack = false ∧ b.pos = false := by
  by_cases hrxne : env.Arrives b.waits
  · simp [readPhase, readOne, reply, hrxne.seen, BusState.Free, and_comm]
  · simp [readPhase, readOne, reply, Behaviour.not_seen hrxne, BusState.Free, and_comm]

theorem readTwo_free_iff (hstart : b.requests.getLast? = some .start) :
    (exec (reply env) (readPhase rxData 2) b).2.Free b.ack ↔
      env.Arrives b.waits ∧ b.ack = false := by
  by_cases hbtf : env.Arrives b.waits
  · simp [readPhase, readTwo, reply, hbtf.seen, BusState.Free, hbtf]
  · simp [readPhase, readTwo, reply, Behaviour.not_seen hbtf, BusState.Free, hbtf, hstart]

theorem readMany_free_iff (rxLen : UInt16) (hone : rxLen ≠ 1) (htwo : rxLen ≠ 2)
    (hlen : 3 ≤ rxLen.toNat) (hstart : b.requests.getLast? = some .start) :
    (exec (reply env) (readPhase rxData rxLen) b).2.Free b.ack ↔
      env.AllArrive b.waits (rxLen.toNat - 1) ∧ b.pos = false := by
  have hphase : exec (reply env) (readPhase rxData rxLen) b =
      exec (reply env) (readMany 0 (rxLen.toNat - 3) rxData) { b with ack := true } := by
    simp [readPhase, hone, htwo, reply]
  obtain ⟨hpos, hall, hnot⟩ := exec_readMany env { b with ack := true } rxData 0 (rxLen.toNat - 3)
  rw [← hphase, show rxLen.toNat - 3 + 2 = rxLen.toNat - 1 by omega] at hall hnot
  rw [← hphase] at hpos
  rw [BusState.Free, hpos]
  by_cases harrive : env.AllArrive b.waits (rxLen.toNat - 1)
  · obtain ⟨hrequests, hack⟩ := hall harrive
    simp [hrequests, hack, harrive]
  · rw [hnot harrive]
    simp [hstart, harrive]

/-- The read phase follows a `START`. -/
theorem readPhase_free_iff (rxLen : UInt16) (hne : rxLen ≠ 0)
    (hstart : b.requests.getLast? = some .start) :
    (exec (reply env) (readPhase rxData rxLen) b).2.Free b.ack ↔
      ReadPhaseRestores env b.waits rxLen.toNat b.ack b.pos := by
  have hcase : ∀ n : UInt16, rxLen.toNat = n.toNat ↔ rxLen = n := fun n => UInt16.toNat_inj
  have hzero : rxLen.toNat ≠ 0 := fun h => hne ((hcase 0).mp h)
  rw [ReadPhaseRestores]
  split
  · next hone =>
    rw [(hcase 1).mp hone]
    exact readOne_free_iff env b rxData
  · next hone =>
    split
    · next htwo =>
      rw [(hcase 2).mp htwo]
      exact readTwo_free_iff env b rxData hstart
    · next htwo =>
      exact readMany_free_iff env b rxData rxLen (fun h => hone ((hcase 1).mpr h))
        (fun h => htwo ((hcase 2).mpr h)) (by omega) hstart

end ReadPhase

/-! ### Every call -/

theorem write_free_iff (bus : UInt32) (hbus : bus < 3) (devAddr : BitVec 8)
    (data : Nat → BitVec 8) (len : UInt16) (ack pos : Bool) :
    (exec (reply env) (stm32I2cWrite bus devAddr data len) { ack, pos }).2.Free ack ↔
      env.Arrives 0 ∧ pos = false := by
  by_cases hsb : env.Arrives 0
  · by_cases haddr : env.Arrives 1
    · rcases exec_writeLoop env { ack, pos, requests := [.start], waits := 2 } data 0 len.toNat with
        ⟨-, hexec⟩ | ⟨-, w, hexec⟩
      all_goals simp [stm32I2cWrite, i2cBusValid, hbus, exec_bind, exec_start, exec_writeAddr,
        i2cStop, reply, BusState.Free, hsb.seen, haddr.seen, hexec, hsb]
    · simp [stm32I2cWrite, i2cBusValid, hbus, exec_bind, exec_start, exec_writeAddr, i2cStop, reply,
        BusState.Free, hsb.seen, Behaviour.not_seen haddr, hsb]
  · simp [stm32I2cWrite, i2cBusValid, hbus, exec_bind, exec_start, BusState.Free,
      Behaviour.not_seen hsb, hsb]

theorem read_free_iff (bus : UInt32) (hbus : bus < 3) (devAddr : BitVec 8) (data : Buffer)
    (len : UInt16) (hlen : len ≠ 0) (ack pos : Bool) :
    (exec (reply env) (stm32I2cRead bus devAddr data len) { ack, pos }).2.Free ack ↔
      env.Arrives 0 ∧ pos = false ∧ (env.LastTimesOut len.toNat → ack = false) := by
  obtain ⟨n, hn⟩ : ∃ n, len.toNat = n + 1 := by
    have hne : len.toNat ≠ 0 := fun h => hlen (UInt16.toNat_inj.mp h)
    exact ⟨len.toNat - 1, by omega⟩
  rw [Behaviour.LastTimesOut, hn, Behaviour.allArrive_succ]
  by_cases hsb : env.Arrives 0
  · by_cases haddr : env.Arrives 1
    · have hloop : (exec (reply env) (stm32I2cRead bus devAddr data len) { ack, pos }).2 =
          (exec (reply env) (readLoop 0 (n + 1) data)
            { ack, pos, requests := [.start], waits := 2 }).2 := by
        simp [stm32I2cRead, i2cBusValid, hbus, hlen, exec_bind, exec_start, exec_writeAddr, hsb.seen,
          haddr.seen, hn]
      obtain ⟨⟨before, hstop⟩, hpos, hack⟩ :=
        exec_readLoop env { ack, pos, requests := [.start], waits := 2 } data 0 n
      rw [hloop, BusState.Free, hstop, hpos, List.getLast?_concat, and_iff_right rfl,
        and_iff_right hsb, and_iff_right haddr, show 1 + (n + 1) = 2 + n by omega]
      refine and_congr_right fun _ => ?_
      cases ack with
      | true => simpa using hack rfl
      | false => simp
    · simp [stm32I2cRead, i2cBusValid, hbus, hlen, exec_bind, exec_start, exec_writeAddr, i2cStop,
        reply, BusState.Free, hsb.seen, Behaviour.not_seen haddr, hsb, haddr]
  · simp [stm32I2cRead, i2cBusValid, hbus, hlen, exec_bind, exec_start, BusState.Free,
      Behaviour.not_seen hsb, hsb]

theorem writeRead_free_iff (bus : UInt32) (hbus : bus < 3) (devAddr : BitVec 8)
    (txData : Nat → BitVec 8) (txLen : UInt16) (rxData : Buffer) (rxLen : UInt16)
    (hlen : rxLen ≠ 0) (ack pos : Bool) :
    (exec (reply env) (stm32I2cWriteRead bus devAddr txData txLen rxData rxLen)
      { ack, pos }).2.Free ack ↔ env.Arrives 0 ∧
        (Transaction.writeRead (some txData) txLen (some rxData) rxLen).Restores env ack pos := by
  rw [Transaction.Restores, show 3 + 2 * txLen.toNat = 2 * txLen.toNat + 2 + 1 by omega,
    Behaviour.allArrive_succ, Behaviour.allArrive_add, Behaviour.allArrive_succ,
    Behaviour.allArrive_one]
  by_cases hsb : env.Arrives 0
  · rw [and_iff_right hsb]
    by_cases haddr : env.Arrives 1
    · rw [and_iff_right haddr]
      rcases exec_writeLoop env { ack, pos, requests := [.start], waits := 2 } txData 0
        txLen.toNat with ⟨hsent, hexec⟩ | ⟨hnot, w, hexec⟩
      · rw [and_iff_right hsent]
        by_cases hagain : env.Arrives (2 + 2 * txLen.toNat)
        · by_cases haddr' : env.Arrives (2 + 2 * txLen.toNat + 1)
          · have hphase : exec (reply env)
                (stm32I2cWriteRead bus devAddr txData txLen rxData rxLen) { ack, pos } =
                exec (reply env) (readPhase rxData rxLen)
                  ⟨ack, pos, [.start, .start], 2 + 2 * txLen.toNat + 1 + 1, 0⟩ := by
              simp [stm32I2cWriteRead, i2cBusValid, hbus, hlen, exec_bind, exec_start,
                exec_writeAddr, hsb.seen, haddr.seen, hexec, hagain.seen, haddr'.seen]
            rw [if_pos ⟨hagain, haddr'⟩, hphase,
              show 4 + 2 * txLen.toNat = 2 + 2 * txLen.toNat + 1 + 1 by omega]
            exact readPhase_free_iff env _ rxData rxLen hlen rfl
          · rw [if_neg fun h => haddr' h.2]
            simp [stm32I2cWriteRead, i2cBusValid, hbus, hlen, exec_bind, exec_start, exec_writeAddr,
              i2cStop, reply, BusState.Free, hsb.seen, haddr.seen, hexec, hagain.seen,
              Behaviour.not_seen haddr']
        · rw [if_neg fun h => hagain h.1]
          simp [stm32I2cWriteRead, i2cBusValid, hbus, hlen, exec_bind, exec_start, exec_writeAddr,
            i2cStop, reply, BusState.Free, hsb.seen, haddr.seen, hexec, Behaviour.not_seen hagain]
      · rw [if_neg fun h => hnot h.1]
        simp [stm32I2cWriteRead, i2cBusValid, hbus, hlen, exec_bind, exec_start, exec_writeAddr,
          BusState.Free, hsb.seen, haddr.seen, hexec]
    · rw [if_neg fun h => haddr h.1]
      simp [stm32I2cWriteRead, i2cBusValid, hbus, hlen, exec_bind, exec_start, exec_writeAddr,
        i2cStop, reply, BusState.Free, hsb.seen, Behaviour.not_seen haddr]
  · simp [stm32I2cWriteRead, i2cBusValid, hbus, hlen, exec_bind, exec_start, BusState.Free,
      Behaviour.not_seen hsb, hsb]

/-! ### The requests of a call -/

theorem requests_prefix {α : Type} (p : I2cProgram α) :
    b.requests <+: (exec (reply env) p b).2.requests := by
  induction p generalizing b with
  | done a => exact List.prefix_refl _
  | access i next ih =>
    have hfirst : b.requests <+: (reply env i b).2.requests := by
      cases i with
      | setCr1 bit =>
        cases bit with
        | start => exact List.prefix_append _ _
        | stop => exact List.prefix_append _ _
        | ack => exact List.prefix_refl _
        | pos => exact List.prefix_refl _
      | clearCr1 bit => cases bit <;> exact List.prefix_refl _
      | _ => exact List.prefix_refl _
    exact hfirst.trans (ih _ _)

variable (ack pos : Bool)

theorem bus_valid_iff (bus : UInt32) : i2cBusValid bus = true ↔ bus < 3 := decide_eq_true_iff

/-- A call that requests `START` does so first. -/
theorem start_mem (call : Call) (h : call.Starts) :
    Request.start ∈ (call.after env ack pos).requests := by
  obtain ⟨bus, devAddr, transaction⟩ := call
  obtain ⟨hbus, h⟩ := h
  have hvalid : i2cBusValid bus = true := (bus_valid_iff bus).mpr hbus
  have hfirst : ∀ next : Unit → I2cProgram HalStatus, Request.start ∈
      (exec (reply env) (.access (.setCr1 .start) next) { ack, pos }).2.requests := by
    intro next
    have hprefix := requests_prefix env { ack, pos, requests := [.start] } (next ())
    exact hprefix.subset (List.mem_singleton.mpr rfl)
  unfold Call.after Call.program
  cases transaction with
  | write data len =>
    obtain ⟨data, rfl⟩ := Option.isSome_iff_exists.mp h
    simp only [stm32I2cWrite, hvalid, i2cStart]
    exact hfirst _
  | read data len =>
    obtain ⟨data, rfl⟩ := Option.isSome_iff_exists.mp h.1
    simp only [stm32I2cRead, hvalid, i2cStart, if_neg h.2]
    exact hfirst _
  | writeRead txData txLen rxData rxLen =>
    obtain ⟨txData, rfl⟩ := Option.isSome_iff_exists.mp h.1
    obtain ⟨rxData, rfl⟩ := Option.isSome_iff_exists.mp h.2.1
    simp only [stm32I2cWriteRead, hvalid, i2cStart, if_neg h.2.2]
    exact hfirst _

/-- A call that does not leaves the bus alone. -/
theorem after_of_not_starts (call : Call) (h : ¬ call.Starts) :
    call.after env ack pos = { ack, pos } := by
  obtain ⟨bus, devAddr, transaction⟩ := call
  by_cases hbus : bus < 3
  · have hvalid : i2cBusValid bus = true := (bus_valid_iff bus).mpr hbus
    cases transaction with
    | write data len =>
      cases data with
      | none => rfl
      | some data => exact absurd ⟨hbus, rfl⟩ h
    | read data len =>
      cases data with
      | none => rfl
      | some data =>
        have hlen : len = 0 := Decidable.not_not.mp fun hne => h ⟨hbus, rfl, hne⟩
        simp [Call.after, Call.program, stm32I2cRead, hvalid, hlen]
    | writeRead txData txLen rxData rxLen =>
      cases txData with
      | none => rfl
      | some txData =>
        cases rxData with
        | none => rfl
        | some rxData =>
          have hlen : rxLen = 0 := Decidable.not_not.mp fun hne => h ⟨hbus, rfl, rfl, hne⟩
          simp [Call.after, Call.program, stm32I2cWriteRead, hvalid, hlen]
  · have hvalid : i2cBusValid bus = false := by
      rw [← Bool.not_eq_true, bus_valid_iff]
      exact hbus
    cases transaction with
    | write data len => cases data <;> simp [Call.after, Call.program, stm32I2cWrite, hvalid]
    | read data len => cases data <;> simp [Call.after, Call.program, stm32I2cRead, hvalid]
    | writeRead txData txLen rxData rxLen =>
      cases txData <;> cases rxData <;> simp [Call.after, Call.program, stm32I2cWriteRead, hvalid]

theorem free_iff (call : Call) (h : call.Starts) :
    (call.after env ack pos).Free ack ↔
      env.Arrives 0 ∧ call.transaction.Restores env ack pos := by
  obtain ⟨bus, devAddr, transaction⟩ := call
  obtain ⟨hbus, h⟩ := h
  unfold Call.after Call.program
  cases transaction with
  | write data len =>
    obtain ⟨data, rfl⟩ := Option.isSome_iff_exists.mp h
    exact write_free_iff env bus hbus devAddr data len ack pos
  | read data len =>
    obtain ⟨data, rfl⟩ := Option.isSome_iff_exists.mp h.1
    simp only [exec_bind]
    exact read_free_iff env bus hbus devAddr data len h.2 ack pos
  | writeRead txData txLen rxData rxLen =>
    obtain ⟨txData, rfl⟩ := Option.isSome_iff_exists.mp h.1
    obtain ⟨rxData, rfl⟩ := Option.isSome_iff_exists.mp h.2.1
    simp only [exec_bind]
    exact writeRead_free_iff env bus hbus devAddr txData txLen rxData rxLen h.2.2 ack pos

/-- **A call gives the bus back exactly when it requests no `START`, or its first `START` is
seen and the waits after it, with `ACK` and `POS` as they were, are not among those
after which the driver forgets to restore something.** -/
theorem bus_given_back_iff (call : Call) :
    GivesBack call env ack pos ↔
      (call.Starts → env.Arrives 0 ∧ call.transaction.Restores env ack pos) := by
  by_cases hstarts : call.Starts
  · rw [imp_iff_right hstarts, ← free_iff env ack pos call hstarts]
    exact imp_iff_right (start_mem env ack pos call hstarts)
  · refine iff_of_true ?_ fun h => absurd h hstarts
    unfold GivesBack
    rw [after_of_not_starts env ack pos call hstarts]
    exact fun h => absurd h (List.not_mem_nil)

/-! ## Two bytes that do not come -/

def twoByteRead : Call := ⟨0, 0x68, .writeRead (some fun _ => 0) 0 (some fun _ => 0) 2⟩

theorem twoByteRead_after {env : Behaviour} (hseen : ∀ w < 4, env.Arrives w)
    (hsilent : ¬ env.Arrives 4) :
    twoByteRead.after env true false = ⟨false, true, [.start, .start], 5, 0⟩ := by
  have hwait : ∀ w < 4, waitFlag (env.polls w) = true := fun w hw => (hseen w hw).seen
  simp [Call.after, Call.program, twoByteRead, stm32I2cWriteRead, i2cBusValid, writeLoop,
    readPhase, readTwo, exec_bind, exec_start, exec_writeAddr, reply, hwait,
    Behaviour.not_seen hsilent]

/-- Both addresses are answered, and then nothing. -/
def silentAfterAddress : Behaviour := ⟨fun w _ => decide (w < 4), fun _ => 0⟩

/-- The call returns without a `STOP`, with `ACK` off and `POS` set. -/
theorem two_byte_read_keeps_bus :
    twoByteRead.after silentAfterAddress true false = ⟨false, true, [.start, .start], 5, 0⟩ ∧
    ¬ GivesBack twoByteRead silentAfterAddress true false := by
  have hseen : ∀ w < 4, silentAfterAddress.Arrives w := fun w hw =>
    ⟨0, Nat.succ_pos _, decide_eq_true hw⟩
  have hsilent : ¬ silentAfterAddress.Arrives 4 := by
    rintro ⟨k, -, hset⟩
    have hlt : 4 < 4 := of_decide_eq_true (p := 4 < 4) hset
    exact absurd hlt (Nat.lt_irrefl 4)
  have hafter := twoByteRead_after hseen hsilent
  refine ⟨hafter, fun h => ?_⟩
  unfold GivesBack at h
  rw [hafter] at h
  exact absurd (h (by decide)).1 (by decide)

end NavHAL.I2c.F4
