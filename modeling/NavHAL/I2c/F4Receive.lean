import NavHAL.I2c.F4Reception

/-!
# Which bytes an F4 read clocks

`hal_i2c_read`, and `hal_i2c_write_read` for one or two bytes, clear `ADDR` before they have
set `ACK`, `POS` and `STOP` for the bytes that then arrive: they read exactly `N` bytes if
the last of these is complete late enough (`exact_bytes_iff`).
-/

namespace NavHAL.I2c.F4

open Access (Runs Stable)

section

variable {slave : Nat → BitVec 8} {e p v w : Bool} {i m n : Nat} {r r' : Receiver} {data : Buffer}

/-! ## `hal_i2c_read` -/

/-- Byte `n + 1` was complete late enough for `hal_i2c_read`. -/
def ReadLate (e p : Bool) (n : Nat) (r : Receiver) : Prop :=
  n = 0 ∧ e = false ∨ p = false ∧ r.ackClearedAt ≤ n

/-- The loop before byte `i + 1`. -/
structure Ready (slave : Nat → BitVec 8) (e p : Bool) (i : Nat) (r : Receiver) : Prop where
  sound : Sound slave i r
  acking : if i = 0 then Begun slave e p r else Even true p r

theorem Ready.stable : Stable (byteArrives slave) (Ready slave e p i) := by
  intro r r' h hstep
  refine ⟨Sound.stable r r' h.sound hstep, ?_⟩
  have hacking := h.acking
  split at hacking
  · next hzero =>
    rw [if_pos hzero]
    exact Begun.stable r r' hacking hstep
  · next hzero =>
    rw [if_neg hzero]
    exact Even.stable r r' hacking hstep

/-- `ACK` is cleared after it was on for all the bytes so far. -/
theorem Even.turned (h : Even true p r) (hi : i ≠ 0) (hle : i ≤ r.answers.length) :
    Turned p i true true r.answers.length (r.clearCr1 .ack) := by
  refine ⟨rfl, h.pos, rfl, ?_⟩
  rcases h.answers with ⟨-, hall, hlatched⟩ | ⟨hover, hdead⟩
  · have hne : r.answers ≠ [] := by
      intro hnil
      rw [hnil] at hle
      exact hi (Nat.le_zero.mp hle)
    rcases Nat.lt_or_eq_of_le hle with hlt | heq
    · exact Or.inl ⟨hlt, get_of_all hall hlt⟩
    · exact Or.inr (Or.inl ⟨heq.symm, heq.symm, fun _ => hlatched hne⟩)
  · have hone : r.answers.length = i := by
      rw [hdead] at hle ⊢
      have hle' : i ≤ 1 := hle
      change 1 = i
      omega
    refine Or.inr (Or.inl ⟨hone, hone, fun hgoing => ?_⟩)
    have hover' : r.ended = false := hgoing
    rw [hover] at hover'
    cases hover'

theorem Begun.turned (h : Begun slave e p r) :
    Turned p 0 e e r.answers.length (r.clearCr1 .ack) := by
  refine ⟨rfl, h.even.pos, rfl, ?_⟩
  cases hans : r.answers with
  | nil => exact Or.inr (Or.inl ⟨rfl, by simp [Receiver.clearCr1, hans], fun _ => h.latched hans⟩)
  | cons a rest =>
    have ha : a = e := h.first a (by rw [hans]; rfl)
    exact Or.inl ⟨Nat.succ_pos _, by simp [Receiver.clearCr1, hans, ha]⟩

theorem Ready.turned (h : Ready slave e p i r) :
    Turned p i (decide (i ≠ 0) || e) (decide (i ≠ 0) || e) r.answers.length
      (r.clearCr1 .ack) := by
  have hacking := h.acking
  split at hacking
  · next hzero =>
    subst hzero
    exact hacking.turned
  · next hzero =>
    have hle : i ≤ r.answers.length := by rw [h.sound.count]; omega
    rw [decide_eq_true hzero]
    exact hacking.turned hzero hle

/-- The end of a read whose last byte was prepared by clearing `ACK`. -/
theorem Turned.readLate_iff (h : Turned p i (decide (i ≠ 0) || e) (decide (i ≠ 0) || e) m r)
    (hlen : i < r.answers.length) : r.answers[i]? = some false ↔ ReadLate e p i r := by
  have hfirst : (decide (i ≠ 0) || e) = false ↔ i = 0 ∧ e = false := by simp
  rw [h.refused_iff hlen, ReadLate, h.cleared, hfirst]
  split
  · next hlt =>
    have hnot : ¬ m ≤ i := Nat.not_le.mpr hlt
    simp [hnot]
  · next hge =>
    have hle : m ≤ i := Nat.not_lt.mp hge
    simp [hle, or_comm]

/-- The last byte: `ACK` off, `STOP`, and what comes. -/
theorem ends_readLast (h : Ready slave e p i r) (hdata : Filled slave i data) :
    Ends slave (readLoop i 1 data) (Returned slave i (ReadLate e p i)) r := by
  refine ends_act Ready.stable h (fun _ _ _ hacc => hacc) fun r _ hr => ?_
  generalize hm : r.answers.length = m
  let Last (k : Nat) (r : Receiver) : Prop :=
    Sound slave k r ∧ Turned p i (decide (i ≠ 0) || e) (decide (i ≠ 0) || e) m r
  have hstable : ∀ k, Stable (byteArrives slave) (Last k) := fun k s s' hs hstep =>
    ⟨Sound.stable s s' hs.1 hstep, Turned.stable s s' hs.2 hstep⟩
  have hlast : Last i (r.clearCr1 .ack) := ⟨hr.sound.clearAck, hm ▸ hr.turned⟩
  refine ends_act (hstable i) hlast (fun _ _ _ hacc => hacc) fun r _ hr => ?_
  refine ends_receive Turned.kept hr.1.setStop hr.2.setStop
    (fun r => ends_stopped HalStatus.noConfusion) fun r hsound hturned => ?_
  have hread : Last (i + 1) r := ⟨hsound, hturned⟩
  refine ends_act (hstable (i + 1)) hread (fun _ _ _ hacc => hacc) fun r _ hr => ?_
  have hlen : i < r.answers.length := by rw [hr.1.count]; omega
  exact ends_ok (fun _ => Iff.rfl) (hdata.update rfl) hr.1.setAck (hr.2.readLate_iff hlen)

theorem ends_readLoop (n : Nat) (h : Ready slave e p i r) (hdata : Filled slave i data) :
    Ends slave (readLoop i (n + 1) data) (Returned slave (i + n) (ReadLate e p (i + n))) r := by
  induction n generalizing i data r with
  | zero => exact ends_readLast h hdata
  | succ n ih =>
    refine ends_act Ready.stable h (fun _ _ _ hacc => hacc) fun r _ hr => ?_
    have heven : Even true p (r.setCr1 .ack) := by
      have hacking := hr.acking
      split at hacking
      · exact hacking.even.setAck
      · exact hacking.setAck
    refine ends_receive Even.kept hr.sound.setAck heven
      (fun r => ends_stopped HalStatus.noConfusion) fun r hsound heven => ?_
    have hready : Ready slave e p (i + 1) r := ⟨hsound, by rwa [if_neg (Nat.succ_ne_zero i)]⟩
    have hrest := ih hready (hdata.update rfl)
    rwa [show i + 1 + n = i + (n + 1) by omega] at hrest

/-! ## The read phase of `hal_i2c_write_read` -/

/-- The last three bytes: nothing arrives while two of them wait. -/
theorem ends_readLastThree (hsound : Sound slave i r) (heven : Even true p r)
    (hdata : Filled slave i data) :
    Ends slave (readLastThree i data) (Returned slave (i + 2) fun _ => p = false) r := by
  refine ends_receiveTwo Even.kept hsound heven (fun r => ends_error HalStatus.noConfusion)
    fun r hsound heven htwo => ?_
  let Full (r : Receiver) : Prop := Sound slave i r ∧ Even true p r ∧ r.pending.length = 2
  have hstable : Stable (byteArrives slave) Full := by
    rintro s s' ⟨-, -, htwo⟩ ⟨-, -, hlt, -⟩
    omega
  have hfull : Full r := ⟨hsound, heven, htwo⟩
  refine ends_act hstable hfull (fun _ _ _ hacc => hacc) fun r _ hr => ?_
  obtain ⟨hsound, heven, htwo⟩ := hr
  have hclocked : r.answers.length = i + 2 := by rw [hsound.count, htwo]
  have hturned : Turned p (i + 2) true true (i + 2) (r.clearCr1 .ack) := by
    have hturned := heven.turned (Nat.succ_ne_zero (i + 1)) (Nat.le_of_eq hclocked.symm)
    rwa [hclocked] at hturned
  have hne : (r.clearCr1 .ack).pending ≠ [] := by
    intro hnil
    have hzero : r.pending.length = 0 := congrArg List.length hnil
    omega
  refine ends_readNext Turned.kept hsound.clearAck hturned hne fun r hsound hturned => ?_
  refine ends_receiveTwo Turned.kept hsound hturned (fun r => ends_error HalStatus.noConfusion)
    fun r hsound hturned htwo => ?_
  refine ends_readPair Turned.kept hsound hturned htwo (fun r hr => hr.setStop)
    fun r hsound hturned => ?_
  let Read (r : Receiver) : Prop :=
    Sound slave (i + 1 + 2) r ∧ Turned p (i + 2) true true (i + 2) r
  have hstable : Stable (byteArrives slave) Read := fun s s' hs hstep =>
    ⟨Sound.stable s s' hs.1 hstep, Turned.stable s s' hs.2 hstep⟩
  have hread : Read r := ⟨hsound, hturned⟩
  refine ends_act hstable hread (fun _ _ _ hacc => hacc) fun r _ hr => ?_
  have hlen : i + 2 < r.answers.length := by rw [hr.1.count]; omega
  have hiff : r.answers[i + 2]? = some false ↔ p = false := by
    rw [hr.2.refused_iff hlen, if_neg (Nat.lt_irrefl _)]
    exact or_iff_left Bool.noConfusion
  exact ends_ok (fun _ => Iff.rfl) (((hdata.update rfl).update rfl).update rfl) hr.1.setAck hiff

theorem ends_readMany (n : Nat) (hsound : Sound slave i r) (heven : Even true p r)
    (hdata : Filled slave i data) :
    Ends slave (readMany i n data) (Returned slave (i + n + 2) fun _ => p = false) r := by
  induction n generalizing i data r with
  | zero => exact ends_readLastThree hsound heven hdata
  | succ n ih =>
    refine ends_receive Even.kept hsound heven (fun r => ends_error HalStatus.noConfusion)
      fun r hsound heven => ?_
    have hrest := ih hsound heven (hdata.update rfl)
    rwa [show i + 1 + n = i + (n + 1) by omega] at hrest

/-- `ACK` was set with `s` bytes complete.  The first byte was answered with `ACK` as the call
found it, if it was among them or `POS` is set. -/
structure AckSet (e p : Bool) (s : Nat) (r : Receiver) : Prop where
  even : Even true p r
  set : r.ackSetAt = s
  latched : r.answers = [] → s = 0 ∧ r.latched = e
  first : ∀ a ∈ r.answers[0]?, a = if 0 < s ∨ p = true then e else true

theorem Begun.setAck (h : Begun slave e p r) :
    AckSet e p r.answers.length (r.setCr1 .ack) := by
  refine ⟨h.even.setAck, rfl, fun hnil => ⟨congrArg List.length hnil, h.latched hnil⟩, ?_⟩
  intro a ha
  obtain ⟨hpos, -⟩ := List.getElem?_eq_some_iff.mp ha
  have hlen : 0 < r.answers.length := hpos
  rw [if_pos (Or.inl hlen)]
  exact h.first a ha

theorem AckSet.stable {s : Nat} : Stable (byteArrives slave) (AckSet e p s) := by
  intro r r' h hstep
  refine ⟨Even.stable r r' h.even hstep, ?_, ?_, ?_⟩
  all_goals obtain ⟨-, -, -, rfl⟩ := hstep
  · exact h.set
  · exact fun hnil => absurd hnil (List.append_ne_nil_of_right_ne_nil _ (List.cons_ne_nil _ _))
  · intro a ha
    rcases first_of_complete ha with ⟨hnil, hfirst⟩ | hfirst
    · obtain ⟨hs, hlatched⟩ := h.latched hnil
      rw [hfirst, Receiver.answer, h.even.pos, h.even.ack, hlatched, hs]
      cases p <;> simp
    · exact h.first a hfirst

/-! ### One byte -/

/-- The byte was complete late enough for `hal_i2c_write_read`. -/
def OneLate (e p : Bool) (r : Receiver) : Prop :=
  e = false ∧ (0 < r.ackSetAt ∨ p = true) ∨ p = false ∧ r.ackClearedAt = 0

theorem AckSet.turned {s : Nat} (h : AckSet e p s r) :
    Turned p 0 (if 0 < s ∨ p = true then e else true) e r.answers.length
      (r.clearCr1 .ack) := by
  refine ⟨rfl, h.even.pos, rfl, ?_⟩
  cases hans : r.answers with
  | nil =>
    exact Or.inr (Or.inl ⟨rfl, by simp [Receiver.clearCr1, hans], fun _ => (h.latched hans).2⟩)
  | cons a rest =>
    have ha := h.first a (by rw [hans]; rfl)
    refine Or.inl ⟨Nat.succ_pos _, ?_⟩
    rw [← ha]
    simp [Receiver.clearCr1, hans]

theorem Turned.oneLate_iff {s : Nat}
    (h : Turned p 0 (if 0 < s ∨ p = true then e else true) e m r) (hs : r.ackSetAt = s)
    (hlen : 0 < r.answers.length) : r.answers[0]? = some false ↔ OneLate e p r := by
  rw [h.refused_iff hlen, OneLate, h.cleared, hs]
  by_cases hm : 0 < m
  · have hne : m ≠ 0 := Nat.ne_of_gt hm
    rw [if_pos hm]
    split
    · next hv => simp [hv, hne]
    · next hv => simp [hv, hne]
  · have hzero : m = 0 := Nat.eq_zero_of_not_pos hm
    rw [if_neg hm, hzero]
    cases p <;> simp

theorem clearAddr_of_receiving (h : r.receiving = true) : r.clearAddr = r := if_pos h

theorem ends_readOne {s : Nat} (hsound : Sound slave 0 r) (hset : AckSet e p s r) :
    Ends slave (readOne data) (Returned slave 0 (OneLate e p)) r := by
  let Before (r : Receiver) : Prop := Sound slave 0 r ∧ AckSet e p s r
  have hstable : Stable (byteArrives slave) Before := fun r r' hr hstep =>
    ⟨Sound.stable r r' hr.1 hstep, AckSet.stable r r' hr.2 hstep⟩
  have hbefore : Before r := ⟨hsound, hset⟩
  refine ends_act hstable hbefore (fun _ _ _ hacc => hacc) fun r _ hr => ?_
  generalize hm : r.answers.length = m
  let v := if 0 < s ∨ p = true then e else true
  have hset : Kept slave fun r => r.ackSetAt = s := by
    refine ⟨?_, fun _ h => h⟩
    rintro r r' h ⟨-, -, -, rfl⟩
    exact h
  have hkept : Kept slave fun r => Turned p 0 v e m r ∧ r.ackSetAt = s := Turned.kept.and hset
  let One (r : Receiver) : Prop := Sound slave 0 r ∧ Turned p 0 v e m r ∧ r.ackSetAt = s
  have hstable : Stable (byteArrives slave) One := fun r r' hr hstep =>
    ⟨Sound.stable r r' hr.1 hstep, hkept.stable r r' hr.2 hstep⟩
  have hone : One (r.clearCr1 .ack) := ⟨hr.1.clearAck, hm ▸ hr.2.turned, hr.2.set⟩
  refine ends_act hstable hone (fun _ _ _ hacc => hacc) fun r _ hr => ?_
  refine ends_act hstable hr (fun _ _ _ hacc => hacc) fun r _ hr => ?_
  rw [clearAddr_of_receiving hr.1.receiving]
  refine ends_act hstable hr (fun _ _ _ hacc => hacc) fun r _ hr => ?_
  refine ends_receive hkept hr.1.setStop ⟨hr.2.1.setStop, hr.2.2⟩
    (fun r => ends_error HalStatus.noConfusion) fun r hsound hr => ?_
  have hlen : 0 < r.answers.length := by rw [hsound.count]; omega
  have hnone : Filled slave 0 data := fun k hk => absurd hk (Nat.not_lt_zero k)
  exact ends_ok (fun _ => Iff.rfl) (hnone.update rfl) hsound (hr.1.oneLate_iff hr.2 hlen)

/-! ### Two bytes -/

/-- The second byte was complete late enough, or, with `POS` clear, between the writes that
clear `ACK` and set `POS`. -/
def TwoLate (p : Bool) (r : Receiver) : Prop :=
  if p = true then r.ackClearedAt = 0
  else r.posSetAt = 0 ∨ r.ackClearedAt < 2 ∧ 2 ≤ r.posSetAt

/-- The first byte was refused. -/
def Refused (r : Receiver) : Prop := r.ended = true ∧ r.answers = [false]

/-- `ACK` was cleared with `m` bytes complete; `POS` is as the call found it. -/
structure TwoCleared (e p : Bool) (m : Nat) (r : Receiver) : Prop where
  ack : r.ack = false
  pos : r.pos = p
  cleared : r.ackClearedAt = m
  answers : Refused r ∨ (r.answers = [] ∧ m = 0 ∧ r.latched = e) ∨
    (r.answers.length = 1 ∧ (m = 1 ∧ r.latched = true ∨ m = 0 ∧ p = true ∧ r.latched = false)) ∨
    (2 ≤ r.answers.length ∧ r.answers[1]? = some (decide (2 ≤ m) || decide (m = 1) && p) ∧
      (m = 0 → p = true))

/-- The answer to the second byte, by how many were complete when `ACK` was cleared and `POS`
set. -/
def secondAnswer (p : Bool) (m q : Nat) : Bool :=
  decide (2 ≤ m) || decide (m = 1) && (decide (q = 1) || p)

/-- Then `POS` was set, with `q` bytes complete. -/
structure TwoPos (e p : Bool) (m q : Nat) (r : Receiver) : Prop where
  ack : r.ack = false
  pos : r.pos = true
  cleared : r.ackClearedAt = m
  posSet : r.posSetAt = q
  answers : Refused r ∨ (r.answers = [] ∧ m = 0 ∧ q = 0 ∧ r.latched = e) ∨
    (((r.answers.length = 1 ∧ r.latched = secondAnswer p m q) ∨
      (2 ≤ r.answers.length ∧ r.answers[1]? = some (secondAnswer p m q))) ∧
      (q = 0 → m = 0) ∧ (m = 0 → q = 1 → p = true))

theorem AckSet.twoCleared {s : Nat} (h : AckSet e p s r) :
    TwoCleared e p r.answers.length (r.clearCr1 .ack) := by
  refine ⟨rfl, h.even.pos, rfl, ?_⟩
  rcases h.even.answers with ⟨-, hall, hlatched⟩ | hdead
  · rcases Nat.lt_trichotomy r.answers.length 1 with hzero | hone | htwo
    · have hnil : r.answers = [] := List.length_eq_zero_iff.mp (by omega)
      exact Or.inr (Or.inl ⟨hnil, congrArg List.length hnil, (h.latched hnil).2⟩)
    · have hne : r.answers ≠ [] := fun hnil => by simp [hnil] at hone
      exact Or.inr (Or.inr (Or.inl ⟨hone, Or.inl ⟨hone, hlatched hne⟩⟩))
    · refine Or.inr (Or.inr (Or.inr ⟨htwo, ?_, fun hzero => by omega⟩))
      have htrue : decide (2 ≤ r.answers.length) = true := decide_eq_true htwo
      rw [htrue, Bool.true_or]
      exact get_of_all hall htwo
  · exact Or.inl hdead

theorem Refused.not_going (h : Refused r) (hover : r.ended = false) : False := by
  rw [h.1] at hover
  cases hover

theorem second_of_complete (slave : Nat → BitVec 8) {a : Bool} (hlen : r.answers.length = 1)
    (ha : r.answer = a) :
    2 ≤ (r.complete slave).answers.length ∧ (r.complete slave).answers[1]? = some a := by
  obtain ⟨b, hb⟩ := List.length_eq_one_iff.mp hlen
  simp [Receiver.complete, hb, ha]

theorem first_refused (hnil : r.answers = []) (ha : r.answer = false) :
    Refused (r.complete slave) := by
  simp [Refused, Receiver.complete, hnil, ha]

theorem TwoCleared.stable : Stable (byteArrives slave) (TwoCleared e p m) := by
  rintro r r' h ⟨-, hover, -, rfl⟩
  obtain ⟨hack, hpos, hcleared, hanswers⟩ := h
  refine ⟨hack, hpos, hcleared, ?_⟩
  have hanswer : r.answer = if p then r.latched else false := by
    rw [Receiver.answer, hpos, hack]
  rcases hanswers with hdead | ⟨hnil, hm, hlatched⟩ | ⟨hone, hcase⟩ | ⟨htwo, hsecond, hp⟩
  · exact (hdead.not_going hover).elim
  · rw [hlatched] at hanswer
    cases ha : r.answer with
    | false => exact Or.inl (first_refused hnil ha)
    | true =>
      have hp : p = true := by
        cases p with
        | true => rfl
        | false => rw [ha] at hanswer; cases hanswer
      refine Or.inr (Or.inr (Or.inl ⟨?_, Or.inr ⟨hm, hp, hack⟩⟩))
      simp [Receiver.complete, hnil]
  · refine Or.inr (Or.inr (Or.inr ?_))
    rcases hcase with ⟨hm, hlatched⟩ | ⟨hm, hp, hlatched⟩
    · rw [hlatched] at hanswer
      obtain ⟨htwo, hsecond⟩ := second_of_complete slave hone hanswer
      refine ⟨htwo, ?_, fun hzero => by omega⟩
      rw [hsecond, hm]
      cases p <;> rfl
    · rw [hlatched] at hanswer
      obtain ⟨htwo, hsecond⟩ := second_of_complete slave hone hanswer
      refine ⟨htwo, ?_, fun _ => hp⟩
      rw [hsecond, hm]
      cases p <;> rfl
  · refine Or.inr (Or.inr (Or.inr ⟨?_, getElem?_append_some hsecond, hp⟩))
    exact Nat.le_trans htwo (List.length_append ▸ Nat.le_add_right _ _)

theorem TwoCleared.setPos (h : TwoCleared e p m r) :
    TwoPos e p m r.answers.length (r.setCr1 .pos) := by
  obtain ⟨hack, hpos, hcleared, hanswers⟩ := h
  refine ⟨hack, rfl, hcleared, rfl, ?_⟩
  rcases hanswers with hdead | ⟨hnil, hm, hlatched⟩ | ⟨hone, hcase⟩ | ⟨htwo, hsecond, hp⟩
  · exact Or.inl hdead
  · exact Or.inr (Or.inl ⟨hnil, hm, congrArg List.length hnil, hlatched⟩)
  · refine Or.inr (Or.inr ⟨Or.inl ⟨hone, ?_⟩, fun hzero => by omega, ?_⟩)
    · rcases hcase with ⟨hm, hlatched⟩ | ⟨hm, hp, hlatched⟩
      · exact hlatched.trans (by rw [hm, hone]; rfl)
      · exact hlatched.trans (by rw [hm, hone]; rfl)
    · rcases hcase with ⟨hm, -⟩ | ⟨-, hp, -⟩
      · exact fun hzero => by omega
      · exact fun _ _ => hp
  · refine Or.inr (Or.inr ⟨Or.inr ⟨htwo, ?_⟩, fun hzero => by omega, fun hzero _ => hp hzero⟩)
    have hne : decide (r.answers.length = 1) = false := decide_eq_false (by omega)
    rw [secondAnswer, hne, Bool.false_or]
    exact hsecond

theorem TwoPos.stable {q : Nat} : Stable (byteArrives slave) (TwoPos e p m q) := by
  rintro r r' h ⟨-, hover, -, rfl⟩
  obtain ⟨hack, hpos, hcleared, hposSet, hanswers⟩ := h
  refine ⟨hack, hpos, hcleared, hposSet, ?_⟩
  have hanswer : r.answer = r.latched := by rw [Receiver.answer, if_pos hpos]
  rcases hanswers with hdead | ⟨hnil, hm, hq, -⟩ | ⟨⟨hone, hlatched⟩ | ⟨htwo, hsecond⟩, hside⟩
  · exact (hdead.not_going hover).elim
  · cases ha : r.answer with
    | false => exact Or.inl (first_refused hnil ha)
    | true =>
      refine Or.inr (Or.inr ⟨Or.inl ⟨by simp [Receiver.complete, hnil], ?_⟩, fun _ => hm, by omega⟩)
      rw [hm, hq]
      exact hack
  · exact Or.inr (Or.inr ⟨Or.inr (second_of_complete slave hone (hanswer.trans hlatched)), hside⟩)
  · refine Or.inr (Or.inr ⟨Or.inr ⟨?_, getElem?_append_some hsecond⟩, hside⟩)
    exact Nat.le_trans htwo (List.length_append ▸ Nat.le_add_right _ _)

theorem TwoPos.kept {q : Nat} : Kept slave (TwoPos e p m q) :=
  ⟨TwoPos.stable, fun _ h => ⟨h.ack, h.pos, h.cleared, h.posSet, h.answers⟩⟩

theorem TwoPos.setStop {q : Nat} (h : TwoPos e p m q r) : TwoPos e p m q (r.setCr1 .stop) := by
  obtain ⟨hack, hpos, hcleared, hposSet, hanswers⟩ := h
  refine ⟨hack, hpos, hcleared, hposSet, ?_⟩
  rcases hanswers with hdead | hrest
  · exact Or.inl ⟨Bool.or_eq_true_iff.mpr (Or.inl hdead.1), hdead.2⟩
  · exact Or.inr hrest

theorem TwoPos.twoLate_iff {q : Nat} (h : TwoPos e p m q r) (hlen : 2 ≤ r.answers.length) :
    r.answers[1]? = some false ↔ TwoLate p r := by
  rcases h.answers with ⟨-, hdead⟩ | ⟨hnil, -⟩ | ⟨⟨hone, -⟩ | ⟨-, hsecond⟩, hzero, hp⟩
  · rw [hdead] at hlen
    exact absurd hlen (by decide)
  · rw [hnil] at hlen
    exact absurd hlen (by decide)
  · omega
  · rw [hsecond, Option.some_inj, TwoLate, h.cleared, h.posSet, secondAnswer]
    cases p with
    | true =>
      simp
      omega
    | false =>
      have hq : m = 0 → q ≠ 1 := fun hm hq => Bool.noConfusion (hp hm hq)
      simp
      omega

theorem ends_readTwo {s : Nat} (hsound : Sound slave 0 r) (hset : AckSet e p s r) :
    Ends slave (readTwo data) (Returned slave 1 (TwoLate p)) r := by
  let Before (r : Receiver) : Prop := Sound slave 0 r ∧ AckSet e p s r
  have hstable : Stable (byteArrives slave) Before := fun r r' hr hstep =>
    ⟨Sound.stable r r' hr.1 hstep, AckSet.stable r r' hr.2 hstep⟩
  have hbefore : Before r := ⟨hsound, hset⟩
  refine ends_act hstable hbefore (fun _ _ _ hacc => hacc) fun r _ hr => ?_
  generalize hm : r.answers.length = m
  let Cleared (r : Receiver) : Prop := Sound slave 0 r ∧ TwoCleared e p m r
  have hstable : Stable (byteArrives slave) Cleared := fun r r' hr hstep =>
    ⟨Sound.stable r r' hr.1 hstep, TwoCleared.stable r r' hr.2 hstep⟩
  have hcleared : Cleared (r.clearCr1 .ack) := ⟨hr.1.clearAck, hm ▸ hr.2.twoCleared⟩
  refine ends_act hstable hcleared (fun _ _ _ hacc => hacc) fun r _ hr => ?_
  generalize hq : r.answers.length = q
  let Two (k : Nat) (r : Receiver) : Prop := Sound slave k r ∧ TwoPos e p m q r
  have hstable : ∀ k, Stable (byteArrives slave) (Two k) := fun k r r' hr hstep =>
    ⟨Sound.stable r r' hr.1 hstep, TwoPos.stable r r' hr.2 hstep⟩
  have htwo : Two 0 (r.setCr1 .pos) := ⟨hr.1.congr rfl rfl rfl id, hq ▸ hr.2.setPos⟩
  refine ends_act (hstable 0) htwo (fun _ _ _ hacc => hacc) fun r _ hr => ?_
  refine ends_act (hstable 0) hr (fun _ _ _ hacc => hacc) fun r _ hr => ?_
  rw [clearAddr_of_receiving hr.1.receiving]
  refine ends_receiveTwo TwoPos.kept hr.1 hr.2 (fun r => ends_error HalStatus.noConfusion)
    fun r hsound hpos htwo => ?_
  refine ends_readPair TwoPos.kept hsound hpos htwo (fun r hr => hr.setStop)
    fun r hsound hpos => ?_
  have hread : Two 2 r := ⟨hsound, hpos⟩
  refine ends_act (hstable 2) hread (fun _ _ _ hacc => hacc) fun r _ hr => ?_
  have hlen : 2 ≤ r.answers.length := by rw [hr.1.count]; omega
  have hnone : Filled slave 0 data := fun k hk => absurd hk (Nat.not_lt_zero k)
  exact ends_ok (fun _ => Iff.rfl) ((hnone.update rfl).update rfl) (hr.1.congr rfl rfl rfl id)
    (hr.2.twoLate_iff hlen)

/-- The last byte was complete late enough for `hal_i2c_write_read`. -/
def WriteReadLate (e p : Bool) (n : Nat) (r : Receiver) : Prop :=
  if n = 0 then OneLate e p r else if n = 1 then TwoLate p r else p = false

theorem ends_readPhase (rxLen : UInt16) (hlen : rxLen.toNat = n + 1) (h : Begun slave e p r) :
    Ends slave (readPhase data rxLen) (Returned slave n (WriteReadLate e p n)) r := by
  refine ends_act Begun.stable h (fun _ _ _ hacc => hacc) fun r _ hr => ?_
  have hsound : Sound slave 0 (r.setCr1 .ack) := hr.sound.setAck
  have hset := hr.setAck
  unfold WriteReadLate
  split
  · next hone =>
    have hzero : n = 0 := by
      have hval : rxLen.toNat = 1 := congrArg UInt16.toNat hone
      omega
    subst hzero
    exact ends_readOne hsound hset
  · next hone =>
    have hne : n ≠ 0 := fun hzero => hone (UInt16.toNat_inj.mp (by rw [hlen, hzero]; rfl))
    simp only [if_neg hne]
    split
    · next htwo =>
      have hval : n = 1 := by
        have hval : rxLen.toNat = 2 := congrArg UInt16.toNat htwo
        omega
      subst hval
      exact ends_readTwo hsound hset
    · next htwo =>
      have hne' : n ≠ 1 := fun hval => htwo (UInt16.toNat_inj.mp (by rw [hlen, hval]; rfl))
      simp only [if_neg hne']
      let Before (r : Receiver) : Prop := Sound slave 0 r ∧ Even true p r
      have hstable : Stable (byteArrives slave) Before := fun r r' hr hstep =>
        ⟨Sound.stable r r' hr.1 hstep, Even.stable r r' hr.2 hstep⟩
      have hbefore : Before (r.setCr1 .ack) := ⟨hsound, hset.even⟩
      refine ends_act hstable hbefore (fun _ _ _ hacc => hacc) fun r _ hr => ?_
      refine ends_act hstable hr (fun _ _ _ hacc => hacc) fun r _ hr => ?_
      rw [clearAddr_of_receiving hr.1.receiving]
      have hnone : Filled slave 0 data := fun k hk => absurd hk (Nat.not_lt_zero k)
      have hmany := ends_readMany (n - 2) hr.1 hr.2 hnone
      rwa [show 0 + (n - 2) + 2 = n by omega, show n - 2 = rxLen.toNat - 3 by omega] at hmany

end

/-! ## Whole calls -/

/-- A call of `hal_i2c_read`, or, with what it writes first, of `hal_i2c_write_read`. -/
structure Reception where
  bus : UInt32
  devAddr : BitVec 8
  tx : Option ((Nat → BitVec 8) × UInt16)
  data : Buffer
  len : UInt16

def Reception.program (call : Reception) : I2cProgram (HalStatus × Buffer) :=
  match call.tx with
  | none => stm32I2cRead call.bus call.devAddr call.data call.len
  | some (txData, txLen) =>
    stm32I2cWriteRead call.bus call.devAddr txData txLen call.data call.len

/-- Its last byte was complete after the driver had prepared the answer to it. -/
def Reception.InTime (call : Reception) (before after : Receiver) : Prop :=
  match call.tx with
  | none => ReadLate before.ack before.pos (call.len.toNat - 1) after
  | some _ => WriteReadLate before.ack before.pos (call.len.toNat - 1) after

/-- The buffer holds the slave's first bytes, all but the last of which were acknowledged,
and nothing more was clocked. -/
def ExactBytes (slave : Nat → BitVec 8) (len : UInt16) (data : Buffer) (r : Receiver) : Prop :=
  (∀ k < len.toNat, data k = slave k) ∧
    r.answers = List.replicate (len.toNat - 1) true ++ [false]

section

variable {slave : Nat → BitVec 8} {e p : Bool} {n : Nat} {r : Receiver}

theorem readAddr_bit (devAddr : BitVec 8) : (devAddr <<< 1 ||| 1).getLsbD 0 = true := by
  rw [BitVec.getLsbD_or, Bool.or_eq_true]
  exact Or.inr rfl

theorem writeAddr_bit (devAddr : BitVec 8) : (devAddr <<< 1 ||| 0).getLsbD 0 = false := by
  rw [BitVec.getLsbD_or, BitVec.getLsbD_shiftLeft]
  rfl

theorem ends_read (bus : UInt32) (devAddr : BitVec 8) (data : Buffer) (len : UInt16)
    (hlen : len.toNat = n + 1) (h : Entered e p r) :
    Ends slave (stm32I2cRead bus devAddr data len) (Returned slave n (ReadLate e p n)) r := by
  have hne : ¬ len = 0 := fun hzero => by simp [hzero] at hlen
  rw [stm32I2cRead, if_neg hne]
  split
  · exact ends_error HalStatus.noConfusion
  · refine (ends_start h).bind fun status r hr => ?_
    split
    · exact ends_error HalStatus.noConfusion
    · refine (ends_writeAddr _ hr).bind fun status r hr => ?_
      split
      · exact ends_stopped HalStatus.noConfusion
      · next hok =>
        have hbegun := hr (Decidable.not_not.mp hok)
        rw [if_pos (readAddr_bit devAddr)] at hbegun
        have hready : Ready slave e p 0 r := ⟨hbegun.sound, by rwa [if_pos rfl]⟩
        have hnone : Filled slave 0 data := fun k hk => absurd hk (Nat.not_lt_zero k)
        have hloop := ends_readLoop n hready hnone
        rwa [Nat.zero_add, ← hlen] at hloop

theorem ends_writeRead (bus : UInt32) (devAddr : BitVec 8) (txData : Nat → BitVec 8)
    (txLen : UInt16) (data : Buffer) (len : UInt16) (hlen : len.toNat = n + 1)
    (h : Entered e p r) :
    Ends slave (stm32I2cWriteRead bus devAddr txData txLen data len)
      (Returned slave n (WriteReadLate e p n)) r := by
  have hne : ¬ len = 0 := fun hzero => by simp [hzero] at hlen
  rw [stm32I2cWriteRead, if_neg hne]
  split
  · exact ends_error HalStatus.noConfusion
  · refine (ends_start h).bind fun status r hr => ?_
    split
    · next hfail => exact ends_error hfail
    · refine (ends_writeAddr _ hr).bind fun status r hr => ?_
      split
      · next hfail => exact ends_stopped hfail
      · next hok =>
        have hstarted := hr (Decidable.not_not.mp hok)
        rw [writeAddr_bit, if_neg Bool.false_ne_true] at hstarted
        refine (ends_writeLoop txData 0 txLen.toNat hstarted).bind fun status r hr => ?_
        split
        · next hfail => exact ends_error hfail
        · next hok =>
          have hsent := hr (Decidable.not_not.mp hok)
          refine (ends_start ⟨hsent.ack, hsent.pos⟩).bind fun status r hr => ?_
          split
          · next hfail => exact ends_stopped hfail
          · refine (ends_writeAddr _ hr).bind fun status r hr => ?_
            split
            · next hfail => exact ends_stopped hfail
            · next hok =>
              have hbegun := hr (Decidable.not_not.mp hok)
              rw [if_pos (readAddr_bit devAddr)] at hbegun
              exact ends_readPhase len hlen hbegun

end

/-- **A read of `N` bytes that returns `HAL_OK`, from any state of the peripheral and however
the bytes come between its accesses, clocked exactly `N` bytes if and only if the last one was
complete after its answer had been prepared.** -/
theorem exact_bytes_iff (slave : Nat → BitVec 8) (call : Reception) (before after : Receiver)
    (data : Buffer) (hlen : 1 ≤ call.len.toNat)
    (hruns : Runs (byteArrives slave) accessed call.program before (.ok, data) after) :
    ExactBytes slave call.len data after ↔ call.InTime before after := by
  obtain ⟨bus, devAddr, tx, buffer, len⟩ := call
  obtain ⟨n, hn⟩ : ∃ n, len.toNat = n + 1 := by
    have hpos : 1 ≤ len.toNat := hlen
    exact ⟨len.toNat - 1, by omega⟩
  have hreturned : ∀ {late : Receiver → Prop}, Returned slave n late (.ok, data) after →
      (ExactBytes slave len data after ↔ late after) := by
    intro late h
    obtain ⟨hfilled, hsound, hiff⟩ := h rfl
    rw [ExactBytes, hn, Nat.add_sub_cancel, hsound.exact_iff, hiff]
    exact and_iff_right hfilled
  have hentered : Entered before.ack before.pos before := ⟨rfl, rfl⟩
  unfold Reception.InTime
  rw [hn, Nat.add_sub_cancel]
  cases tx with
  | none => exact hreturned (ends_read bus devAddr buffer len hn hentered _ _ hruns)
  | some tx =>
    obtain ⟨txData, txLen⟩ := tx
    exact hreturned (ends_writeRead bus devAddr txData txLen buffer len hn hentered _ _ hruns)

/-! ## Bytes that come when they are waited for -/

section

variable {slave : Nat → BitVec 8} {r : Receiver}

theorem runs_byte (hrec : r.receiving = true) (hover : r.ended = false) (hnone : r.pending = [])
    {rest : BitVec 8 → I2cProgram (HalStatus × Buffer)} {data : Buffer} {a : HalStatus × Buffer}
    {t : Receiver} (h : Runs (byteArrives slave) accessed (rest (slave r.answers.length))
      { r.complete slave with pending := [] } a t) :
    Runs (byteArrives slave) accessed (do
      if !(← awaitFlag .rxne) then
        i2cStop
        return (.errTimeout, data)
      let byte ← readDr
      rest byte) r a t := by
  have harrives : byteArrives slave r (r.complete slave) :=
    ⟨hrec, hover, by rw [hnone]; exact Nat.zero_lt_two, rfl⟩
  have hflag : accessed (.waitFlag .rxne) (r.complete slave) true (r.complete slave) :=
    ⟨rfl, fun _ => by simp [Receiver.complete, hnone]⟩
  have hread : accessed .readDr (r.complete slave) (slave r.answers.length)
      { r.complete slave with pending := [] } := by
    simp [accessed, Receiver.complete, hnone]
  exact Runs.device_step harrives (Runs.access_step hflag (Runs.access_step hread h))

/-- The loop clears `ACK` before its last byte has come. -/
theorem runs_readLoop (slave : Nat → BitVec 8) (n i : Nat) (data : Buffer) (hrec : r.receiving = true)
    (hgoing : r.stopping = false) (hover : r.ended = false) (hpos : r.pos = false)
    (hnone : r.pending = []) :
    ∃ data' t, Runs (byteArrives slave) accessed (readLoop i (n + 1) data) r (.ok, data') t ∧
      t.ackClearedAt = r.answers.length + n := by
  induction n generalizing i data r with
  | zero =>
    let last := (r.clearCr1 .ack).setCr1 .stop
    have hlast : last.ended = false := by
      change (r.ended || decide (r.pending.length = 2)) = false
      rw [hover, hnone]
      rfl
    refine ⟨Function.update data i (slave last.answers.length),
      Receiver.setCr1 .ack { last.complete slave with pending := [] }, ?_, rfl⟩
    refine Runs.access_step (b := ()) rfl (Runs.access_step (b := ()) rfl ?_)
    exact runs_byte (r := last) hrec hlast hnone
      (Runs.access_step (b := ()) rfl (Runs.done _ _))
  | succ n ih =>
    let acking := r.setCr1 .ack
    obtain ⟨data', t, hruns, hcleared⟩ := ih (i + 1)
      (Function.update data i (slave acking.answers.length))
      (r := { acking.complete slave with pending := [] }) hrec hgoing
      (by simp [acking, Receiver.complete, Receiver.answer, Receiver.setCr1, hpos, hgoing])
      hpos rfl
    refine ⟨data', t, Runs.access_step (b := ()) rfl (runs_byte (r := acking) hrec hover hnone hruns),
      ?_⟩
    rw [hcleared]
    simp [acking, Receiver.complete, Receiver.setCr1]
    omega

end

/-- An idle peripheral. -/
def idle (ack : Bool) : Receiver := ⟨ack, false, 0, false, [], [], false, false, false, 0, 0, 0⟩

theorem runs_read (slave : Nat → BitVec 8) (ack : Bool) (devAddr : BitVec 8) (data : Buffer)
    {len : UInt16} {n : Nat} (hlen : len.toNat = n + 1) :
    ∃ data' t, Runs (byteArrives slave) accessed (stm32I2cRead 0 devAddr data len) (idle ack)
      (.ok, data') t ∧ t.ackClearedAt = n := by
  have hne : ¬ len = 0 := fun hzero => by simp [hzero] at hlen
  let begun : Receiver :=
    ⟨ack, false, devAddr <<< 1 ||| 1, true, [], [], ack, false, false, 0, 0, 0⟩
  obtain ⟨data', t, hruns, hcleared⟩ :=
    runs_readLoop slave (r := begun) n 0 data rfl rfl rfl rfl rfl
  have hclear : accessed .readSr2 { begun with receiving := false, latched := false } () begun := by
    simp [accessed, Receiver.clearAddr, begun]
  refine ⟨data', t, ?_, hcleared.trans (Nat.zero_add n)⟩
  rw [stm32I2cRead, if_neg hne, hlen]
  refine Runs.access_step (b := ()) rfl ?_
  refine Runs.access_step (b := true) ⟨rfl, fun hrec => Bool.noConfusion hrec⟩ ?_
  refine Runs.access_step (b := ()) rfl ?_
  refine Runs.access_step (b := true) ⟨rfl, fun hrec => Bool.noConfusion hrec⟩ ?_
  refine Runs.access_step (b := ()) rfl ?_
  exact Runs.access_step (b := ()) hclear hruns

def oneByteRead : Reception := ⟨0, 0x68, none, fun _ => 0, 1⟩

def threeByteRead : Reception := ⟨0, 0x68, none, fun _ => 0, 3⟩

/-! ## A byte that comes early -/

/-- The byte of a one-byte read is complete before `ACK` is cleared. -/
theorem early_byte_runs (ack : Bool) :
    Runs (byteArrives fun _ => 0x75) accessed oneByteRead.program (idle ack)
      (.ok, Function.update (fun _ => 0) 0 0x75)
      ⟨true, false, 0xD1, true, [], [ack], ack, true, !ack, 1, 1, 0⟩ := by
  have hclear : accessed .readSr2 ⟨ack, false, 0xD1, false, [], [], false, false, false, 0, 0, 0⟩ ()
      ⟨ack, false, 0xD1, true, [], [], ack, false, false, 0, 0, 0⟩ := by
    simp [accessed, Receiver.clearAddr]
  have hbyte : byteArrives (fun _ => 0x75)
      ⟨ack, false, 0xD1, true, [], [], ack, false, false, 0, 0, 0⟩
      ⟨ack, false, 0xD1, true, [0x75], [ack], ack, false, !ack, 0, 0, 0⟩ := by
    refine ⟨rfl, rfl, Nat.zero_lt_two, ?_⟩
    simp [Receiver.complete, Receiver.answer]
  have hstop : accessed (.setCr1 .stop)
      ⟨false, false, 0xD1, true, [0x75], [ack], ack, false, !ack, 0, 1, 0⟩ ()
      ⟨false, false, 0xD1, true, [0x75], [ack], ack, true, !ack, 0, 1, 0⟩ := by
    simp [accessed, Receiver.setCr1]
  unfold idle
  refine Runs.access_step (b := ()) rfl ?_
  refine Runs.access_step (b := true) ⟨rfl, fun hrec => Bool.noConfusion hrec⟩ ?_
  refine Runs.access_step (b := ()) rfl ?_
  refine Runs.access_step (b := true) ⟨rfl, fun hrec => Bool.noConfusion hrec⟩ ?_
  refine Runs.access_step (b := ()) rfl ?_
  refine Runs.access_step (b := ()) hclear ?_
  refine Runs.device_step hbyte ?_
  refine Runs.access_step (b := ()) rfl ?_
  refine Runs.access_step (b := ()) hstop ?_
  refine Runs.access_step (b := true) ⟨rfl, fun _ => rfl⟩ ?_
  refine Runs.access_step (b := 0x75) ⟨fun first hfirst => Option.some.inj hfirst, rfl⟩ ?_
  refine Runs.access_step (b := ()) rfl ?_
  exact Runs.done _ _

/-- Three bytes that come in time; and one that comes early, but with `ACK` off when the call
begins, so that it does no harm. -/
theorem exact_three_and_one :
    (∃ data after, Runs (byteArrives (BitVec.ofNat 8)) accessed threeByteRead.program (idle true)
        (.ok, data) after ∧ ExactBytes (BitVec.ofNat 8) 3 data after) ∧
      ExactBytes (fun _ => 0x75) 1 (Function.update (fun _ => 0) 0 0x75)
        ⟨true, false, 0xD1, true, [], [false], false, true, true, 1, 1, 0⟩ := by
  have hlen : (3 : UInt16).toNat = 2 + 1 := rfl
  obtain ⟨data, after, hruns, hcleared⟩ := runs_read (BitVec.ofNat 8) true 0x68 (fun _ => 0) hlen
  have hexact := exact_bytes_iff (BitVec.ofNat 8) threeByteRead (idle true) after data (by decide)
    hruns
  refine ⟨⟨data, after, hruns, hexact.mpr (Or.inr ⟨rfl, Nat.le_of_eq hcleared⟩)⟩, ?_⟩
  exact (exact_bytes_iff (fun _ => 0x75) oneByteRead (idle false) _ _ (by decide)
    (early_byte_runs false)).mpr (Or.inl ⟨rfl, rfl⟩)

/-- With `ACK` on, as every read leaves it, the byte is acknowledged, and a second one is on its
way when the call returns `HAL_OK`. -/
theorem early_byte_acknowledged :
    ∃ data after after',
      Runs (byteArrives fun _ => 0x75) accessed oneByteRead.program (idle true) (.ok, data) after ∧
      ¬ ExactBytes (fun _ => 0x75) oneByteRead.len data after ∧
      byteArrives (fun _ => 0x75) after after' := by
  refine ⟨_, _, _, early_byte_runs true, fun h => ?_, rfl, rfl, Nat.zero_lt_two, rfl⟩
  have hacked : [true] = [false] := h.2
  exact absurd hacked (by decide)

end NavHAL.I2c.F4
