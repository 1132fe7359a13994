import NavHAL.I2c.F4Receiver

/-!
# Rules for a driver that receives

What each access does to an assertion about the receiver, the part of a call that comes before
the bytes, and how the driver waits for bytes and reads them.
-/

namespace NavHAL.I2c.F4

open Access (Ensures Stable ensures_access ensures_done)

section

variable {slave : Nat → BitVec 8}

/-! ## Rules for the accesses -/

/-- All runs of a program with a slave that sends these bytes. -/
abbrev Ends {α : Type} (slave : Nat → BitVec 8) (prog : I2cProgram α) (Q : α → Receiver → Prop)
    (r : Receiver) : Prop :=
  Ensures (byteArrives slave) accessed prog Q r

variable {α : Type} {Q : α → Receiver → Prop} {I : Receiver → Prop} {r : Receiver}
  (hstable : Stable (byteArrives slave) I) (h : I r)

include hstable h

/-- An access that has one effect. -/
theorem ends_act {i : I2cAccess} {next : Answer i → I2cProgram α} {f : Receiver → Receiver}
    (heffect : ∀ r b r', accessed i r b r' → r' = f r)
    (hnext : ∀ r b, I r → Ends slave (next b) Q (f r)) :
    Ends slave (.access i next) Q r := by
  refine ensures_access hstable (fun s b s' hs hacc => ?_) h
  rw [heffect s b s' hacc]
  exact hnext s b hs

/-- A wait whose outcome is left open. -/
theorem ends_wait {flag : Sr1Flag} {next : Bool → I2cProgram α}
    (hnext : ∀ seen r, I r → Ends slave (next seen) Q r) :
    Ends slave (.access (.waitFlag flag) next) Q r := by
  refine ensures_access hstable (fun s b s' hs hacc => ?_) h
  obtain ⟨rfl, -⟩ := hacc
  exact hnext b _ hs

theorem ends_rxne {next : Bool → I2cProgram α} (hrec : ∀ r, I r → r.receiving = true)
    (hseen : ∀ r, I r → r.pending ≠ [] → Ends slave (next true) Q r)
    (hnot : ∀ r, I r → Ends slave (next false) Q r) :
    Ends slave (.access (.waitFlag .rxne) next) Q r := by
  refine ensures_access hstable (fun s b s' hs hacc => ?_) h
  obtain ⟨rfl, hshows⟩ := hacc
  have hflag : b = !s'.pending.isEmpty := hshows (hrec _ hs)
  cases b with
  | true => exact hseen _ hs fun hnil => by simp [hnil] at hflag
  | false => exact hnot _ hs

theorem ends_btf {next : Bool → I2cProgram α} (hrec : ∀ r, I r → r.receiving = true)
    (hseen : ∀ r, I r → r.pending.length = 2 → Ends slave (next true) Q r)
    (hnot : ∀ r, I r → Ends slave (next false) Q r) :
    Ends slave (.access (.waitFlag .btf) next) Q r := by
  refine ensures_access hstable (fun s b s' hs hacc => ?_) h
  obtain ⟨rfl, hshows⟩ := hacc
  have hflag : b = decide (s'.pending.length = 2) := hshows (hrec _ hs)
  cases b with
  | true => exact hseen _ hs (of_decide_eq_true hflag.symm)
  | false => exact hnot _ hs

theorem ends_readDr {next : BitVec 8 → I2cProgram α}
    (hnext : ∀ r byte, I r → (∀ first ∈ r.pending.head?, byte = first) →
      Ends slave (next byte) Q { r with pending := r.pending.tail }) :
    Ends slave (.access .readDr next) Q r := by
  refine ensures_access hstable (fun s b s' hs hacc => ?_) h
  obtain ⟨hbyte, rfl⟩ := hacc
  exact hnext s b hs hbyte

end

/-! ## Up to the bytes -/

section

variable {slave : Nat → BitVec 8} {e p : Bool} {r : Receiver}

/-- `ACK` and `POS` as the call finds them. -/
def Entered (e p : Bool) (r : Receiver) : Prop := r.ack = e ∧ r.pos = p

theorem Entered.stable : Stable (byteArrives slave) (Entered e p) := by
  rintro r r' h ⟨-, -, -, rfl⟩
  exact h

/-- After a `START`. -/
structure Started (e p : Bool) (r : Receiver) : Prop where
  ack : r.ack = e
  pos : r.pos = p
  receiving : r.receiving = false
  answers : r.answers = []
  stopping : r.stopping = false
  ended : r.ended = false

theorem Started.stable : Stable (byteArrives slave) (Started e p) := by
  rintro r r' h ⟨hrec, -⟩
  rw [h.receiving] at hrec
  cases hrec

/-- `ADDR` is cleared: the bytes may have begun to arrive. -/
structure Begun (slave : Nat → BitVec 8) (e p : Bool) (r : Receiver) : Prop where
  sound : Sound slave 0 r
  even : Even e p r
  latched : r.answers = [] → r.latched = e
  first : ∀ a ∈ r.answers[0]?, a = e

/-- The first answer is an old one, or the one just given. -/
theorem first_of_complete {a : Bool} (h : a ∈ (r.complete slave).answers[0]?) :
    r.answers = [] ∧ a = r.answer ∨ a ∈ r.answers[0]? := by
  cases hans : r.answers with
  | nil =>
    simp only [Receiver.complete, hans, List.nil_append, List.getElem?_cons_zero,
      Option.mem_some_iff] at h
    exact Or.inl ⟨rfl, h.symm⟩
  | cons b rest =>
    simp only [Receiver.complete, hans, List.cons_append, List.getElem?_cons_zero] at h
    exact Or.inr h

theorem Begun.stable : Stable (byteArrives slave) (Begun slave e p) := by
  intro r r' h hstep
  refine ⟨Sound.stable r r' h.sound hstep, Even.stable r r' h.even hstep, fun hnil => ?_, ?_⟩
  · obtain ⟨-, -, -, rfl⟩ := hstep
    exact absurd hnil (List.append_ne_nil_of_right_ne_nil _ (List.cons_ne_nil _ _))
  · obtain ⟨-, -, -, rfl⟩ := hstep
    intro a ha
    rcases first_of_complete ha with ⟨hnil, hfirst⟩ | hfirst
    · rw [hfirst, Receiver.answer, h.even.ack, h.latched hnil, ite_self]
    · exact h.first a hfirst

theorem ends_start (h : Entered e p r) : Ends slave i2cStart (fun _ => Started e p) r := by
  refine ends_act Entered.stable h (fun _ _ _ hacc => hacc) fun r _ hr => ?_
  have hstarted : Started e p (r.setCr1 .start) := ⟨hr.1, hr.2, rfl, rfl, rfl, rfl⟩
  refine ends_wait Started.stable hstarted fun seen r hr => ?_
  cases seen <;> exact ensures_done Started.stable hr

/-- The peripheral after an address that was answered, by its lowest bit. -/
def Addressed (slave : Nat → BitVec 8) (e p : Bool) (addr : BitVec 8) (status : HalStatus)
    (r : Receiver) : Prop :=
  status = .ok → if addr.getLsbD 0 then Begun slave e p r else Started e p r

theorem Addressed.stable {addr : BitVec 8} {status : HalStatus} :
    Stable (byteArrives slave) (Addressed slave e p addr status) := by
  intro r r' h hstep hok
  have hr := h hok
  split at hr
  · next hbit =>
    rw [if_pos hbit]
    exact Begun.stable r r' hr hstep
  · next hbit =>
    rw [if_neg hbit]
    exact Started.stable r r' hr hstep

theorem ends_writeAddr (addr : BitVec 8) (h : Started e p r) :
    Ends slave (i2cWriteAddr addr) (Addressed slave e p addr) r := by
  have hwritten : ∀ r, Started e p r → Started e p { r with written := addr, pending := [] } :=
    fun r hr => ⟨hr.ack, hr.pos, hr.receiving, hr.answers, hr.stopping, hr.ended⟩
  let Waiting (r : Receiver) : Prop := Started e p r ∧ r.written = addr ∧ r.pending = []
  have hstable : Stable (byteArrives slave) Waiting := by
    intro r r' hr hstep
    have hrec : r.receiving = true := hstep.1
    rw [hr.1.receiving] at hrec
    cases hrec
  refine ends_act Started.stable h (fun _ _ _ hacc => hacc) fun r _ hr => ?_
  have hwaiting : Waiting { r with written := addr, pending := [] } := ⟨hwritten r hr, rfl, rfl⟩
  refine ends_wait hstable hwaiting fun seen r hr => ?_
  cases seen with
  | false => exact ensures_done Addressed.stable fun hok => HalStatus.noConfusion hok
  | true =>
    refine ends_act hstable hr (fun _ _ _ hacc => hacc) fun r _ hr => ?_
    refine ends_act hstable hr (fun _ _ _ hacc => hacc) fun r _ hr => ?_
    refine ensures_done Addressed.stable fun _ => ?_
    obtain ⟨hstarted, hwritten, hpending⟩ := hr
    have hidle : ¬ r.receiving = true := by
      rw [hstarted.receiving]
      exact Bool.false_ne_true
    rw [Receiver.clearAddr, if_neg hidle, hwritten]
    by_cases hbit : addr.getLsbD 0 = true
    · rw [if_pos hbit, if_pos hbit]
      refine ⟨⟨rfl, ?_, ?_, ?_, ?_, ?_⟩, ⟨hstarted.ack, hstarted.pos, hstarted.stopping, ?_⟩, ?_, ?_⟩
      all_goals simp [hstarted.answers, hpending, hstarted.ended, hstarted.ack]
    · rw [if_neg hbit, if_neg hbit]
      exact hstarted

theorem ends_writeLoop (data : Nat → BitVec 8) (i n : Nat) (h : Started e p r) :
    Ends slave (writeLoop data i n) (fun status r => status = .ok → Started e p r) r := by
  have hfail : ∀ status : HalStatus, status ≠ .ok → Stable (byteArrives slave)
      (fun r => status = .ok → Started e p r) := fun status hne r r' _ _ hok => absurd hok hne
  induction n generalizing i r with
  | zero => exact ensures_done (fun r r' hr hstep hok => Started.stable r r' (hr hok) hstep) fun _ => h
  | succ n ih =>
    refine ends_wait Started.stable h fun seen r hr => ?_
    cases seen with
    | false =>
      refine ends_act Started.stable hr (fun _ _ _ hacc => hacc) fun r _ _ => ?_
      exact ensures_done (hfail .errTimeout HalStatus.noConfusion) HalStatus.noConfusion
    | true =>
      refine ends_act Started.stable hr (fun _ _ _ hacc => hacc) fun r _ hr => ?_
      have hsent : Started e p { r with written := data i, pending := [] } :=
        ⟨hr.ack, hr.pos, hr.receiving, hr.answers, hr.stopping, hr.ended⟩
      refine ends_wait Started.stable hsent fun seen r hr => ?_
      cases seen with
      | false =>
        refine ends_act Started.stable hr (fun _ _ _ hacc => hacc) fun r _ _ => ?_
        exact ensures_done (hfail .errTimeout HalStatus.noConfusion) HalStatus.noConfusion
      | true => exact ih (i + 1) hr

end

/-! ## The bytes -/

section

variable {slave : Nat → BitVec 8} {e p v w : Bool} {i m n : Nat} {r r' : Receiver} {data : Buffer}

/-- The first `n` bytes are in the buffer. -/
def Filled (slave : Nat → BitVec 8) (n : Nat) (data : Buffer) : Prop := ∀ k < n, data k = slave k

theorem Filled.update (h : Filled slave n data) {byte : BitVec 8} (hbyte : byte = slave n) :
    Filled slave (n + 1) (Function.update data n byte) := by
  intro k hk
  rcases Nat.lt_succ_iff_lt_or_eq.mp hk with hlt | rfl
  · rw [Function.update_of_ne (Nat.ne_of_lt hlt)]
    exact h k hlt
  · rw [Function.update_self, hbyte]

/-- `HAL_OK` for `n + 1` bytes, of which the last was refused if it was `late`. -/
def Returned (slave : Nat → BitVec 8) (n : Nat) (late : Receiver → Prop)
    (result : HalStatus × Buffer) (r : Receiver) : Prop :=
  result.1 = .ok → Filled slave (n + 1) result.2 ∧ Sound slave (n + 1) r ∧
    (r.answers[n]? = some false ↔ late r)

variable {late : Receiver → Prop}

/-- What was received, and when, does not change after the return. -/
theorem ends_ok (hlate : ∀ r, late (r.complete slave) ↔ late r) (hdata : Filled slave (n + 1) data)
    (hsound : Sound slave (n + 1) r) (hiff : r.answers[n]? = some false ↔ late r) :
    Ends slave (.done (.ok, data)) (Returned slave n late) r := by
  refine ensures_done (fun s s' hs hstep hok => ?_) fun _ => ⟨hdata, hsound, hiff⟩
  obtain ⟨hdata, hsound, hiff⟩ := hs hok
  refine ⟨hdata, Sound.stable s s' hsound hstep, ?_⟩
  obtain ⟨-, -, -, rfl⟩ := hstep
  have hcount := hsound.count
  rw [hlate, ← hiff, Receiver.complete, List.getElem?_append_left (by omega)]

theorem ends_error {status : HalStatus} (hne : status ≠ .ok) :
    Ends slave (.done (status, data)) (Returned slave n late) r :=
  ensures_done (fun _ _ _ _ hok => absurd hok hne) fun hok => absurd hok hne

theorem Sound.setAck (h : Sound slave i r) : Sound slave i (r.setCr1 .ack) :=
  h.congr rfl rfl rfl id

theorem Sound.clearAck (h : Sound slave i r) : Sound slave i (r.clearCr1 .ack) :=
  h.congr rfl rfl rfl id

theorem Sound.setStop (h : Sound slave i r) : Sound slave i (r.setCr1 .stop) :=
  h.congr rfl rfl rfl fun hover => (Bool.or_eq_false_iff.mp hover).1

theorem Turned.setStop (h : Turned p n v w m r) : Turned p n v w m (r.setCr1 .stop) := by
  obtain ⟨hack, hpos, hcleared, hanswers⟩ := h
  refine ⟨hack, hpos, hcleared, ?_⟩
  rcases hanswers with hdone | ⟨hm, hlen, hlatched⟩ | hdone
  · exact Or.inl hdone
  · exact Or.inr (Or.inl ⟨hm, hlen, fun hover => hlatched (Bool.or_eq_false_iff.mp hover).1⟩)
  · exact Or.inr (Or.inr hdone)

/-- What neither a byte nor a read of `DR` changes. -/
structure Kept (slave : Nat → BitVec 8) (J : Receiver → Prop) : Prop where
  stable : Stable (byteArrives slave) J
  read : ∀ r, J r → J { r with pending := r.pending.tail }

theorem Even.kept : Kept slave (Even e p) :=
  ⟨Even.stable, fun _ h => ⟨h.ack, h.pos, h.going, h.answers⟩⟩

theorem Turned.kept : Kept slave (Turned p n v w m) :=
  ⟨Turned.stable, fun _ h => ⟨h.ack, h.pos, h.cleared, h.answers⟩⟩

theorem Kept.and {J K : Receiver → Prop} (hj : Kept slave J) (hk : Kept slave K) :
    Kept slave fun r => J r ∧ K r where
  stable := fun s s' h hstep => ⟨hj.stable s s' h.1 hstep, hk.stable s s' h.2 hstep⟩
  read := fun r h => ⟨hj.read r h.1, hk.read r h.2⟩

theorem kept_clocked : Kept slave fun r => n ≤ r.answers.length where
  stable := by
    rintro s s' h ⟨-, -, -, rfl⟩
    exact Nat.le_trans h (List.length_append ▸ Nat.le_add_right _ _)
  read := fun _ h => h

section

variable {α : Type} {Q : α → Receiver → Prop} {J : Receiver → Prop}

/-- A byte that waits is the next of the slave's. -/
theorem ends_readNext {next : BitVec 8 → I2cProgram α} (hkept : Kept slave J)
    (hsound : Sound slave i r) (h : J r) (hne : r.pending ≠ [])
    (hnext : ∀ r, Sound slave (i + 1) r → J r → Ends slave (next (slave i)) Q r) :
    Ends slave (.access .readDr next) Q r := by
  let Waiting (r : Receiver) : Prop := Sound slave i r ∧ J r ∧ r.pending ≠ []
  have hstable : Stable (byteArrives slave) Waiting := by
    rintro s s' ⟨hs, hj, hne⟩ hstep
    refine ⟨Sound.stable s s' hs hstep, hkept.stable s s' hj hstep, ?_⟩
    obtain ⟨-, -, -, rfl⟩ := hstep
    exact List.append_ne_nil_of_left_ne_nil hne _
  have hwaiting : Waiting r := ⟨hsound, h, hne⟩
  refine ends_readDr hstable hwaiting fun r byte hr hbyte => ?_
  obtain ⟨hfirst, hsound⟩ := hr.1.read hr.2.2 hbyte
  rw [hfirst]
  exact hnext _ hsound (hkept.read r hr.2.1)

/-- `RXNE`, and a byte. -/
theorem ends_receive {fail : I2cProgram α} {next : BitVec 8 → I2cProgram α} (hkept : Kept slave J)
    (hsound : Sound slave i r) (h : J r) (hfail : ∀ r, Ends slave fail Q r)
    (hnext : ∀ r, Sound slave (i + 1) r → J r → Ends slave (next (slave i)) Q r) :
    Ends slave (.access (.waitFlag .rxne) fun seen =>
      if (!seen) = true then fail else .access .readDr next) Q r := by
  let Both (r : Receiver) : Prop := Sound slave i r ∧ J r
  have hstable : Stable (byteArrives slave) Both := fun s s' hs hstep =>
    ⟨Sound.stable s s' hs.1 hstep, hkept.stable s s' hs.2 hstep⟩
  have hboth : Both r := ⟨hsound, h⟩
  refine ends_rxne hstable hboth (fun s hs => hs.1.receiving) (fun r hr hne => ?_) fun r _ => ?_
  · exact ends_readNext hkept hr.1 hr.2 hne hnext
  · exact hfail r

/-- `BTF`: two bytes wait, and nothing happens before one of them is read. -/
theorem ends_receiveTwo {fail next : I2cProgram α} (hkept : Kept slave J)
    (hsound : Sound slave i r) (h : J r) (hfail : ∀ r, Ends slave fail Q r)
    (hnext : ∀ r, Sound slave i r → J r → r.pending.length = 2 → Ends slave next Q r) :
    Ends slave (.access (.waitFlag .btf) fun seen =>
      if (!seen) = true then fail else next) Q r := by
  let Both (r : Receiver) : Prop := Sound slave i r ∧ J r
  have hstable : Stable (byteArrives slave) Both := fun s s' hs hstep =>
    ⟨Sound.stable s s' hs.1 hstep, hkept.stable s s' hs.2 hstep⟩
  have hboth : Both r := ⟨hsound, h⟩
  refine ends_btf hstable hboth (fun s hs => hs.1.receiving) (fun r hr htwo => ?_) fun r _ => ?_
  · exact hnext r hr.1 hr.2 htwo
  · exact hfail r

/-- `STOP`, and the two bytes that wait. -/
theorem ends_readPair {next : BitVec 8 → BitVec 8 → I2cProgram α} (hkept : Kept slave J)
    (hsound : Sound slave i r) (h : J r) (htwo : r.pending.length = 2)
    (hstop : ∀ r, J r → J (r.setCr1 .stop))
    (hnext : ∀ r, Sound slave (i + 2) r → J r → Ends slave (next (slave i) (slave (i + 1))) Q r) :
    Ends slave (.access (.setCr1 .stop) fun _ => .access .readDr fun first =>
      .access .readDr fun second => next first second) Q r := by
  let Full (r : Receiver) : Prop := Sound slave i r ∧ J r ∧ r.pending.length = 2
  have hstable : Stable (byteArrives slave) Full := by
    rintro s s' ⟨-, -, htwo⟩ ⟨-, -, hlt, -⟩
    omega
  have hfull : Full r := ⟨hsound, h, htwo⟩
  refine ends_act hstable hfull (fun _ _ _ hacc => hacc) fun r _ hr => ?_
  obtain ⟨hsound, hj, htwo⟩ := hr
  have hclocked : i + 2 ≤ (r.setCr1 .stop).answers.length := by
    change i + 2 ≤ r.answers.length
    exact Nat.le_of_eq (by rw [hsound.count, htwo])
  have hne : (r.setCr1 .stop).pending ≠ [] := by
    intro hnil
    have hzero : r.pending.length = 0 := congrArg List.length hnil
    omega
  refine ends_readNext (hkept.and kept_clocked) hsound.setStop ⟨hstop r hj, hclocked⟩ hne
    fun r hsound hr => ?_
  have hleft : r.pending ≠ [] := by
    intro hnil
    have hcount := hsound.count
    rw [hnil, List.length_nil] at hcount
    omega
  exact ends_readNext hkept hsound hr.1 hleft hnext

end

theorem ends_stopped {status : HalStatus} (hne : status ≠ .ok) :
    Ends slave (.access (.setCr1 .stop) fun _ => .done (status, data))
      (Returned slave n late) r := by
  have hany : Stable (byteArrives slave) fun _ => True := fun _ _ _ _ => trivial
  refine ends_act hany trivial (fun _ _ _ hacc => hacc) fun r _ _ => ?_
  exact ends_error hne

end

end NavHAL.I2c.F4
