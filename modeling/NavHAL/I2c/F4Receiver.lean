import NavHAL.I2c.F4Master

/-!
# The F4 as a receiver

Bytes are shifted in while the driver runs: each is answered when it is complete, and the
clock stands still only while `ADDR` is set or two bytes wait to be read.  What of the
answers an assertion has to say, and that the arrival of a byte keeps it, is here; what the
driver makes of it is in `F4Receive`.
-/

namespace NavHAL.I2c.F4

open Access (Stable)

/-- The peripheral as a receiver.  `pending` is what `DR` and the shift register hold,
`latched` what `ACK` was when the byte before the current one was complete. -/
structure Receiver where
  ack : Bool
  pos : Bool
  written : BitVec 8
  receiving : Bool
  pending : List (BitVec 8)
  answers : List Bool
  latched : Bool
  stopping : Bool
  ended : Bool
  /-- How many bytes were complete when `ACK` was last set and cleared, and `POS` set. -/
  ackSetAt : Nat
  ackClearedAt : Nat
  posSetAt : Nat

namespace Receiver

/-- The answer to the byte that is being shifted in, if it is complete now. -/
def answer (r : Receiver) : Bool := if r.pos then r.latched else r.ack

/-- A byte is complete.  Nothing follows a NACK, or a byte during which `STOP` was asked for. -/
def complete (slave : Nat → BitVec 8) (r : Receiver) : Receiver :=
  { r with
    pending := r.pending ++ [slave r.answers.length]
    answers := r.answers ++ [r.answer]
    latched := r.ack
    ended := !r.answer || r.stopping }

/-- `STOP` takes effect after the current byte, which is complete when two are waiting. -/
def setCr1 : Cr1Bit → Receiver → Receiver
  | .start, r => { r with receiving := false, answers := [], stopping := false, ended := false }
  | .stop, r => { r with stopping := true, ended := r.ended || decide (r.pending.length = 2) }
  | .ack, r => { r with ack := true, ackSetAt := r.answers.length }
  | .pos, r => { r with pos := true, posSetAt := r.answers.length }

def clearCr1 : Cr1Bit → Receiver → Receiver
  | .ack, r => { r with ack := false, ackClearedAt := r.answers.length }
  | .pos, r => { r with pos := false }
  | .start, r | .stop, r => r

/-- `ADDR` is cleared; reception begins if the address was one to read from. -/
def clearAddr (r : Receiver) : Receiver :=
  if r.receiving then r
  else if r.written.getLsbD 0 then { r with receiving := true, latched := r.ack }
  else r

/-- What a poll of a flag can find; outside of reception it is left open. -/
def Shows (r : Receiver) (flag : Sr1Flag) (seen : Bool) : Prop :=
  r.receiving = true →
    match flag with
    | .rxne => seen = !r.pending.isEmpty
    | .btf => seen = decide (r.pending.length = 2)
    | _ => True

end Receiver

/-- A step of the peripheral. -/
def byteArrives (slave : Nat → BitVec 8) (r r' : Receiver) : Prop :=
  r.receiving = true ∧ r.ended = false ∧ r.pending.length < 2 ∧ r' = r.complete slave

/-- An access of the driver.  A wait ends with the poll that sees the flag, or with one that
does not; a write of `DR` clears `RXNE`. -/
def accessed : (i : I2cAccess) → Receiver → Answer i → Receiver → Prop
  | .setCr1 bit, r, _, r' => r' = r.setCr1 bit
  | .clearCr1 bit, r, _, r' => r' = r.clearCr1 bit
  | .writeDr byte, r, _, r' => r' = { r with written := byte, pending := [] }
  | .readDr, r, byte, r' =>
    (∀ first ∈ r.pending.head?, byte = first) ∧ r' = { r with pending := r.pending.tail }
  | .readSr1, r, _, r' => r' = r
  | .readSr2, r, _, r' => r' = r.clearAddr
  | .waitFlag flag, r, seen, r' => r' = r ∧ r.Shows flag seen

/-! ## What was received -/

variable {slave : Nat → BitVec 8} {taken : Nat} {r r' : Receiver}

/-- `taken` bytes have been read from `DR`, and the rest of those that are complete wait in
order; all but the last of them were acknowledged. -/
structure Sound (slave : Nat → BitVec 8) (taken : Nat) (r : Receiver) : Prop where
  receiving : r.receiving = true
  few : r.pending.length ≤ 2
  count : r.answers.length = taken + r.pending.length
  bytes : ∀ k byte, r.pending[k]? = some byte → byte = slave (taken + k)
  acked : ∀ k, k + 1 < r.answers.length → r.answers[k]? = some true
  going : r.ended = false → ∀ a ∈ r.answers, a = true

theorem get_of_all {answers : List Bool} (h : ∀ a ∈ answers, a = true) {k : Nat}
    (hk : k < answers.length) : answers[k]? = some true := by
  rw [List.getElem?_eq_getElem hk, h _ (List.getElem_mem hk)]

theorem Sound.complete (h : Sound slave taken r) (hover : r.ended = false)
    (hlt : r.pending.length < 2) : Sound slave taken (r.complete slave) where
  receiving := h.receiving
  few := by
    have hlen : (r.complete slave).pending.length = r.pending.length + 1 := List.length_append
    omega
  count := by
    have hcount := h.count
    have hlen : (r.complete slave).pending.length = r.pending.length + 1 := List.length_append
    have hans : (r.complete slave).answers.length = r.answers.length + 1 := List.length_append
    omega
  bytes := by
    intro k byte hk
    have hcount := h.count
    rw [Receiver.complete, List.getElem?_append] at hk
    split at hk
    · exact h.bytes k byte hk
    · next hge =>
      obtain ⟨hzero, hbyte⟩ := List.getElem?_eq_some_iff.mp hk
      have hk' : k = r.pending.length := by
        have hone : k - r.pending.length < 1 := hzero
        omega
      subst hk'
      rw [← hcount, ← hbyte]
      simp
  acked := by
    intro k hk
    have hans : (r.complete slave).answers.length = r.answers.length + 1 := List.length_append
    have hlt : k < r.answers.length := by omega
    rw [Receiver.complete, List.getElem?_append_left hlt]
    exact get_of_all (h.going hover) hlt
  going := by
    intro hgoing a ha
    have hall := h.going hover
    have hanswer : r.answer = true := by
      have hor : (!r.answer || r.stopping) = false := hgoing
      rw [Bool.or_eq_false_iff] at hor
      simpa using hor.1
    rcases List.mem_append.mp ha with ha | ha
    · exact hall a ha
    · rw [List.mem_singleton.mp ha, hanswer]

theorem Sound.stable : Stable (byteArrives slave) (Sound slave taken) := by
  rintro r r' h ⟨-, hover, hlt, rfl⟩
  exact h.complete hover hlt

/-- Accesses other than a read of `DR` leave what was received alone. -/
theorem Sound.congr (h : Sound slave taken r) (hrec : r'.receiving = r.receiving)
    (hpending : r'.pending = r.pending) (hans : r'.answers = r.answers)
    (hover : r'.ended = false → r.ended = false) : Sound slave taken r' where
  receiving := hrec ▸ h.receiving
  few := hpending ▸ h.few
  count := by rw [hans, hpending, h.count]
  bytes := hpending ▸ h.bytes
  acked := hans ▸ h.acked
  going := fun hgoing => hans ▸ h.going (hover hgoing)

theorem Sound.read (h : Sound slave taken r) (hne : r.pending ≠ []) {byte : BitVec 8}
    (hbyte : ∀ first ∈ r.pending.head?, byte = first) :
    byte = slave taken ∧ Sound slave (taken + 1) { r with pending := r.pending.tail } := by
  obtain ⟨first, rest, hpending⟩ := List.exists_cons_of_ne_nil hne
  rw [hpending] at hbyte
  have hfirst : byte = first := hbyte first rfl
  have hcount := h.count
  have hfew := h.few
  have hlen : r.pending.length = rest.length + 1 := by rw [hpending, List.length_cons]
  refine ⟨?_, h.receiving, ?_, ?_, ?_, h.acked, h.going⟩
  · rw [hfirst]
    exact h.bytes 0 first (by rw [hpending]; rfl)
  · rw [hpending, List.tail_cons]
    change rest.length ≤ 2
    omega
  · rw [hpending, List.tail_cons]
    change r.answers.length = taken + 1 + rest.length
    omega
  · intro k byte hk
    have hnext : r.pending[k + 1]? = some byte := by
      rw [hpending] at hk ⊢
      exact hk
    rw [h.bytes (k + 1) byte hnext, Nat.add_assoc, Nat.add_comm 1 k]

/-- Once `n` bytes are read, exactly those were clocked if the last of them was refused. -/
theorem Sound.exact_iff {n : Nat} (h : Sound slave (n + 1) r) :
    r.answers = List.replicate n true ++ [false] ↔ r.answers[n]? = some false := by
  constructor
  · intro hans
    rw [hans, List.getElem?_append_right (by simp), List.length_replicate, Nat.sub_self]
    rfl
  · intro hlast
    have hcount := h.count
    have hle : r.answers.length ≤ n + 1 := by
      by_contra hgt
      have hacked := h.acked n (by omega)
      rw [hlast] at hacked
      cases hacked
    refine List.ext_getElem? fun k => ?_
    rcases Nat.lt_trichotomy k n with hlt | rfl | hgt
    · rw [h.acked k (by omega), List.getElem?_append_left (by simpa using hlt)]
      exact (List.getElem?_eq_some_iff.mpr ⟨by simpa using hlt, by simp⟩).symm
    · rw [hlast, List.getElem?_append_right (by simp), List.length_replicate, Nat.sub_self]
      rfl
    · rw [List.getElem?_eq_none (by omega), List.getElem?_eq_none (by simp; omega)]

/-! ## How bytes are answered -/

variable {e p v w : Bool} {m n : Nat}

/-- `ACK` has been `e` since the last byte was complete.  Either every byte was acknowledged,
or the first one was not. -/
structure Even (e p : Bool) (r : Receiver) : Prop where
  ack : r.ack = e
  pos : r.pos = p
  going : r.stopping = false
  answers : (r.ended = false ∧ (∀ a ∈ r.answers, a = true) ∧
      (if e then r.answers ≠ [] → r.latched = true else r.answers = [] ∧ r.latched = false)) ∨
    r.ended = true ∧ r.answers = [false]

theorem Even.stable : Stable (byteArrives slave) (Even e p) := by
  rintro r r' h ⟨-, hover, -, rfl⟩
  obtain ⟨hack, hpos, hgoing, hanswers⟩ := h
  refine ⟨hack, hpos, hgoing, ?_⟩
  have hlive := hanswers.resolve_right fun hdead => by
    rw [hover] at hdead
    exact Bool.noConfusion hdead.1
  obtain ⟨-, hall, hlatched⟩ := hlive
  simp only [Receiver.complete, Receiver.answer, hack, hpos, hgoing]
  cases e with
  | true =>
    simp only [if_true] at hlatched
    by_cases hnil : r.answers = []
    · cases p <;> cases hl : r.latched <;> simp [hnil]
    · have hl := hlatched hnil
      cases p <;> simpa [hl] using hall
  | false =>
    obtain ⟨hnil, hl⟩ : r.answers = [] ∧ r.latched = false := by simpa using hlatched
    cases p <;> simp [hnil, hl]

/-- Setting `ACK` keeps it so. -/
theorem Even.setAck (h : Even e p r) : Even true p (r.setCr1 .ack) := by
  obtain ⟨hack, hpos, hgoing, hanswers⟩ := h
  refine ⟨rfl, hpos, hgoing, ?_⟩
  rcases hanswers with ⟨hover, hall, hlatched⟩ | hdead
  · refine Or.inl ⟨hover, hall, ?_⟩
    cases e with
    | true => exact hlatched
    | false =>
      have hnil : r.answers = [] ∧ r.latched = false := by simpa using hlatched
      exact fun hne => absurd hnil.1 hne
  · exact Or.inr hdead

/-- `ACK` was cleared with `m` bytes complete, for byte `n + 1` to be refused.  If it was among
them its answer is `v`; if not, the one before it was answered with `ACK` at `w`, and what
follows may be over. -/
structure Turned (p : Bool) (n : Nat) (v w : Bool) (m : Nat) (r : Receiver) : Prop where
  ack : r.ack = false
  pos : r.pos = p
  cleared : r.ackClearedAt = m
  answers : (n < m ∧ r.answers[n]? = some v) ∨
    (m = n ∧ r.answers.length = n ∧ (r.ended = false → r.latched = w)) ∨
    (m = n ∧ r.answers[n]? = some (p && w))

theorem getElem?_append_some {answers : List Bool} {k : Nat} {a b : Bool}
    (h : answers[k]? = some a) : (answers ++ [b])[k]? = some a := by
  obtain ⟨hk, ha⟩ := List.getElem?_eq_some_iff.mp h
  rw [List.getElem?_append_left hk, h]

theorem Turned.stable : Stable (byteArrives slave) (Turned p n v w m) := by
  rintro r r' h ⟨-, hover, -, rfl⟩
  obtain ⟨hack, hpos, hcleared, hanswers⟩ := h
  refine ⟨hack, hpos, hcleared, ?_⟩
  rcases hanswers with ⟨hlt, hans⟩ | ⟨hm, hlen, hlatched⟩ | ⟨hm, hans⟩
  · exact Or.inl ⟨hlt, getElem?_append_some hans⟩
  · refine Or.inr (Or.inr ⟨hm, ?_⟩)
    have hl := hlatched hover
    simp only [Receiver.complete, Receiver.answer, hack, hpos, hl]
    rw [List.getElem?_append_right (Nat.le_of_eq hlen), hlen, Nat.sub_self]
    cases p <;> rfl
  · exact Or.inr (Or.inr ⟨hm, getElem?_append_some hans⟩)

/-- What the answer to byte `n + 1` depends on, once that byte is complete. -/
theorem Turned.refused_iff (h : Turned p n v w m r) (hlen : n < r.answers.length) :
    r.answers[n]? = some false ↔ if n < m then v = false else p = false ∨ w = false := by
  rcases h.answers with ⟨hlt, hans⟩ | ⟨hm, hlen', -⟩ | ⟨hm, hans⟩
  · rw [if_pos hlt, hans]
    exact Option.some_inj
  · omega
  · rw [if_neg (by omega), hans, Option.some_inj]
    cases p <;> simp

end NavHAL.I2c.F4
