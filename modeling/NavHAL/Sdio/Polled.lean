import NavHAL.Sdio.Port

/-!
# Polled transfers of one block (`sdio.c`)

A read and a write move 128 words between a wait for the first of them and a wait for
`DBCKEND`.  The last wait takes a spent budget for success, and its own poll does not
look at the error flags (`blockReports_iff`).
-/

namespace NavHAL.Sdio

open Polling

/-- `SD_DATA_START_SPINS` -/
def dataStartSpins : Nat := 2000000

/-- `SD_FIFO_SPIN_LIMIT` -/
def fifoSpinLimit : Nat := 500000

/-! ## The transfer -/

/-- What the two directions differ in. -/
structure Direction where
  cmd : Nat
  dctrl : BitVec 32
  /-- The flags that end the transfer, start it, and allow eight words or one. -/
  errors : BitVec 32
  starts : BitVec 32
  burst : BitVec 32
  single : BitVec 32
  /-- The words to write; none for a read. -/
  source : Option (Nat → BitVec 32)
  /-- `CMD12` follows a failure. -/
  stops : Bool
  /-- A wait for the card follows success. -/
  settles : Bool

def Direction.read : Direction where
  cmd := cmdReadSingleBlock
  dctrl := 9#32 <<< dctrlDblocksizePos ||| dctrlDtdir ||| dctrlDten
  errors := staRxoverr ||| staDcrcfail ||| staDtimeout
  starts := staRxfifohf ||| staRxdavl
  burst := staRxfifohf
  single := staRxdavl
  source := none
  stops := true
  settles := false

def Direction.write (words : Nat → BitVec 32) : Direction where
  cmd := cmdWriteSingleBlock
  dctrl := 9#32 <<< dctrlDblocksizePos ||| dctrlDten
  errors := staTxunderr ||| staDcrcfail ||| staDtimeout
  starts := staTxfifohe
  burst := staTxfifohe
  single := 0
  source := some words
  stops := false
  settles := true

/-- How a wait ends: with what it waits for, an error flag, or its budget spent. -/
inductive Waited
  | done
  | failed
  | spent
  deriving DecidableEq, Repr

section

variable (dir : Direction)

/-- `card_is_sdhc` decides on the address; the card is ready, the data path is set up
and the command sent. -/
def beginTransfer (addr : BitVec 32) (p : Port) : SdioError × Port :=
  let arg := if p.cardIsSdhc then addr else addr * 512
  let ready := waitCardReady p
  if ready.1 ≠ .ok then (.timeout, ready.2)
  else
    let p := (((ready.2.note .icr).note (.dtimer dataTimeoutClks)).note (.dlen 512)).note
      (.dctrl dir.dctrl)
    let sent := sendCommand dir.cmd arg 1 p
    if sent.1 ≠ .ok then (.error, sent.2.note (.dctrl 0)) else (.ok, sent.2)

/-- The wait for the first words, with interrupts on. -/
def startWait : Nat → Port → Waited × Port
  | n, p =>
    if p.sta 0 &&& dir.errors ≠ 0 then (.failed, p.readSta)
    else if p.sta 0 &&& dir.starts ≠ 0 then (.done, p.readSta)
    else match n with
      | 0 => (.spent, p.readSta)
      | n + 1 => startWait n p.readSta

/-- `*p++ = SDIO->FIFO`, or the other way, with `left` words to go. -/
def moveWord (left : Nat) (p : Port) : Port :=
  match dir.source with
  | none => p.readFifo
  | some words => p.note (.word (words (128 - left)))

/-- `n` words, of `left`. -/
def moveWords : Nat → Nat → Port → Port
  | 0, _, p => p
  | n + 1, left, p => moveWords n (left - 1) (moveWord dir left p)

/-- The loop that moves the words, with interrupts off. -/
def moveLoop (words timeout : Nat) (p : Port) : Waited × Port :=
  match words, timeout with
  | 0, _ => (.done, p)
  | _ + 1, 0 => (.spent, p)
  | words + 1, timeout + 1 =>
    if p.sta 0 &&& dir.errors ≠ 0 then (.failed, p.readSta)
    else if p.sta 0 &&& dir.burst ≠ 0 then
      moveLoop (words + 1 - 8) fifoSpinLimit (moveWords dir (min 8 (words + 1)) (words + 1) p.readSta)
    else if p.sta 0 &&& dir.single ≠ 0 then
      moveLoop words fifoSpinLimit (moveWord dir (words + 1) p.readSta)
    else moveLoop (words + 1) timeout p.readSta
  termination_by (words, timeout)

/-- The guard of the last wait. -/
def blockGoing (p : Port) : Bool × Port := (p.sta 0 &&& staDbckend == 0, p.readSta)

/-- Its body. -/
def blockRound (p : Port) : Round SdioError Port :=
  if p.sta 0 &&& dir.errors ≠ 0 then .exit .error (p.readSta.note (.dctrl 0))
  else .next p.readSta

/-- A transfer that is given up. -/
def giveUp (err : SdioError) (stop : Bool) (p : Port) : SdioError × Port :=
  (err, if stop then (sendCommand cmdStopTransmission 0 1 (p.note (.dctrl 0))).2
    else p.note (.dctrl 0))

/-- What follows the last wait. -/
def settle (p : Port) : SdioError × Port :=
  let p := (p.note .icr).note (.dctrl 0)
  if dir.settles then waitCardReady p else (.ok, p)

/-- The last wait, and the test of its counter. -/
def endTransfer (p : Port) : SdioError × Port :=
  match spin blockGoing (blockRound dir) dataStartSpins p with
  | (.exit err, p) => (err, p)
  | (.counter left, p) => if left = 0 then (.timeout, p.note (.dctrl 0)) else settle dir p

/-- From the command on. -/
def dataPhase (p : Port) : SdioError × Port :=
  match startWait dir dataStartSpins p with
  | (.failed, p) => giveUp .error dir.stops p
  | (.spent, p) => giveUp .timeout false p
  | (.done, p) =>
    match moveLoop dir 128 fifoSpinLimit (p.note .irqsOff) with
    | (.failed, p) => giveUp .error dir.stops (p.note .irqsOn)
    | (.spent, p) => giveUp .timeout dir.stops (p.note .irqsOn)
    | (.done, p) => endTransfer dir (p.note .irqsOn)

/-- `hal_sdio_read_block` and `hal_sdio_write_block`, with the buffer there or not. -/
def blockTransfer (addr : BitVec 32) (given : Bool) (p : Port) : SdioError × Port :=
  if given = false then (.error, p)
  else match beginTransfer dir addr p with
    | (.ok, p) => dataPhase dir p
    | failed => failed

end

/-- `hal_sdio_read_block` -/
def halSdioReadBlock (addr : BitVec 32) (given : Bool) (p : Port) : SdioError × Port :=
  blockTransfer .read addr given p

/-- `hal_sdio_write_block` -/
def halSdioWriteBlock (addr : BitVec 32) (words : Option (Nat → BitVec 32)) (p : Port) :
    SdioError × Port :=
  blockTransfer (.write (words.getD fun _ => 0)) addr words.isSome p

/-! ## What a transfer reports -/

/-- How many words a log moves. -/
def wordsMoved (log : List Access) : Nat :=
  log.countP fun a => match a with
    | .word _ => true
    | _ => false

section

variable (dir : Direction)

/-- Up to the end of the last wait, `DBCKEND` was read after the 128th word and no error
flag was. -/
def Evidence (log : List Access) : Prop :=
  let seen := log.takeWhile (· != .icr)
  (∃ before w rest, seen = before ++ .sta w :: rest ∧ 128 ≤ wordsMoved before ∧
    w &&& staDbckend ≠ 0) ∧
  ∀ w, .sta w ∈ seen → w &&& dir.errors = 0

/-- No poll of the last wait sees `DBCKEND`, and its body sees no error flag. -/
def NeverEnds (polls : Nat → BitVec 32) : Prop :=
  (∀ k ≤ dataStartSpins, polls (2 * k) &&& staDbckend = 0) ∧
    ∀ k < dataStartSpins, polls (2 * k + 1) &&& dir.errors = 0

/-- Poll `k` of the last wait is the first that sees `DBCKEND`; until then its body sees
no error flag. -/
def EndsAtPoll (polls : Nat → BitVec 32) (k : Nat) : Prop :=
  (∀ j < k, polls (2 * j) &&& staDbckend = 0 ∧ polls (2 * j + 1) &&& dir.errors = 0) ∧
    polls (2 * k) &&& staDbckend ≠ 0

/-- The last wait does see `DBCKEND` or an error in its body; when it is the former in
time, no poll saw an error flag.  After a write that the card does not settle from it
does not matter. -/
def EndsSoundly (p : Port) : Prop :=
  (settle dir (spin blockGoing (blockRound dir) dataStartSpins p).2).1 ≠ .ok ∨
    ¬ NeverEnds dir p.sta ∧
      ∀ k < dataStartSpins, EndsAtPoll dir p.sta k → ∀ j ≤ k, p.sta (2 * j) &&& dir.errors = 0

/-- What holds of the port that reaches the last wait, when it is reached. -/
def AtLastWait (P : Port → Prop) (p : Port) : Prop :=
  match startWait dir dataStartSpins p with
  | (.done, p) =>
    match moveLoop dir 128 fifoSpinLimit (p.note .irqsOff) with
    | (.done, p) => P (p.note .irqsOn)
    | _ => True
  | _ => True

/-- One of the three waits spends its budget. -/
def RunsOut (p : Port) : Prop :=
  match startWait dir dataStartSpins p with
  | (.spent, _) => True
  | (.failed, _) => False
  | (.done, p) =>
    match moveLoop dir 128 fifoSpinLimit (p.note .irqsOff) with
    | (.spent, _) => True
    | (.failed, _) => False
    | (.done, p) => NeverEnds dir (p.note .irqsOn).sta

/-- The transfer with this result succeeds only on evidence, and times out when a wait runs
out. -/
def BlockReports (addr : BitVec 32) (given : Bool) (p : Port) (result : SdioError × Port) : Prop :=
  (result.1 = .ok → (beginTransfer dir addr p).1 = .ok ∧
    Evidence dir (result.2.log.drop (beginTransfer dir addr p).2.log.length)) ∧
  (given = true → (beginTransfer dir addr p).1 = .ok → RunsOut dir (beginTransfer dir addr p).2 →
    result.1 = .timeout)

/-! ## The last wait -/

/-- The port after `m` reads of `STA`. -/
def Port.polled (m : Nat) (p : Port) : Port :=
  { p with
    sta := after p.sta m
    log := p.log ++ (List.range m).map fun i => .sta (p.sta i) }

variable {dir} {p p' : Port} {k : Nat}

theorem polled_zero (p : Port) : p.polled 0 = p := by
  simp [Port.polled]

theorem polled_readSta (m : Nat) (p : Port) : (p.polled m).readSta = p.polled (m + 1) := by
  simp [Port.polled, Port.readSta, Port.note, List.range_succ]

theorem polled_polled (m n : Nat) (p : Port) : (p.polled m).polled n = p.polled (m + n) := by
  simp [Port.polled, List.range_add, Function.comp_def]

/-- A round goes on when its poll has no `DBCKEND` and its body no error flag. -/
theorem oneRound_some_iff :
    oneRound blockGoing (blockRound dir) p = some p' ↔
      (p.sta 0 &&& staDbckend = 0 ∧ p.sta 1 &&& dir.errors = 0) ∧ p' = p.polled 2 := by
  have hread : p.readSta.readSta = p.polled 2 := by
    have h1 := polled_readSta 0 p
    have h2 := polled_readSta 1 p
    rw [polled_zero] at h1
    rw [h1, h2]
  have hguard_iff : (blockGoing p).1 = true ↔ p.sta 0 &&& staDbckend = 0 := beq_iff_eq
  have hsecond : (blockGoing p).2.sta 0 = p.sta 1 := rfl
  by_cases hgoing : p.sta 0 &&& staDbckend = 0
  · rw [oneRound, if_pos (hguard_iff.mpr hgoing)]
    by_cases hbad : p.sta 1 &&& dir.errors = 0
    · have hbody : blockRound dir (blockGoing p).2 = .next p.readSta.readSta := by
        rw [blockRound, hsecond, if_neg (not_not_intro hbad)]
        rfl
      rw [hbody, hread]
      simp only [Option.some.injEq, hgoing, hbad, true_and, and_self]
      exact eq_comm
    · have hbody : ∃ q, blockRound dir (blockGoing p).2 = .exit .error q :=
        ⟨_, by rw [blockRound, hsecond, if_pos hbad]⟩
      obtain ⟨q, hbody⟩ := hbody
      rw [hbody]
      exact iff_of_false (by simp) fun h => hbad h.1.2
  · rw [oneRound, if_neg (mt hguard_iff.mp hgoing)]
    exact iff_of_false (by simp) fun h => hgoing h.1.1

theorem rounds_some_iff :
    rounds blockGoing (blockRound dir) k p = some p' ↔
      (∀ j < k, p.sta (2 * j) &&& staDbckend = 0 ∧ p.sta (2 * j + 1) &&& dir.errors = 0) ∧
        p' = p.polled (2 * k) := by
  induction k generalizing p with
  | zero => simp [rounds, polled_zero, eq_comm]
  | succ k ih =>
    rw [rounds, Option.bind_eq_some_iff]
    simp only [oneRound_some_iff, ih]
    constructor
    · rintro ⟨q, ⟨⟨hend, hbad⟩, rfl⟩, hrest, hlast⟩
      refine ⟨fun j hj => ?_, ?_⟩
      · cases j with
        | zero => exact ⟨hend, hbad⟩
        | succ j =>
          have hj' := hrest j (by omega)
          simp only [Port.polled, after_apply] at hj'
          rwa [show 2 * (j + 1) = 2 + 2 * j by omega, Nat.add_assoc]
      · rw [hlast, polled_polled, show 2 + 2 * k = 2 * (k + 1) by omega]
    · rintro ⟨hall, rfl⟩
      refine ⟨p.polled 2, ⟨hall 0 (by omega), rfl⟩, fun j hj => ?_, ?_⟩
      · have hj' := hall (j + 1) (by omega)
        simp only [Port.polled, after_apply]
        rwa [show 2 * (j + 1) = 2 + 2 * j by omega, Nat.add_assoc] at hj'
      · rw [polled_polled, show 2 + 2 * k = 2 * (k + 1) by omega]

theorem blockGoing_polled (k : Nat) (p : Port) :
    blockGoing (p.polled k) = (p.sta k &&& staDbckend == 0, p.polled (k + 1)) := by
  rw [blockGoing, polled_readSta]
  simp [Port.polled]

theorem spin_neverEnds (h : NeverEnds dir p.sta) :
    spin blockGoing (blockRound dir) dataStartSpins p =
      (.counter 0xFFFFFFFF, p.polled (2 * dataStartSpins + 1)) := by
  have hrounds : rounds blockGoing (blockRound dir) dataStartSpins p =
      some (p.polled (2 * dataStartSpins)) :=
    rounds_some_iff.mpr ⟨fun j hj => ⟨h.1 j (by omega), h.2 j hj⟩, rfl⟩
  have hguard := blockGoing_polled (2 * dataStartSpins) p
  rw [spin_spent hrounds (by rw [hguard, h.1 _ (Nat.le_refl _)]; rfl), hguard]

theorem spin_endsAtPoll (h : EndsAtPoll dir p.sta k) (hk : k ≤ dataStartSpins) :
    spin blockGoing (blockRound dir) dataStartSpins p =
      (.counter (UInt32.ofNat (dataStartSpins - k)), p.polled (2 * k + 1)) := by
  have hrounds : rounds blockGoing (blockRound dir) k p = some (p.polled (2 * k)) :=
    rounds_some_iff.mpr ⟨h.1, rfl⟩
  have hguard := blockGoing_polled (2 * k) p
  rw [spin_done hrounds hk (by rw [hguard]; simpa using h.2), hguard]

/-- The three ways the last wait ends. -/
theorem lastWait_cases (dir : Direction) (p : Port) :
    NeverEnds dir p.sta ∨ (∃ k ≤ dataStartSpins, EndsAtPoll dir p.sta k) ∨
      (∃ q, spin blockGoing (blockRound dir) dataStartSpins p = (.exit .error, q)) := by
  rcases rounds_total blockGoing (blockRound dir) dataStartSpins p with
    ⟨q, h⟩ | ⟨k, hk, q, h, hnone⟩
  · obtain ⟨hall, -⟩ := rounds_some_iff.mp h
    by_cases hlast : p.sta (2 * dataStartSpins) &&& staDbckend = 0
    · refine Or.inl ⟨fun j hj => ?_, fun j hj => (hall j hj).2⟩
      rcases Nat.lt_or_eq_of_le hj with hlt | rfl
      · exact (hall j hlt).1
      · exact hlast
    · exact Or.inr (Or.inl ⟨_, Nat.le_refl _, hall, hlast⟩)
  · obtain ⟨hall, rfl⟩ := rounds_some_iff.mp h
    have hguard := blockGoing_polled (2 * k) p
    by_cases hend : p.sta (2 * k) &&& staDbckend = 0
    · have hgoing : (blockGoing (p.polled (2 * k))).1 = true := by simp [hguard, hend]
      rcases oneRound_none hnone with hstop | ⟨-, ⟨t, hbody⟩ | ⟨e, t, hbody⟩⟩
      · rw [hgoing] at hstop
        cases hstop
      · simp only [blockRound] at hbody
        split at hbody <;> cases hbody
      · have herror : e = .error := by
          simp only [blockRound] at hbody
          split at hbody
          · cases hbody
            rfl
          · cases hbody
        rw [herror] at hbody
        exact Or.inr (Or.inr ⟨t, spin_exited h hk hgoing hbody⟩)
    · exact Or.inr (Or.inl ⟨k, by omega, hall, hend⟩)

/-! ## The log -/

theorem settle_status (dir : Direction) (p : Port) :
    (settle dir p).1 = .ok ∨ (settle dir p).1 = .timeout := by
  simp only [settle]
  split
  · exact waitCardReadyLoop_status _ _
  · exact Or.inl rfl

theorem settle_log (dir : Direction) (p : Port) :
    ∃ rest, (settle dir p).2.log = p.log ++ .icr :: rest := by
  have hready := extends_waitCardReadyLoop 500 ((p.note .icr).note (.dctrl 0))
  simp only [settle]
  split
  · obtain ⟨l, hl⟩ := hready.log
    refine ⟨.dctrl 0 :: l, ?_⟩
    rw [waitCardReady, hl]
    simp [Port.note]
  · exact ⟨[.dctrl 0], by simp [Port.note]⟩

/-- From `p` to `p'` the log grows by `n` words; `ICR` is not written, and no error flag
is read. -/
def GrowsBy (dir : Direction) (n : Nat) (p p' : Port) : Prop :=
  ∃ l, p'.log = p.log ++ l ∧ wordsMoved l = n ∧
    ∀ a ∈ l, a ≠ .icr ∧ ∀ w, a = .sta w → w &&& dir.errors = 0

theorem GrowsBy.refl (dir : Direction) (p : Port) : GrowsBy dir 0 p p :=
  ⟨[], (List.append_nil _).symm, rfl, by simp⟩

theorem GrowsBy.trans {p₁ p₂ p₃ : Port} {m n : Nat} (h : GrowsBy dir m p₁ p₂)
    (h' : GrowsBy dir n p₂ p₃) : GrowsBy dir (m + n) p₁ p₃ := by
  obtain ⟨l, hl, hm, hclean⟩ := h
  obtain ⟨l', hl', hn, hclean'⟩ := h'
  refine ⟨l ++ l', by rw [hl', hl, List.append_assoc], ?_, ?_⟩
  · rw [wordsMoved, List.countP_append]
    exact congrArg₂ (· + ·) hm hn
  · intro a ha
    exact (List.mem_append.mp ha).elim (hclean a) (hclean' a)

theorem growsBy_readSta (h : p.sta 0 &&& dir.errors = 0) : GrowsBy dir 0 p p.readSta := by
  refine ⟨[.sta (p.sta 0)], rfl, rfl, fun a ha => ?_⟩
  rw [List.mem_singleton.mp ha]
  refine ⟨by simp, fun w hw => ?_⟩
  cases hw
  exact h

theorem growsBy_irqs (dir : Direction) (p : Port) {a : Access} (ha : a = .irqsOff ∨ a = .irqsOn) :
    GrowsBy dir 0 p (p.note a) := by
  refine ⟨[a], rfl, ?_, fun b hb => ?_⟩
  · rcases ha with rfl | rfl <;> rfl
  · rw [List.mem_singleton.mp hb]
    rcases ha with rfl | rfl <;> exact ⟨by simp, fun w hw => nomatch hw⟩

theorem growsBy_moveWord (dir : Direction) (left : Nat) (p : Port) :
    GrowsBy dir 1 p (moveWord dir left p) := by
  have hword : ∀ w : BitVec 32, GrowsBy dir 1 p (p.note (.word w)) := by
    intro w
    refine ⟨[.word w], rfl, rfl, fun a ha => ?_⟩
    rw [List.mem_singleton.mp ha]
    exact ⟨by simp, fun w hw => nomatch hw⟩
  rw [moveWord]
  split
  · exact hword (p.fifo 0)
  · exact hword _

theorem growsBy_moveWords (dir : Direction) (n left : Nat) (p : Port) :
    GrowsBy dir n p (moveWords dir n left p) := by
  induction n generalizing left p with
  | zero => exact .refl dir p
  | succ n ih =>
    have hmoved := (growsBy_moveWord dir left p).trans (ih (left - 1) (moveWord dir left p))
    rwa [Nat.add_comm] at hmoved

theorem growsBy_startWait {n : Nat} (h : startWait dir n p = (.done, p')) : GrowsBy dir 0 p p' := by
  induction n generalizing p with
  | zero =>
    rw [startWait] at h
    split at h
    · cases h
    · next hclean =>
      split at h
      · cases h
        exact growsBy_readSta (not_not.mp hclean)
      · cases h
  | succ n ih =>
    rw [startWait] at h
    split at h
    · cases h
    · next hclean =>
      split at h
      · cases h
        exact growsBy_readSta (not_not.mp hclean)
      · exact (growsBy_readSta (not_not.mp hclean)).trans (ih h)

/-- A loop that moves its words has moved them all, on clean reads. -/
theorem growsBy_moveLoop {words timeout : Nat} (h : moveLoop dir words timeout p = (.done, p')) :
    GrowsBy dir words p p' := by
  fun_induction moveLoop dir words timeout p with
  | case1 =>
    cases h
    exact .refl dir _
  | case2 => cases h
  | case3 => cases h
  | case4 p words timeout hclean hburst ih =>
    have hread := growsBy_readSta (not_not.mp hclean)
    have hmoved := (hread.trans (growsBy_moveWords dir _ _ _)).trans (ih h)
    rwa [show 0 + min 8 (words + 1) + (words + 1 - 8) = words + 1 by omega] at hmoved
  | case5 p words timeout hclean hburst hsingle ih =>
    have hread := growsBy_readSta (not_not.mp hclean)
    have hmoved := (hread.trans (growsBy_moveWord dir _ _)).trans (ih h)
    rwa [show 0 + 1 + words = words + 1 by omega] at hmoved
  | case6 p words timeout hclean hburst hsingle ih =>
    have hmoved := (growsBy_readSta (not_not.mp hclean)).trans (ih h)
    rwa [Nat.zero_add] at hmoved

/-! ## What the calls report -/

theorem EndsAtPoll.not_neverEnds (h : EndsAtPoll dir p.sta k) (hk : k ≤ dataStartSpins) :
    ¬ NeverEnds dir p.sta := fun hnever => h.2 (hnever.1 k hk)

/-- Only one poll is the first that sees `DBCKEND`. -/
theorem EndsAtPoll.unique {j : Nat} (h : EndsAtPoll dir p.sta j) (h' : EndsAtPoll dir p.sta k) :
    j = k := by
  rcases Nat.lt_trichotomy j k with hlt | heq | hgt
  · exact absurd (h'.1 j hlt).1 h.2
  · exact heq
  · exact absurd (h.1 k hgt).1 h'.2

/-- The reads of a wait that ended in time, as evidence. -/
theorem evidence_settle {start : Port} (hgrows : GrowsBy dir 128 start p)
    (hends : EndsAtPoll dir p.sta k) :
    Evidence dir ((settle dir (p.polled (2 * k + 1))).2.log.drop start.log.length) ↔
      ∀ j ≤ k, p.sta (2 * j) &&& dir.errors = 0 := by
  obtain ⟨l, hl, hwords, hclean⟩ := hgrows
  obtain ⟨rest, hrest⟩ := settle_log dir (p.polled (2 * k + 1))
  have hpolled : (p.polled (2 * k + 1)).log =
      start.log ++ (l ++ (List.range (2 * k + 1)).map fun i => Access.sta (p.sta i)) := by
    simp only [Port.polled, hl, List.append_assoc]
  generalize hreads : ((List.range (2 * k + 1)).map fun i => Access.sta (p.sta i)) = reads at hpolled
  have hmem : ∀ a, a ∈ reads ↔ ∃ i < 2 * k + 1, .sta (p.sta i) = a := by
    intro a
    rw [← hreads, List.mem_map]
    simp only [List.mem_range]
  rw [hrest, hpolled, List.append_assoc, List.drop_left]
  have hquiet : ∀ a ∈ l ++ reads, (a != .icr) = true := by
    intro a ha
    rw [bne_iff_ne]
    rcases List.mem_append.mp ha with hmoved | hread
    · exact (hclean a hmoved).1
    · obtain ⟨i, -, rfl⟩ := (hmem a).mp hread
      simp
  have hseen : ((l ++ reads) ++ .icr :: rest).takeWhile (· != .icr) = l ++ reads := by
    rw [List.takeWhile_append_of_pos hquiet, List.takeWhile_cons_of_neg (by simp), List.append_nil]
  simp only [Evidence, hseen]
  constructor
  · rintro ⟨-, hnone⟩ j hj
    exact hnone _ (List.mem_append_right l ((hmem _).mpr ⟨2 * j, by omega, rfl⟩))
  · intro hpolls
    refine ⟨⟨l ++ (List.range (2 * k)).map fun i => .sta (p.sta i), p.sta (2 * k), [], ?_, ?_,
      hends.2⟩, fun w hw => ?_⟩
    · rw [← hreads, List.range_succ, List.map_append, List.append_assoc]
      rfl
    · rw [wordsMoved, List.countP_append]
      exact Nat.le_add_right_of_le (Nat.le_of_eq hwords.symm)
    · rcases List.mem_append.mp hw with hmoved | hread
      · exact (hclean _ hmoved).2 w rfl
      · obtain ⟨i, hi, heq⟩ := (hmem _).mp hread
        cases heq
        -- an even read is a poll, an odd one is made in the body
        obtain ⟨j, rfl | rfl⟩ : ∃ j, i = 2 * j ∨ i = 2 * j + 1 := ⟨i / 2, by omega⟩
        · exact hpolls j (by omega)
        · exact (hends.1 j (by omega)).2

theorem endTransfer_neverEnds (h : NeverEnds dir p.sta) :
    endTransfer dir p = settle dir (p.polled (2 * dataStartSpins + 1)) := by
  rw [endTransfer, spin_neverEnds h]
  rfl

theorem endTransfer_endsAtPoll (h : EndsAtPoll dir p.sta k) (hk : k < dataStartSpins) :
    endTransfer dir p = settle dir (p.polled (2 * k + 1)) := by
  have hleft : ¬ UInt32.ofNat (dataStartSpins - k) = 0 := by
    have hbound : dataStartSpins < 4294967296 := by decide
    rw [counter_eq_zero (by omega)]
    omega
  rw [endTransfer, spin_endsAtPoll h (Nat.le_of_lt hk)]
  simp only [if_neg hleft]

theorem endTransfer_late (h : EndsAtPoll dir p.sta dataStartSpins) :
    (endTransfer dir p).1 = .timeout := by
  rw [endTransfer, spin_endsAtPoll h (Nat.le_refl _), Nat.sub_self]
  rfl

theorem endTransfer_iff {start : Port} (hgrows : GrowsBy dir 128 start p) :
    (((endTransfer dir p).1 = .ok → Evidence dir ((endTransfer dir p).2.log.drop start.log.length)) ∧
      (NeverEnds dir p.sta → (endTransfer dir p).1 = .timeout)) ↔ EndsSoundly dir p := by
  rcases lastWait_cases dir p with hnever | ⟨k, hk, hends⟩ | ⟨q, hspin⟩
  · rw [EndsSoundly, endTransfer_neverEnds hnever, spin_neverEnds hnever]
    constructor
    · rintro ⟨-, htimeout⟩
      refine Or.inl ?_
      rw [htimeout hnever]
      decide
    · rintro (hsettle | ⟨hnot, -⟩)
      · exact ⟨fun hok => absurd hok hsettle, fun _ => (settle_status dir _).resolve_left hsettle⟩
      · exact absurd hnever hnot
  · have hnot := hends.not_neverEnds hk
    rcases Nat.lt_or_eq_of_le hk with hlt | rfl
    · rw [EndsSoundly, endTransfer_endsAtPoll hends hlt, spin_endsAtPoll hends hk,
        evidence_settle hgrows hends]
      constructor
      · rintro ⟨hevidence, -⟩
        by_cases hok : (settle dir (p.polled (2 * k + 1))).1 = .ok
        · refine Or.inr ⟨hnot, fun j _ hj => ?_⟩
          rw [← hends.unique hj]
          exact hevidence hok
        · exact Or.inl hok
      · rintro (hsettle | ⟨-, hpolls⟩)
        · exact ⟨fun hok => absurd hok hsettle, fun h => absurd h hnot⟩
        · exact ⟨fun _ => hpolls k hlt hends, fun h => absurd h hnot⟩
    · have hlate := endTransfer_late hends
      refine iff_of_true ⟨fun hok => ?_, fun _ => hlate⟩ (Or.inr ⟨hnot, fun j hj hj' => ?_⟩)
      · rw [hlate] at hok
        cases hok
      · have := hends.unique hj'
        omega
  · have herror : (endTransfer dir p).1 = .error := by rw [endTransfer, hspin]
    have hnot : ¬ NeverEnds dir p.sta := by
      intro h
      rw [spin_neverEnds h] at hspin
      cases hspin
    refine iff_of_true ⟨fun hok => ?_, fun h => absurd h hnot⟩ (Or.inr ⟨hnot, fun k hk hends => ?_⟩)
    · rw [herror] at hok
      cases hok
    · rw [spin_endsAtPoll hends (Nat.le_of_lt hk)] at hspin
      cases hspin

theorem dataPhase_iff (dir : Direction) (start : Port) :
    (((dataPhase dir start).1 = .ok →
        Evidence dir ((dataPhase dir start).2.log.drop start.log.length)) ∧
      (RunsOut dir start → (dataPhase dir start).1 = .timeout)) ↔
      AtLastWait dir (EndsSoundly dir) start := by
  rw [dataPhase, RunsOut, AtLastWait]
  rcases hstart : startWait dir dataStartSpins start with ⟨waited, p₂⟩
  cases waited with
  | failed => exact iff_of_true ⟨fun h => (nomatch h), fun h => (nomatch h)⟩ trivial
  | spent => exact iff_of_true ⟨fun h => (nomatch h), fun _ => rfl⟩ trivial
  | done =>
    dsimp only
    rcases hmove : moveLoop dir 128 fifoSpinLimit (p₂.note .irqsOff) with ⟨waited, p₃⟩
    cases waited with
    | failed => exact iff_of_true ⟨fun h => (nomatch h), fun h => (nomatch h)⟩ trivial
    | spent => exact iff_of_true ⟨fun h => (nomatch h), fun _ => rfl⟩ trivial
    | done =>
      have hmoved := ((growsBy_startWait hstart).trans (growsBy_irqs dir p₂ (Or.inl rfl))).trans
        ((growsBy_moveLoop hmove).trans (growsBy_irqs dir p₃ (Or.inr rfl)))
      exact endTransfer_iff hmoved

/-- The transfer is sound if and only if its last wait is, when it is reached. -/
theorem blockReports_iff (dir : Direction) (addr : BitVec 32) (given : Bool) (p : Port) :
    BlockReports dir addr given p (blockTransfer dir addr given p) ↔
      (given = true → (beginTransfer dir addr p).1 = .ok →
        AtLastWait dir (EndsSoundly dir) (beginTransfer dir addr p).2) := by
  rw [BlockReports, blockTransfer]
  cases given with
  | false =>
    rw [if_pos rfl]
    exact iff_of_true ⟨fun h => (nomatch h), fun h => (nomatch h)⟩ (fun h => (nomatch h))
  | true =>
    rw [if_neg (by decide)]
    rcases beginTransfer dir addr p with ⟨err, start⟩
    cases err with
    | ok => simpa only [true_implies, true_and] using dataPhase_iff dir start
    | _ => exact iff_of_true ⟨fun h => (nomatch h), fun _ h => (nomatch h)⟩ fun _ h => (nomatch h)

end

end NavHAL.Sdio
