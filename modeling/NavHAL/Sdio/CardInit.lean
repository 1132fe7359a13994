import NavHAL.Sdio.Polled

/-!
# Card initialisation (`sdio.c`)

`hal_sdio_card_init` asks a card up to 1000 times whether it is ready.  The test behind
the loop takes 1000 refusals for success and a success at the last poll for a timeout
(`cardInitReports_iff`).
-/

namespace NavHAL.Sdio

open Polling

/-! ## The handshake -/

def ocrReady : BitVec 32 := 1#32 <<< 31

def ocrHighCapacity : BitVec 32 := 1#32 <<< 30

/-- One poll with `ACMD41`. -/
def acmd41Round (p : Port) : Round SdioError Port :=
  let app := sendCommand cmdAppCmd 0 1 p
  let sent := sendCommand acmdSdSendOpCond 0x40FF8000 2 app.2
  if sent.1 ≠ .ok then .exit sent.1 sent.2
  else
    let resp := getResponse 1 sent.2
    if resp.1 &&& ocrReady ≠ 0 then
      .stop { resp.2 with
        cardIsSdhc := resp.2.cardIsSdhc || resp.1 &&& ocrHighCapacity != 0 }
    else .next resp.2

/-- The loop has no guard but its budget. -/
def always (p : Port) : Bool × Port := (true, p)

def acmd41Polls : Nat := 1000

/-- `CMD9`, while the card is in standby. -/
def readCsd (p : Port) : Port :=
  let sent := sendCommand cmdSendCsd p.sdRca 3 p
  if sent.1 = .ok then
    let p := sent.2
    { (((p.readResp 1).readResp 2).readResp 3).readResp 4 with
      sdCsd := [p.resp 0, p.resp 1, p.resp 2, p.resp 3]
      sdCsdValid := true }
  else sent.2

def Port.setClkcr (w : BitVec 32) (p : Port) : Port := { p.note (.clkcr w) with clkcr := w }

/-- The switch to four lines, when it is asked for and the card agrees. -/
def setBusWidth (p : Port) : Port :=
  if p.desiredBusWidth4 then
    let one (p : Port) := p.setClkcr (p.clkcr &&& ~~~clkcrWidbusMsk ||| clkcrWidbus1b)
    let app := sendCommand cmdAppCmd p.sdRca 1 p
    if app.1 ≠ .ok then one app.2
    else if (r1Refused app.2).1 then one (r1Refused app.2).2
    else
      let sent := sendCommand acmdSetBusWidth 2 1 (r1Refused app.2).2
      if sent.1 ≠ .ok then one sent.2
      else
        let p := (r1Refused sent.2).2
        if (r1Refused sent.2).1 then one p
        else p.setClkcr (p.clkcr &&& ~~~clkcrWidbusMsk ||| clkcrWidbus4b)
  else p

/-- What follows the polls. -/
def identify (p : Port) : Port :=
  let p := (sendCommand cmdAllSendCid 0 3 p).2
  let p := (sendCommand cmdSendRelAddr 0 1 p).2
  let rca := getResponse 1 p
  let p := readCsd { rca.2 with sdRca := rca.1 &&& 0xFFFF0000 }
  let p := (sendCommand cmdSelectDeselectCard p.sdRca 1 p).2
  let p := if p.cardIsSdhc then p else (sendCommand cmdSetBlocklen 512 1 p).2
  let p := setBusWidth p
  p.setClkcr (p.clkcr &&& ~~~(clkcrClkdiv ||| clkcrHwfcEn ||| clkcrPwrsav) ||| 2 ||| clkcrHwfcEn |||
    clkcrClken)

/-- `CMD0` -/
def goIdle (p : Port) : SdioError × Port := sendCommand cmdGoIdleState 0 0 p

/-- The port at the first poll. -/
def pollStart (p : Port) : Port := (sendCommand cmdHsSendExtCsd 0x1AA 1 (goIdle p).2).2

/-- `hal_sdio_card_init`, with a card in the slot or not. -/
def halSdioCardInit (present : Bool) (p : Port) : SdioError × Port :=
  if present = false then (.noCard, p)
  else if p.initialized then (.ok, p)
  else if (goIdle p).1 ≠ .ok then goIdle p
  else match spin always acmd41Round acmd41Polls (pollStart p) with
    | (.exit err, p) => (err, p)
    | (.counter left, p) =>
      if left = 0 then (.timeout, p) else (.ok, { identify p with initialized := true })

/-! ## What the set-up reports -/

/-- A response to `ACMD41` had its ready bit set. -/
def ReadySeen (log : List Access) : Prop :=
  ∃ w, .resp acmdSdSendOpCond 1 w ∈ log ∧ w &&& ocrReady ≠ 0

/-- All the polls are answered, and none has the bit set. -/
def AllLackReady (p : Port) : Prop :=
  (goIdle p).1 = .ok ∧ ∃ q, rounds always acmd41Round acmd41Polls (pollStart p) = some q

/-- `CMD0` or the command of a poll itself times out. -/
def CommandTimesOut (p : Port) : Prop :=
  (goIdle p).1 = .timeout ∨ (goIdle p).1 = .ok ∧ ∃ k < acmd41Polls, ∃ q r,
    rounds always acmd41Round k (pollStart p) = some q ∧ acmd41Round q = .exit .timeout r

/-- The card is taken as initialised only when it said that it is ready; the call times
out when all polls lack that, and no other way than on a command. -/
def CardInitReports (present : Bool) (p : Port) : Prop :=
  present = true → p.initialized = false →
    ((halSdioCardInit present p).2.initialized = true →
      ReadySeen ((halSdioCardInit present p).2.log.drop p.log.length)) ∧
    (AllLackReady p → (halSdioCardInit present p).1 = .timeout) ∧
    ((halSdioCardInit present p).1 = .timeout → AllLackReady p ∨ CommandTimesOut p)

/-- When the last poll is reached its command fails. -/
def LastPollFails (p : Port) : Prop :=
  (goIdle p).1 = .ok → ∀ q, rounds always acmd41Round (acmd41Polls - 1) (pollStart p) = some q →
    ∃ e r, acmd41Round q = .exit e r

/-! ## What the handshake leaves alone -/

section

variable {p q r : Port} {k : Nat}

theorem extends_setClkcr (w : BitVec 32) (p : Port) : Extends p (p.setClkcr w) := ⟨⟨[_], rfl⟩, rfl⟩

theorem extends_goIdle (p : Port) : Extends p (goIdle p).2 := extends_sendCommand _ _ _ p

theorem extends_pollStart (p : Port) : Extends p (pollStart p) :=
  (extends_goIdle p).trans (extends_sendCommand _ _ _ _)

theorem extends_readCsd (p : Port) : Extends p (readCsd p) := by
  have hsent := extends_sendCommand cmdSendCsd p.sdRca 3 p
  simp only [readCsd]
  split
  · generalize sendCommand cmdSendCsd p.sdRca 3 p = sent at hsent ⊢
    have hread := (((extends_readResp 1 sent.2).trans (extends_readResp 2 _)).trans
      (extends_readResp 3 _)).trans (extends_readResp 4 _)
    exact hsent.trans ⟨hread.log, hread.initialized⟩
  · exact hsent

theorem extends_setBusWidth (p : Port) : Extends p (setBusWidth p) := by
  simp only [setBusWidth]
  split
  · have happ := extends_sendCommand cmdAppCmd p.sdRca 1 p
    split
    · exact happ.trans (extends_setClkcr _ _)
    · have hread : Extends p (r1Refused (sendCommand cmdAppCmd p.sdRca 1 p).2).2 :=
        happ.trans (extends_readResp 1 _)
      split
      · exact hread.trans (extends_setClkcr _ _)
      · have hsent := hread.trans (extends_sendCommand acmdSetBusWidth 2 1 _)
        split
        · exact hsent.trans (extends_setClkcr _ _)
        · have hlast := hsent.trans (extends_readResp 1 _)
          split
          · exact hlast.trans (extends_setClkcr _ _)
          · exact hlast.trans (extends_setClkcr _ _)
  · exact .refl p

theorem extends_identify (p : Port) : Extends p (identify p) := by
  have hrca := ((extends_sendCommand cmdAllSendCid 0 3 p).trans
    (extends_sendCommand cmdSendRelAddr 0 1 _)).trans (extends_getResponse 1 _)
  have hcsd := extends_readCsd { (getResponse 1 (sendCommand cmdSendRelAddr 0 1
    (sendCommand cmdAllSendCid 0 3 p).2).2).2 with
    sdRca := (getResponse 1 (sendCommand cmdSendRelAddr 0 1
      (sendCommand cmdAllSendCid 0 3 p).2).2).1 &&& 0xFFFF0000 }
  have hstandby := hrca.trans ⟨hcsd.log, hcsd.initialized⟩
  simp only [identify]
  refine Extends.trans ?_ (extends_setClkcr _ _)
  refine Extends.trans ?_ (extends_setBusWidth _)
  split
  · exact hstandby.trans (extends_sendCommand _ _ _ _)
  · exact (hstandby.trans (extends_sendCommand _ _ _ _)).trans (extends_sendCommand _ _ _ _)

/-! ## One poll -/

theorem extends_acmd41 (p : Port) :
    Extends p (sendCommand acmdSdSendOpCond 0x40FF8000 2 (sendCommand cmdAppCmd 0 1 p).2).2 :=
  (extends_sendCommand _ _ _ p).trans (extends_sendCommand _ _ _ _)

theorem acmd41Round_next (h : acmd41Round p = .next q) : Extends p q := by
  simp only [acmd41Round] at h
  split at h
  · cases h
  · split at h
    · cases h
    · cases h
      exact (extends_acmd41 p).trans (extends_getResponse 1 _)

theorem acmd41Round_exit {e : SdioError} (h : acmd41Round p = .exit e q) :
    q.initialized = p.initialized := by
  simp only [acmd41Round] at h
  split at h
  · cases h
    exact (extends_acmd41 p).initialized
  · split at h <;> cases h

/-- A poll that ends the loop has seen the ready bit. -/
theorem acmd41Round_stop (h : acmd41Round p = .stop q) :
    q.initialized = p.initialized ∧ ∃ l, q.log = p.log ++ l ∧ ReadySeen l := by
  have hextends := extends_acmd41 p
  simp only [acmd41Round] at h
  generalize hsent : sendCommand acmdSdSendOpCond 0x40FF8000 2 (sendCommand cmdAppCmd 0 1 p).2 = sent
    at h hextends
  split at h
  · cases h
  · next hok =>
    have hkept := sendCommand_ok (hsent ▸ not_not.mp hok)
    rw [hsent] at hkept
    have hread : getResponse 1 sent.2 = (sent.2.resp 0, sent.2.readResp 1) := by
      rw [getResponse, if_neg (by simp [hkept.1]), if_pos (by decide)]
    rw [hread] at h
    split at h
    · next hready =>
      cases h
      obtain ⟨l, hl⟩ := hextends.log
      refine ⟨hextends.initialized, l ++ [.resp acmdSdSendOpCond 1 (sent.2.resp 0)], ?_, ?_⟩
      · simp only [Port.readResp, Port.note, hl, hkept.2, List.append_assoc]
      · exact ⟨sent.2.resp 0, by simp, hready⟩
    · cases h

theorem extends_rounds (h : rounds always acmd41Round k p = some q) : Extends p q := by
  induction k generalizing p with
  | zero => exact Option.some.inj h ▸ .refl p
  | succ k ih =>
    rw [rounds, Option.bind_eq_some_iff] at h
    obtain ⟨t, hround, hrest⟩ := h
    exact (acmd41Round_next (oneRound_some hround).2).trans (ih hrest)

/-! ## All the polls -/

theorem halSdioCardInit_loop (hinit : p.initialized = false) (hidle : (goIdle p).1 = .ok) :
    halSdioCardInit true p =
      match spin always acmd41Round acmd41Polls (pollStart p) with
      | (.exit err, p) => (err, p)
      | (.counter left, p) =>
        if left = 0 then (.timeout, p) else (.ok, { identify p with initialized := true }) := by
  rw [halSdioCardInit, if_neg (by decide), if_neg (by simp [hinit]), if_neg (not_not_intro hidle)]

/-- The log since the call began, once a poll has seen the bit. -/
theorem readySeen_stop {log : List Access}
    (hrounds : rounds always acmd41Round k (pollStart p) = some q)
    (hstop : acmd41Round q = .stop r) (hlast : ∃ l, log = r.log ++ l) :
    ReadySeen (log.drop p.log.length) := by
  obtain ⟨l₁, hl₁⟩ := ((extends_pollStart p).trans (extends_rounds hrounds)).log
  obtain ⟨-, l₂, hl₂, w, hw, hready⟩ := acmd41Round_stop hstop
  obtain ⟨l₃, hl₃⟩ := hlast
  rw [hl₃, hl₂, hl₁, List.append_assoc, List.append_assoc, List.drop_left]
  exact ⟨w, by simp [hw], hready⟩

/-- All polls lack the bit: the counter wraps, and the card counts as initialised. -/
theorem halSdioCardInit_spent (hinit : p.initialized = false) (hidle : (goIdle p).1 = .ok)
    (hrounds : rounds always acmd41Round acmd41Polls (pollStart p) = some q) :
    halSdioCardInit true p = (.ok, { identify q with initialized := true }) := by
  rw [halSdioCardInit_loop hinit hidle, spin_spent hrounds rfl]
  rfl

theorem halSdioCardInit_exit {e : SdioError} (hinit : p.initialized = false)
    (hidle : (goIdle p).1 = .ok) (hrounds : rounds always acmd41Round k (pollStart p) = some q)
    (hk : k < acmd41Polls) (hexit : acmd41Round q = .exit e r) :
    halSdioCardInit true p = (e, r) := by
  rw [halSdioCardInit_loop hinit hidle, spin_exited hrounds hk rfl hexit]

theorem halSdioCardInit_stop (hinit : p.initialized = false) (hidle : (goIdle p).1 = .ok)
    (hrounds : rounds always acmd41Round k (pollStart p) = some q) (hk : k < acmd41Polls)
    (hstop : acmd41Round q = .stop r) :
    halSdioCardInit true p =
      if k + 1 = acmd41Polls then (.timeout, r) else (.ok, { identify r with initialized := true }) := by
  have hbound : acmd41Polls = 1000 := rfl
  have hzero : UInt32.ofNat (acmd41Polls - k - 1) = 0 ↔ k + 1 = acmd41Polls := by
    rw [counter_eq_zero (by omega)]
    omega
  rw [halSdioCardInit_loop hinit hidle, spin_stopped hrounds hk rfl hstop]
  by_cases hlast : k + 1 = acmd41Polls
  · simp only [if_pos (hzero.mpr hlast), if_pos hlast]
  · simp only [if_neg (mt hzero.mp hlast), if_neg hlast]

theorem oneRound_none_of_not_next (hnext : ∀ t, acmd41Round q ≠ .next t) :
    oneRound always acmd41Round q = none := by
  cases hround : oneRound always acmd41Round q with
  | none => rfl
  | some t => exact absurd (oneRound_some hround).2 (hnext t)

theorem acmd41Polls_succ : acmd41Polls = acmd41Polls - 1 + 1 := rfl

/-- A poll that sees the bit leaves no room for a command that times out. -/
theorem not_commandTimesOut (hidle : (goIdle p).1 = .ok)
    (hrounds : rounds always acmd41Round k (pollStart p) = some q)
    (hstop : acmd41Round q = .stop r) : ¬ CommandTimesOut p := by
  have hnone : oneRound always acmd41Round q = none := oneRound_none_of_not_next (by simp [hstop])
  rintro (htimeout | ⟨-, j, -, t, u, ht, hexit⟩)
  · rw [hidle] at htimeout
    cases htimeout
  · have hnone' : oneRound always acmd41Round t = none := oneRound_none_of_not_next (by simp [hexit])
    rcases Nat.lt_trichotomy j k with hlt | rfl | hgt
    · rw [rounds_stuck ht hnone' hlt] at hrounds
      cases hrounds
    · rw [ht] at hrounds
      cases hrounds
      rw [hstop] at hexit
      cases hexit
    · rw [rounds_stuck hrounds hnone hgt] at ht
      cases ht

theorem not_allLackReady (hrounds : rounds always acmd41Round k (pollStart p) = some q)
    (hk : k < acmd41Polls) (hnone : oneRound always acmd41Round q = none) : ¬ AllLackReady p := by
  rintro ⟨-, t, ht⟩
  rw [rounds_stuck hrounds hnone hk] at ht
  cases ht

/-! ## How the call ends -/

theorem not_reports_spent (hinit : p.initialized = false) (hidle : (goIdle p).1 = .ok)
    (hrounds : rounds always acmd41Round acmd41Polls (pollStart p) = some q) :
    ¬ CardInitReports true p ∧ ¬ LastPollFails p := by
  refine ⟨fun h => ?_, fun h => ?_⟩
  · have htimeout := (h rfl hinit).2.1 ⟨hidle, q, hrounds⟩
    rw [halSdioCardInit_spent hinit hidle hrounds] at htimeout
    cases htimeout
  · rw [acmd41Polls_succ, rounds_succ, Option.bind_eq_some_iff] at hrounds
    obtain ⟨t, hlast, hround⟩ := hrounds
    obtain ⟨e, r, hexit⟩ := h hidle t hlast
    have hnext : acmd41Round t = .next q := (oneRound_some hround).2
    rw [hnext] at hexit
    cases hexit

/-- A bit that is seen is reported, but for the last poll. -/
theorem reports_stop_iff (hinit : p.initialized = false) (hidle : (goIdle p).1 = .ok)
    (hrounds : rounds always acmd41Round k (pollStart p) = some q) (hk : k < acmd41Polls)
    (hstop : acmd41Round q = .stop r) : CardInitReports true p ↔ LastPollFails p := by
  have hnone : oneRound always acmd41Round q = none :=
    oneRound_none_of_not_next (by simp [hstop])
  have hlack := not_allLackReady hrounds hk hnone
  have hinit' := halSdioCardInit_stop hinit hidle hrounds hk hstop
  by_cases hlast : k + 1 = acmd41Polls
  · rw [if_pos hlast] at hinit'
    refine iff_of_false (fun h => ?_) fun h => ?_
    · have hwhy := (h rfl hinit).2.2 (by rw [hinit'])
      exact hwhy.elim hlack (not_commandTimesOut hidle hrounds hstop)
    · obtain ⟨e, t, hexit⟩ := h hidle q (by rw [← hrounds, ← hlast]; rfl)
      rw [show acmd41Round q = .stop r from hstop] at hexit
      cases hexit
  · rw [if_neg hlast] at hinit'
    refine iff_of_true (fun _ _ => ?_) ?_
    · rw [hinit']
      refine ⟨fun _ => ?_, fun h => absurd h hlack, fun h => (nomatch h)⟩
      exact readySeen_stop hrounds hstop (extends_identify r).log
    · intro _ t ht
      rw [rounds_stuck hrounds hnone (by omega)] at ht
      cases ht

/-- A command that fails ends the call with its error. -/
theorem reports_exit {e : SdioError} (hinit : p.initialized = false) (hidle : (goIdle p).1 = .ok)
    (hrounds : rounds always acmd41Round k (pollStart p) = some q) (hk : k < acmd41Polls)
    (hexit : acmd41Round q = .exit e r) : CardInitReports true p ∧ LastPollFails p := by
  have hnone : oneRound always acmd41Round q = none :=
    oneRound_none_of_not_next (by simp [hexit])
  have hunset : r.initialized = false := by
    rw [acmd41Round_exit hexit, (extends_rounds hrounds).initialized,
      (extends_pollStart p).initialized, hinit]
  refine ⟨fun _ _ => ?_, ?_⟩
  · rw [halSdioCardInit_exit hinit hidle hrounds hk hexit]
    refine ⟨fun h => ?_, fun h => absurd h (not_allLackReady hrounds hk hnone),
      fun h => Or.inr ?_⟩
    · rw [hunset] at h
      cases h
    · exact Or.inr ⟨hidle, k, hk, q, r, hrounds, by rw [← show e = .timeout from h]; exact hexit⟩
  · intro _ t ht
    rcases Nat.lt_or_eq_of_le (show k ≤ acmd41Polls - 1 by omega) with hlt | heq
    · rw [rounds_stuck hrounds hnone hlt] at ht
      cases ht
    · rw [← heq, hrounds] at ht
      cases ht
      exact ⟨e, r, hexit⟩

theorem reports_idle (hinit : p.initialized = false) (hidle : (goIdle p).1 ≠ .ok) :
    CardInitReports true p ∧ LastPollFails p := by
  have hresult : halSdioCardInit true p = goIdle p := by
    rw [halSdioCardInit, if_neg (by decide), if_neg (by simp [hinit]), if_pos hidle]
  refine ⟨fun _ _ => ?_, fun h => absurd h hidle⟩
  rw [hresult]
  refine ⟨fun h => ?_, fun h => absurd h.1 hidle, fun h => Or.inr (Or.inl h)⟩
  rw [(extends_goIdle p).initialized, hinit] at h
  cases h

theorem cardInitReports_iff (present : Bool) (p : Port) :
    CardInitReports present p ↔ (present = true → p.initialized = false → LastPollFails p) := by
  have hiff : p.initialized = false → (CardInitReports true p ↔ LastPollFails p) := by
    intro hinit
    by_cases hidle : (goIdle p).1 = .ok
    case neg =>
      obtain ⟨hreports, hlast⟩ := reports_idle hinit hidle
      exact iff_of_true hreports hlast
    rcases rounds_total always acmd41Round acmd41Polls (pollStart p) with
      ⟨q, hrounds⟩ | ⟨k, hk, q, hrounds, hnone⟩
    · obtain ⟨hreports, hlast⟩ := not_reports_spent hinit hidle hrounds
      exact iff_of_false hreports hlast
    rcases oneRound_none hnone with hguard | ⟨-, ⟨r, hstop⟩ | ⟨e, r, hexit⟩⟩
    · cases hguard
    · exact reports_stop_iff hinit hidle hrounds hk hstop
    · obtain ⟨hreports, hlast⟩ := reports_exit hinit hidle hrounds hk hexit
      exact iff_of_true hreports hlast
  constructor
  · rintro h rfl hinit
    exact (hiff hinit).mp h
  · rintro h rfl hinit
    exact (hiff hinit).mpr (h rfl hinit) rfl hinit

end

/-! ## The polled calls -/

/-- For everything that the registers may read: each call succeeds on evidence alone, and
reports a budget that runs out, if and only if its last wait does not go wrong. -/
theorem sdio_polled_iff (p : Port) :
    (∀ addr given, BlockReports .read addr given p (halSdioReadBlock addr given p) ↔
      (given = true → (beginTransfer .read addr p).1 = .ok →
        AtLastWait .read (EndsSoundly .read) (beginTransfer .read addr p).2)) ∧
      (∀ (words : Option (Nat → BitVec 32)) addr,
        let dir := Direction.write (words.getD fun _ => 0)
        BlockReports dir addr words.isSome p (halSdioWriteBlock addr words p) ↔
          (words.isSome = true → (beginTransfer dir addr p).1 = .ok →
            AtLastWait dir (EndsSoundly dir) (beginTransfer dir addr p).2)) ∧
      ∀ present, CardInitReports present p ↔
        (present = true → p.initialized = false → LastPollFails p) :=
  ⟨fun addr given => blockReports_iff .read addr given p,
    fun words addr => blockReports_iff (.write (words.getD fun _ => 0)) addr words.isSome p,
    fun present => cardInitReports_iff present p⟩

/-- Commands are answered and words arrive, but `DBCKEND` does not; the card is in the
transfer state, and says with that same response that it is not ready. -/
def silentPort : Port where
  sta := fun _ => staCmdrend ||| staCmdsent ||| staRxfifohf
  fifo := fun _ => 0
  resp := fun _ => 0x800

/-- A port that reads as `silentPort` does. -/
def Silent (p : Port) : Prop :=
  p.clockOn = true ∧ p.sta = silentPort.sta ∧ p.resp = silentPort.resp

section

variable {p : Port}

theorem silent_sta (h : Silent p) (i : Nat) : p.sta i = staCmdrend ||| staCmdsent ||| staRxfifohf := by
  rw [h.2.1]
  rfl

theorem silent_note (h : Silent p) (a : Access) : Silent (p.note a) := h

theorem silent_readSta (h : Silent p) : Silent p.readSta :=
  ⟨h.1, by rw [Port.readSta, h.2.1]; rfl, h.2.2⟩

theorem silent_sendCommand (h : Silent p) (cmd : Nat) (arg : BitVec 32) (resp : Nat) :
    (sendCommand cmd arg resp p).1 = .ok ∧ Silent (sendCommand cmd arg resp p).2 := by
  have hsent : Silent { (p.note .icr).note (.command cmd arg resp) with lastCmd := cmd } := h
  rw [sendCommand, if_neg (by simp [h.1])]
  dsimp only
  generalize { (p.note .icr).note (.command cmd arg resp) with lastCmd := cmd } = q at hsent ⊢
  split
  · rw [waitFlag, silent_sta hsent, if_pos (by decide)]
    exact ⟨rfl, silent_readSta hsent⟩
  · rw [waitResponse, silent_sta hsent, if_neg (by decide), if_neg (by decide), if_pos (by decide)]
    exact ⟨rfl, silent_readSta hsent⟩

theorem silent_getResponse (h : Silent p) :
    (getResponse 1 p).1 = 0x800 ∧ Silent (getResponse 1 p).2 := by
  rw [getResponse, if_neg (by simp [h.1]), if_pos (by decide)]
  exact ⟨by rw [h.2.2]; rfl, h.1, h.2.1, by rw [Port.readResp, h.2.2]; rfl⟩

theorem silent_beginTransfer (h : Silent p) :
    (beginTransfer .read 0 p).1 = .ok ∧ Silent (beginTransfer .read 0 p).2 := by
  obtain ⟨hok, hsent⟩ := silent_sendCommand h cmdSendStatus p.sdRca 1
  obtain ⟨hstate, hread⟩ := silent_getResponse hsent
  have hready : (waitCardReady p).1 = .ok ∧ Silent (waitCardReady p).2 := by
    rw [waitCardReady, waitCardReadyLoop]
    dsimp only
    rw [if_pos hok, hstate, if_pos (by decide)]
    exact ⟨rfl, hread⟩
  have hset := silent_note (silent_note (silent_note (silent_note hready.2 .icr)
    (.dtimer dataTimeoutClks)) (.dlen 512)) (.dctrl Direction.read.dctrl)
  obtain ⟨hok', hsent'⟩ := silent_sendCommand hset Direction.read.cmd
    (if p.cardIsSdhc then 0 else 0 * 512) 1
  simp only [beginTransfer]
  rw [if_neg (not_not_intro hready.1), if_neg (not_not_intro hok')]
  exact ⟨rfl, hsent'⟩

theorem silent_startWait (h : Silent p) (n : Nat) :
    ∃ q, startWait .read n p = (.done, q) ∧ Silent q := by
  refine ⟨p.readSta, ?_, silent_readSta h⟩
  cases n with
  | zero => rw [startWait, silent_sta h, if_neg (by decide), if_pos (by decide)]
  | succ n => rw [startWait, silent_sta h, if_neg (by decide), if_pos (by decide)]

theorem silent_moveWords (h : Silent p) (n left : Nat) : Silent (moveWords .read n left p) := by
  induction n generalizing left p with
  | zero => exact h
  | succ n ih =>
    have hword : Silent (moveWord .read left p) := h
    exact ih hword (left - 1)

theorem silent_moveLoop (words : Nat) (h : Silent p) :
    ∃ q, moveLoop .read words fifoSpinLimit p = (.done, q) ∧ Silent q := by
  induction words using Nat.strongRecOn generalizing p with
  | ind words ih =>
    cases words with
    | zero => exact ⟨p, by rw [moveLoop], h⟩
    | succ words =>
      rw [fifoSpinLimit, moveLoop, silent_sta h, if_neg (by decide), if_pos (by decide)]
      exact ih _ (by omega) (silent_moveWords (silent_readSta h) _ _)

theorem silent_neverEnds (h : Silent p) : NeverEnds .read p.sta := by
  refine ⟨fun k _ => ?_, fun k _ => ?_⟩
  · rw [silent_sta h]
    decide
  · rw [silent_sta h]
    decide

theorem silent_acmd41 (h : Silent p) :
    ∃ q, oneRound always acmd41Round p = some q ∧ Silent q := by
  obtain ⟨-, happ⟩ := silent_sendCommand h cmdAppCmd 0 1
  obtain ⟨hok, hsent⟩ := silent_sendCommand happ acmdSdSendOpCond 0x40FF8000 2
  obtain ⟨hresp, hread⟩ := silent_getResponse hsent
  refine ⟨_, ?_, hread⟩
  have hnext : acmd41Round p = .next (getResponse 1
      (sendCommand acmdSdSendOpCond 0x40FF8000 2 (sendCommand cmdAppCmd 0 1 p).2).2).2 := by
    simp only [acmd41Round]
    rw [if_neg (not_not_intro hok), hresp, if_neg (by decide)]
  simp only [oneRound, always, if_true, hnext]

end

theorem silent_card_reported_ok :
    ¬ BlockReports .read 0 true silentPort (halSdioReadBlock 0 true silentPort) ∧
      (halSdioReadBlock 0 true silentPort).1 = .ok ∧
      ¬ CardInitReports true silentPort ∧
      (halSdioCardInit true silentPort).2.initialized = true := by
  have hsilent : Silent silentPort := ⟨rfl, rfl, rfl⟩
  obtain ⟨hbegin, hbegun⟩ := silent_beginTransfer hsilent
  obtain ⟨p₂, hstart, h₂⟩ := silent_startWait hbegun dataStartSpins
  obtain ⟨p₃, hmove, h₃⟩ := silent_moveLoop 128 (show Silent (p₂.note .irqsOff) from h₂)
  have hnever : NeverEnds .read (p₃.note .irqsOn).sta := silent_neverEnds h₃
  have hidle := silent_sendCommand hsilent cmdGoIdleState 0 0
  have hpolls := (silent_sendCommand hidle.2 cmdHsSendExtCsd 0x1AA 1).2
  obtain ⟨q, hrounds, -⟩ :=
    rounds_of_invariant Silent (fun p h => silent_acmd41 h) acmd41Polls hpolls
  have hinit := halSdioCardInit_spent rfl hidle.1 hrounds
  refine ⟨fun h => ?_, ?_, fun h => ?_, by rw [hinit]⟩
  · have hsound := (blockReports_iff .read 0 true silentPort).mp h rfl hbegin
    simp only [AtLastWait, hstart, hmove] at hsound
    exact hsound.elim (fun hsettle => hsettle rfl) fun hends => hends.1 hnever
  · have hpair : beginTransfer .read 0 silentPort = (.ok, (beginTransfer .read 0 silentPort).2) :=
      Prod.ext hbegin rfl
    rw [halSdioReadBlock, blockTransfer, if_neg (by decide), hpair]
    simp only [dataPhase, hstart, hmove, endTransfer_neverEnds hnever]
    rfl
  · have htimeout := (h rfl rfl).2.1 ⟨hidle.1, q, hrounds⟩
    rw [hinit] at htimeout
    cases htimeout

end NavHAL.Sdio
