import NavHAL.Lib.Steps
import NavHAL.Sdio.Driver

/-!
# Completion of the asynchronous transfers

A run starts transfers and delivers the SDIO and DMA interrupts of each, in any
order.  The driver has one rendezvous for all of them, so that a DMA interrupt
which an error overtook meets the flags of a transfer that is over, or those of
the next one.
-/

namespace NavHAL.Sdio

open Steps (run Always Each)

/-! ## Runs -/

/-- What has happened to a transfer since its call returned `pending`. -/
structure Operation where
  isWrite : Bool
  /-- The end that SDIO has reported, an error or `ok` for DATAEND. -/
  sdio : Option SdioError
  /-- The DMA transfer-complete interrupt has come. -/
  dma : Bool
  /-- The invocations of the callback since it is the last one started. -/
  reports : Nat
  deriving DecidableEq

/-- An error alone ends a transfer, DATAEND only with the DMA interrupt. -/
def Operation.finished (op : Operation) : Bool :=
  match op.sdio with
  | none => false
  | some err => err != .ok || op.dma

/-- The driver and the transfers in the order of their start. -/
structure RunState where
  driver : Driver
  started : Nat
  ops : Nat → Operation

namespace RunState

def modify (k : Nat) (f : Operation → Operation) (r : RunState) : RunState :=
  { r with ops := fun j => if j = k then f (r.ops j) else r.ops j }

/-- An invocation of the callback is one of the transfer started last. -/
def report (cb : Option SdioError) (r : RunState) : RunState :=
  match cb with
  | none => r
  | some _ => r.modify (r.started - 1) fun op => { op with reports := op.reports + 1 }

def start (isWrite : Bool) (r : RunState) : RunState :=
  { r with
    started := r.started + 1
    ops := fun j =>
      if j = r.started then { isWrite := isWrite, sdio := none, dma := false, reports := 0 }
      else r.ops j }

end RunState

inductive Event
  | start (call : StartCall) (ans : Answers)
  /-- The SDIO interrupt of a transfer, with this status word. -/
  | sdioIrq (k : Nat) (sta : BitVec 32)
  /-- The DMA transfer-complete interrupt of a transfer. -/
  | dmaIrq (k : Nat)

def dmaIrqHandler (isWrite : Bool) : Driver → Driver × Option SdioError :=
  if isWrite then sdioDmaTxIrqHandler else sdioDmaRxIrqHandler

-- a call is one step: between the arming and a `pending` return it touches no
-- flag, so that an interrupt in between is one right after the call
def step (r : RunState) : Event → RunState
  | .start c ans =>
    let res := c.call ans r.driver
    let r' := { r with driver := res.1 }
    if res.2 = .pending then r'.start c.isWrite else r'
  | .sdioIrq k sta =>
    let res := sdioIrqHandler sta r.driver
    let r' := { r with driver := res.1 }
    (if endsData sta then r'.modify k fun op => { op with sdio := some (staError sta) }
      else r').report res.2
  | .dmaIrq k =>
    let res := dmaIrqHandler (r.ops k).isWrite r.driver
    ({ r with driver := res.1 }.modify k fun op => { op with dma := true }).report res.2

/-- An interrupt is of a transfer that was started, each half once for each transfer. -/
def CanHappen (r : RunState) : Event → Prop
  | .start .. => True
  | .sdioIrq k sta => k < r.started ∧ (endsData sta = true → (r.ops k).sdio = none)
  | .dmaIrq k => k < r.started ∧ (r.ops k).dma = false

instance (r : RunState) : (ev : Event) → Decidable (CanHappen r ev)
  | .start .. => inferInstanceAs (Decidable True)
  | .sdioIrq _ _ => inferInstanceAs (Decidable (_ ∧ _))
  | .dmaIrq _ => inferInstanceAs (Decidable (_ ∧ _))

/-- Before the first transfer, with a callback attached. -/
structure Idle (r : RunState) : Prop where
  busy : r.driver.sdBusy = false
  callback : r.driver.sdCallback = true
  none : r.started = 0

/-- A transfer is reported once it is finished, and only then; the driver is busy
until it has reported the last one, and until then its two halves are those of
that transfer. -/
structure ReportedOnce (r : RunState) : Prop where
  reports : ∀ k < r.started, (r.ops k).reports = if (r.ops k).finished then 1 else 0
  busy : r.driver.sdBusy = true ↔ 0 < r.started ∧ (r.ops (r.started - 1)).reports = 0
  halves : r.driver.sdBusy = true →
    r.driver.dmaDone = (r.ops (r.started - 1)).dma ∧
      r.driver.sdioDone = (r.ops (r.started - 1)).sdio.isSome

/-- While a transfer runs, a DMA interrupt is its own or comes after its own;
otherwise no end and no error is left in the flags. -/
def DmaInTime (r : RunState) : Event → Prop
  | .dmaIrq k =>
    if r.driver.sdBusy then k + 1 = r.started ∨ r.driver.dmaDone = true
    else r.driver.sdioDone = false ∧ r.driver.sdLastError = .ok
  | _ => True

instance (r : RunState) : (ev : Event) → Decidable (DmaInTime r ev)
  | .start .. => inferInstanceAs (Decidable True)
  | .sdioIrq _ _ => inferInstanceAs (Decidable True)
  | .dmaIrq k =>
    inferInstanceAs (Decidable
      (if r.driver.sdBusy then k + 1 = r.started ∨ r.driver.dmaDone = true
        else r.driver.sdioDone = false ∧ r.driver.sdLastError = .ok))

/-! ## The last transfer -/

/-- The rendezvous is that of this transfer. -/
structure Agrees (z : Rendezvous) (op : Operation) : Prop where
  reports : op.reports = if op.finished then 1 else 0
  busy : z.busy = !op.finished
  halves : z.busy = true → z.dma = op.dma ∧ z.sdio = op.sdio.isSome

def Operation.count (met : Bool) (op : Operation) : Operation :=
  { op with reports := op.reports + if met then 1 else 0 }

section

variable {z : Rendezvous} {op : Operation}

theorem Agrees.fresh (callback isWrite : Bool) :
    Agrees (.fresh true callback) { isWrite, sdio := none, dma := false, reports := 0 } where
  reports := rfl
  busy := rfl
  halves := fun _ => ⟨rfl, rfl⟩

theorem Agrees.afterSdio (h : Agrees z op) (hs : op.sdio = none) (err : SdioError) :
    Agrees (z.afterSdio err) ({ op with sdio := some err }.count (z.sdioMeets err)) := by
  have hopen : op.finished = false := by simp [Operation.finished, hs]
  have hbusy : z.busy = true := by simp [h.busy, hopen]
  have hdma := (h.halves hbusy).1
  have hrep : op.reports = 0 := by simp [h.reports, hopen]
  -- the transfer is now finished exactly when the interrupt ends it
  have hfin : ({ op with sdio := some err } : Operation).finished = z.sdioMeets err := by
    simp [Operation.finished, Rendezvous.sdioMeets, hdma, Bool.or_comm]
  constructor
  · show op.reports + _ = if ({ op with sdio := some err } : Operation).finished then 1 else 0
    rw [hfin, hrep, Nat.zero_add]
  · show (z.busy && !z.sdioMeets err) = !({ op with sdio := some err } : Operation).finished
    rw [hfin, hbusy, Bool.true_and]
  · intro _
    exact ⟨hdma, rfl⟩

/-- While the transfer runs, the DMA interrupt ends it if SDIO has reported DATAEND. -/
theorem Agrees.dmaMeets (h : Agrees z op) (hbusy : z.busy = true) (herr : z.err = .ok) :
    z.dmaMeets = op.sdio.isSome := by
  simp [Rendezvous.dmaMeets, (h.halves hbusy).2, herr]

theorem Agrees.unfinished (h : Agrees z op) (hbusy : z.busy = true) :
    op.finished = false ∧ op.reports = 0 := by
  have hopen : op.finished = false := by simpa [hbusy] using h.busy
  exact ⟨hopen, by simp [h.reports, hopen]⟩

theorem Agrees.finished (h : Agrees z op) (hidle : z.busy = false) :
    op.finished = true ∧ op.reports = 1 := by
  have hover : op.finished = true := by simpa [hidle] using h.busy
  exact ⟨hover, by simp [h.reports, hover]⟩

theorem Operation.finished_dma (hfin : op.finished = true) :
    ({ op with dma := true } : Operation).finished = true := by
  unfold Operation.finished at hfin ⊢
  cases hs : op.sdio with
  | none => simp [hs] at hfin
  | some err => simp

theorem Agrees.reports_le (h : Agrees z op) : op.reports ≤ 1 := by
  rw [h.reports]
  split
  · exact Nat.le_refl 1
  · exact Nat.zero_le 1

/-- Once the transfer is reported, a DMA interrupt must not report it again. -/
theorem agrees_reported_iff (hidle : z.busy = false) (hover : op.finished = true)
    (hrep : op.reports = 1 + if z.dmaMeets then 1 else 0) :
    Agrees z.afterDma op ↔ z.dmaMeets = false := by
  constructor
  · intro h
    have hle := h.reports_le
    cases hmet : z.dmaMeets with
    | false => rfl
    | true => simp [hrep, hmet] at hle
  · intro hmet
    constructor
    · simp [hrep, hmet, hover]
    · simp [Rendezvous.afterDma, hidle, hover]
    · simp [Rendezvous.afterDma, hidle]

/-- The DMA interrupt of the transfer itself. -/
theorem Agrees.own_iff (h : Agrees z op)
    (herr : z.busy = true → z.err = .ok) :
    Agrees z.afterDma ({ op with dma := true }.count z.dmaMeets) ↔
      z.busy = true ∨ z.dmaMeets = false := by
  cases hb : z.busy with
  | true =>
    obtain ⟨hopen, hrep⟩ := h.unfinished hb
    have hmet := h.dmaMeets hb (herr hb)
    have hfin : ({ op with dma := true } : Operation).finished = z.dmaMeets := by
      rw [hmet]
      cases op.sdio with
      | none => simp [Operation.finished]
      | some err => simp [Operation.finished]
    refine iff_of_true ⟨?_, ?_, ?_⟩ (Or.inl rfl)
    · show op.reports + _ = if ({ op with dma := true } : Operation).finished then 1 else 0
      rw [hfin, hrep, Nat.zero_add]
    · show (z.busy && !z.dmaMeets) = !({ op with dma := true } : Operation).finished
      rw [hfin, hb, Bool.true_and]
    · intro _
      exact ⟨rfl, (h.halves hb).2⟩
  | false =>
    obtain ⟨hover, hrep⟩ := h.finished hb
    have hfin := Operation.finished_dma hover
    have hiff : Agrees z.afterDma ({ op with dma := true }.count z.dmaMeets) ↔
        z.dmaMeets = false := by
      refine agrees_reported_iff hb hfin ?_
      show op.reports + _ = _
      rw [hrep]
    simpa using hiff

/-- The DMA interrupt of a transfer before it. -/
theorem Agrees.late_iff (h : Agrees z op) (herr : z.busy = true → z.err = .ok) :
    Agrees z.afterDma (op.count z.dmaMeets) ↔
      if z.busy then z.dma = true else z.dmaMeets = false := by
  have hcount : (op.count z.dmaMeets).reports = op.reports + if z.dmaMeets then 1 else 0 := rfl
  cases hb : z.busy with
  | true =>
    obtain ⟨hopen, hrep⟩ := h.unfinished hb
    obtain ⟨hdma, hsdio⟩ := h.halves hb
    have hmet := h.dmaMeets hb (herr hb)
    rw [if_pos rfl]
    constructor
    · intro h'
      cases hs : z.dmaMeets with
      | true =>
        -- the transfer is reported although its own DMA interrupt has not come
        have hopen' : (op.count z.dmaMeets).finished = false := hopen
        have hone := h'.reports
        rw [hopen', hcount, hs, hrep] at hone
        contradiction
      | false =>
        have hrun : z.afterDma.busy = true := by
          show (z.busy && !z.dmaMeets) = true
          rw [hb, hs]
          rfl
        have := (h'.halves hrun).1
        rw [hdma]
        exact this.symm
    · intro hz
      have hnone : op.sdio = none := by
        cases hs : op.sdio with
        | none => rfl
        | some err => simp [Operation.finished, hs, ← hdma, hz] at hopen
      have hmet' : z.dmaMeets = false := by simp [hmet, hnone]
      have hsame : z.afterDma = z := by
        show { z with busy := z.busy && !z.dmaMeets, dma := true } = z
        rw [hmet', Bool.not_false, Bool.and_true, ← hz]
      rw [hsame, hmet']
      exact h
  | false =>
    obtain ⟨hover, hrep⟩ := h.finished hb
    rw [if_neg Bool.false_ne_true]
    refine agrees_reported_iff hb hover ?_
    rw [hcount, hrep]

end

/-! ## One event -/

namespace RunState

variable (r : RunState) (k : Nat) (f : Operation → Operation) (cb : Option SdioError)

@[simp] theorem modify_driver : (r.modify k f).driver = r.driver := rfl

@[simp] theorem modify_started : (r.modify k f).started = r.started := rfl

@[simp] theorem modify_ops (j : Nat) :
    (r.modify k f).ops j = if j = k then f (r.ops j) else r.ops j := rfl

@[simp] theorem report_driver : (r.report cb).driver = r.driver := by
  cases cb <;> rfl

@[simp] theorem report_started : (r.report cb).started = r.started := by
  cases cb <;> rfl

theorem report_ops (met : Bool) (err : SdioError) (j : Nat) :
    (r.report (if met then some err else none)).ops j =
      if j = r.started - 1 then (r.ops j).count met else r.ops j := by
  cases met with
  | true => rfl
  | false =>
    show r.ops j = if j = r.started - 1 then r.ops j else r.ops j
    rw [ite_self]

end RunState

section

variable {r : RunState}

theorem step_sdioIrq (hcb : r.driver.sdCallback = true) (k : Nat) {sta : BitVec 32}
    (he : endsData sta = true) :
    (step r (.sdioIrq k sta)).driver.rendezvous =
        r.driver.rendezvous.afterSdio (staError sta) ∧
      (step r (.sdioIrq k sta)).started = r.started ∧
      ∀ j, (step r (.sdioIrq k sta)).ops j =
        let op := if j = k then { r.ops j with sdio := some (staError sta) } else r.ops j
        if j = r.started - 1 then op.count (r.driver.rendezvous.sdioMeets (staError sta))
        else op := by
  obtain ⟨hd, hc⟩ := sdioIrqHandler_rendezvous he r.driver
  have hcall : r.driver.callback (staError sta) = some (staError sta) := by
    simp [Driver.callback, hcb]
  rw [hcall] at hc
  simp only [step, he, if_true, hc]
  refine ⟨?_, by simp, fun j => ?_⟩
  · simpa using hd
  · rw [RunState.report_ops]
    rfl

theorem step_sdioIrq_of_not_endsData (k : Nat) {sta : BitVec 32} (he : endsData sta = false) :
    step r (.sdioIrq k sta) = r := by
  simp [step, he, sdioIrqHandler_of_not_endsData he, RunState.report]

theorem step_dmaIrq (hcb : r.driver.sdCallback = true) (k : Nat) :
    (step r (.dmaIrq k)).driver.rendezvous = r.driver.rendezvous.afterDma ∧
      (step r (.dmaIrq k)).started = r.started ∧
      ∀ j, (step r (.dmaIrq k)).ops j =
        let op := if j = k then { r.ops j with dma := true } else r.ops j
        if j = r.started - 1 then op.count r.driver.rendezvous.dmaMeets else op := by
  obtain ⟨hd, hc⟩ := dmaTransferComplete_rendezvous r.driver
  have hcall : r.driver.callback r.driver.sdLastError = some r.driver.sdLastError := by
    simp [Driver.callback, hcb]
  rw [hcall] at hc
  -- both stream handlers are the same
  have hh : dmaIrqHandler (r.ops k).isWrite r.driver = dmaTransferComplete r.driver := by
    unfold dmaIrqHandler
    cases (r.ops k).isWrite <;> rfl
  simp only [step, hh, hc]
  refine ⟨?_, by simp, fun j => ?_⟩
  · simpa using hd
  · rw [RunState.report_ops]
    rfl

/-- Every transfer but the last is over, and the rendezvous is that of the last. -/
structure Sound (r : RunState) : Prop where
  callback : r.driver.sdCallback = true
  past : ∀ k, k + 1 < r.started → (r.ops k).finished = true ∧ (r.ops k).reports = 1
  last : ∀ n, r.started = n + 1 → Agrees r.driver.rendezvous (r.ops n)
  idle : r.started = 0 → r.driver.sdBusy = false
  err : r.driver.sdBusy = true → r.driver.sdLastError = .ok

theorem Idle.sound (h : Idle r) : Sound r where
  callback := h.callback
  past := by
    intro k hk
    rw [h.none] at hk
    contradiction
  last := by
    intro n hn
    rw [h.none] at hn
    contradiction
  idle := fun _ => h.busy
  err := by simp [h.busy]

theorem Sound.once (h : Sound r) : ReportedOnce r := by
  cases hn : r.started with
  | zero =>
    constructor
    · simp [hn]
    · simp [hn, h.idle hn]
    · simp [h.idle hn]
  | succ n =>
    have hlast := h.last n hn
    constructor
    · intro k hk
      by_cases hkn : k = n
      · rw [hkn]
        exact hlast.reports
      · obtain ⟨hfin, hrep⟩ := h.past k (by omega)
        rw [hfin, hrep]
        rfl
    · have hb : r.driver.sdBusy = !(r.ops n).finished := hlast.busy
      have hr := hlast.reports
      rw [hn, Nat.add_sub_cancel, hb, hr]
      cases (r.ops n).finished <;> simp
    · intro hbusy
      rw [hn, Nat.add_sub_cancel]
      exact hlast.halves hbusy

theorem ReportedOnce.agrees (h : ReportedOnce r) {n : Nat} (hn : r.started = n + 1) :
    Agrees r.driver.rendezvous (r.ops n) := by
  have hrep := h.reports n (by omega)
  have hbusy := h.busy
  have hhalves := h.halves
  rw [hn, Nat.add_sub_cancel] at hbusy hhalves
  constructor
  · exact hrep
  · show r.driver.sdBusy = _
    rw [hrep] at hbusy
    cases hf : (r.ops n).finished with
    | true => simpa [hf] using hbusy
    | false => simpa [hf] using hbusy
  · exact hhalves

/-- A transfer that SDIO has not ended is the last one. -/
theorem Sound.eq_last (h : Sound r) {k : Nat} (hk : k < r.started)
    (hs : (r.ops k).sdio = none) : r.started = k + 1 := by
  by_cases hlt : k + 1 < r.started
  · have hfin := (h.past k hlt).1
    simp [Operation.finished, hs] at hfin
  · omega

/-- Only the rendezvous of the driver matters. -/
theorem Sound.setDriver (h : Sound r) {d : Driver} (hd : d.rendezvous = r.driver.rendezvous) :
    Sound { r with driver := d } where
  callback := (congrArg Rendezvous.callback hd).trans h.callback
  past := h.past
  last := by
    intro n hn
    show Agrees d.rendezvous (r.ops n)
    rw [hd]
    exact h.last n hn
  idle := fun hn => (congrArg Rendezvous.busy hd).trans (h.idle hn)
  err := by
    intro hb
    have hbusy : r.driver.sdBusy = true := (congrArg Rendezvous.busy hd).symm.trans hb
    exact (congrArg Rendezvous.err hd).trans (h.err hbusy)

/-- A command that failed leaves an armed rendezvous, but an idle driver. -/
theorem Sound.abort (h : Sound r) (hidle : r.driver.sdBusy = false) {d : Driver}
    (hd : d.rendezvous = .fresh false r.driver.sdCallback) : Sound { r with driver := d } where
  callback := (congrArg Rendezvous.callback hd).trans h.callback
  past := h.past
  last := by
    intro n hn
    have hlast := h.last n hn
    show Agrees d.rendezvous (r.ops n)
    rw [hd]
    constructor
    · exact hlast.reports
    · exact hidle.symm.trans hlast.busy
    · intro hb
      exact absurd hb Bool.false_ne_true
  idle := fun _ => congrArg Rendezvous.busy hd
  err := fun _ => congrArg Rendezvous.err hd

theorem Sound.start (h : Sound r) (hidle : r.driver.sdBusy = false) {d : Driver}
    (hd : d.rendezvous = .fresh true r.driver.sdCallback) (isWrite : Bool) :
    Sound ({ r with driver := d }.start isWrite) where
  callback := (congrArg Rendezvous.callback hd).trans h.callback
  past := by
    intro k hk
    have hk' : k < r.started := by
      have : k + 1 < r.started + 1 := hk
      omega
    have hops : ({ r with driver := d }.start isWrite).ops k = r.ops k := by
      simp [RunState.start, Nat.ne_of_lt hk']
    rw [hops]
    -- the transfer before the new one is over, since the driver was idle
    by_cases hlast : r.started = k + 1
    · exact (h.last k hlast).finished hidle
    · exact h.past k (by omega)
  last := by
    intro n hn
    have hn' : n = r.started := by
      have : r.started + 1 = n + 1 := hn
      omega
    show Agrees d.rendezvous (({ r with driver := d }.start isWrite).ops n)
    rw [hd, hn']
    simp only [RunState.start, if_true]
    exact Agrees.fresh _ isWrite
  idle := by
    intro hn
    exact absurd hn (Nat.succ_ne_zero r.started)
  err := fun _ => congrArg Rendezvous.err hd

theorem Sound.call (h : Sound r) (c : StartCall) (ans : Answers) :
    Sound (step r (.start c ans)) := by
  have hout := c.outcome ans r.driver
  cases hres : c.call ans r.driver with
  | mk d e =>
    rw [hres] at hout
    cases hout with
    | refused he hd =>
      simp only [step, hres, if_neg he]
      exact h.setDriver hd
    | aborted he hidle hd =>
      simp only [step, hres, if_neg he]
      exact h.abort hidle hd
    | started hidle hd =>
      simp only [step, hres, if_true]
      exact h.start hidle hd c.isWrite

theorem Sound.sdioIrq (h : Sound r) {k : Nat} {sta : BitVec 32}
    (hcan : CanHappen r (.sdioIrq k sta)) : Sound (step r (.sdioIrq k sta)) := by
  cases he : endsData sta with
  | false =>
    rw [step_sdioIrq_of_not_endsData k he]
    exact h
  | true =>
    have hnone := hcan.2 he
    have hn := h.eq_last hcan.1 hnone
    obtain ⟨hz, hstarted, hops⟩ := step_sdioIrq h.callback k he
    have hlast := h.last k hn
    constructor
    · exact (congrArg Rendezvous.callback hz).trans h.callback
    · intro j hj
      rw [hstarted, hn] at hj
      rw [hops j]
      have hjk : j ≠ k := by omega
      simp only [hn, Nat.add_sub_cancel, if_neg hjk]
      exact h.past j (by omega)
    · intro n hn'
      have hnk : n = k := by omega
      rw [hz, hops n, hnk]
      simp only [hn, Nat.add_sub_cancel, if_true]
      exact hlast.afterSdio hnone (staError sta)
    · intro h0
      omega
    · intro hb
      -- the transfer goes on only when SDIO brought no error
      have hbusy : (r.driver.sdBusy && !(r.driver.rendezvous.sdioMeets (staError sta))) = true :=
        (congrArg Rendezvous.busy hz).symm.trans hb
      have herr : staError sta = .ok := by
        simp [Rendezvous.sdioMeets] at hbusy
        exact hbusy.2.2
      exact (congrArg Rendezvous.err hz).trans herr

theorem dmaMeets_eq_false (d : Driver) :
    d.rendezvous.dmaMeets = false ↔ d.sdioDone = false ∧ d.sdLastError = .ok := by
  simp [Rendezvous.dmaMeets, Driver.rendezvous]

/-- The rendezvous stays that of the last transfer exactly if the interrupt is in time. -/
theorem Sound.dmaIrq_last_iff (h : Sound r) {n k : Nat} (hn : r.started = n + 1) :
    Agrees (step r (.dmaIrq k)).driver.rendezvous ((step r (.dmaIrq k)).ops n) ↔
      DmaInTime r (.dmaIrq k) := by
  obtain ⟨hz, -, hops⟩ := step_dmaIrq h.callback k
  have hlast := h.last n hn
  rw [hz, hops n]
  simp only [hn, Nat.add_sub_cancel, if_true, DmaInTime, ← dmaMeets_eq_false]
  by_cases hk : n = k
  · rw [if_pos hk, hlast.own_iff h.err, hk]
    cases hb : r.driver.sdBusy with
    | true => simp [Driver.rendezvous, hb]
    | false => simp [Driver.rendezvous, hb]
  · rw [if_neg hk, hlast.late_iff h.err]
    have hkn : k + 1 ≠ n + 1 := by omega
    simp only [hkn, false_or]
    rfl

theorem Sound.dmaIrq (h : Sound r) {k : Nat} (hcan : CanHappen r (.dmaIrq k))
    (hq : DmaInTime r (.dmaIrq k)) : Sound (step r (.dmaIrq k)) := by
  obtain ⟨hz, hstarted, hops⟩ := step_dmaIrq h.callback k
  constructor
  · exact (congrArg Rendezvous.callback hz).trans h.callback
  · intro j hj
    rw [hstarted] at hj
    obtain ⟨hfin, hrep⟩ := h.past j hj
    have hjl : j ≠ r.started - 1 := by omega
    rw [hops j]
    simp only [if_neg hjl]
    split
    · exact ⟨Operation.finished_dma hfin, hrep⟩
    · exact ⟨hfin, hrep⟩
  · intro n hn
    rw [hstarted] at hn
    exact (h.dmaIrq_last_iff hn).mpr hq
  · intro h0
    have := hcan.1
    omega
  · intro hb
    have hbusy : (r.driver.sdBusy && !r.driver.rendezvous.dmaMeets) = true :=
      (congrArg Rendezvous.busy hz).symm.trans hb
    have hrun : r.driver.sdBusy = true := by
      simp only [Bool.and_eq_true] at hbusy
      exact hbusy.1
    exact (congrArg Rendezvous.err hz).trans (h.err hrun)

end

/-! ## Every run -/

/-- In a run whose interrupts are those of the transfers that were started, each
transfer is reported once and only when it is finished, exactly if every DMA
interrupt comes in time. -/
theorem reported_once_iff {r : RunState} (hidle : Idle r) (events : List Event)
    (hcan : Each step CanHappen r events) :
    Always step ReportedOnce r events ↔ Each step DmaInTime r events := by
  refine Steps.always_iff_each_where (fun _ => Sound.once) ?need ?keep events hidle.sound hcan
  case need =>
    intro r ev h hev honce
    cases ev with
    | start c ans => trivial
    | sdioIrq k sta => trivial
    | dmaIrq k =>
      obtain ⟨n, hn⟩ : ∃ n, r.started = n + 1 := ⟨r.started - 1, by have := hev.1; omega⟩
      have hn' : (step r (.dmaIrq k)).started = n + 1 := by
        rw [(step_dmaIrq h.callback k).2.1, hn]
      exact (h.dmaIrq_last_iff hn).mp (honce.agrees hn')
  case keep =>
    intro r ev h hev hq
    cases ev with
    | start c ans => exact h.call c ans
    | sdioIrq k sta => exact h.sdioIrq hev
    | dmaIrq k => exact h.dmaIrq hev hq

/-! ### A run in time, and one that is not -/

/-- After reset, with a callback attached and a high-capacity card. -/
def atReset : RunState where
  driver :=
    { sdBusy := false
      dmaDone := false
      sdioDone := false
      isMultiBlock := false
      sdLastWasWrite := false
      sdLastError := .ok
      sdCallback := true
      cardIsSdhc := true
      mask := 0
      dctrl := 0
      dtimer := 0
      dlen := 0 }
  started := 0
  ops := fun _ => { isWrite := false, sdio := none, dma := false, reports := 0 }

/-- Every check passes, and the card takes every command. -/
def allWell : Answers where
  rxGuard := fun _ => true
  txPrepare := fun _ _ => true
  cardReady := true
  sendCommand := fun _ _ => .ok

/-- A read that ends with DATAEND first, and a write that the card ends with a
CRC failure. -/
theorem reported_once_read_then_write :
    Always step ReportedOnce atReset
      [.start (.readBlock 0 0x20000000) allWell, .sdioIrq 0 staDataend, .dmaIrq 0,
        .start (.writeBlocks 8 0x20000000 4) allWell, .dmaIrq 1, .sdioIrq 1 staDcrcfail] :=
  (reported_once_iff ⟨rfl, rfl, rfl⟩ _ (by decide)).mpr (by decide)

/-- The block of a read fails its CRC check, which ends it; the DMA interrupt that
was pending behind the SDIO one then reports it again. -/
def crcFailedRead : List Event :=
  [.start (.readBlock 0 0x20000000) allWell, .sdioIrq 0 staDcrcfail, .dmaIrq 0]

theorem late_dma_reports_again :
    Idle atReset ∧ Each step CanHappen atReset crcFailedRead ∧
      ¬ Always step ReportedOnce atReset crcFailedRead := by
  refine ⟨⟨rfl, rfl, rfl⟩, by decide, fun h => ?_⟩
  have htwo := h.run.reports 0 (by decide)
  revert htwo
  decide

end NavHAL.Sdio
