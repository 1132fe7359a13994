import NavHAL.Crc.Table
import NavHAL.Status

/-!
# The CRC backends (`hal_crc.c`, `crc.c`)

The public layer hands every call to one of two backends.  The software one
keeps a register in memory; the STM32 one feeds whole words to the peripheral
and finishes a tail in software, after which the peripheral is behind.

* `backends_agree_iff` : both compute the CRC of the bytes fed since the last
  reset exactly for the initial value that the peripheral resets to.
-/

namespace NavHAL.Crc

open Boot

/-! ## Backends -/

/-- `hal_crc_ops_t`, over the state `σ` of a backend. -/
structure HalCrcOps (σ : Type) where
  init : UInt32 → σ → HalStatus × σ
  compute : Option (List UInt8) → σ → UInt32 × σ
  accumulate : Option (List UInt8) → σ → UInt32 × σ
  reset : σ → HalStatus × σ

/-! ### Software -/

/-- `s_sw_init`, `s_sw_current` -/
structure SwState where
  init : UInt32 := 0xFFFFFFFF
  current : UInt32 := 0xFFFFFFFF
  deriving DecidableEq, Repr

def halCrcSwInit (initValue : UInt32) (_ : SwState) : HalStatus × SwState :=
  (.ok, ⟨initValue, initValue⟩)

def halCrcSwReset (st : SwState) : HalStatus × SwState := (.ok, { st with current := st.init })

/-- A null `data` is `none`. -/
def halCrcSwAccumulate (data : Option (List UInt8)) (st : SwState) : UInt32 × SwState :=
  match data with
  | none | some [] => (st.current, st)
  | some data =>
    let crc := halCrcSwStep st.current data
    (crc, { st with current := crc })

def halCrcSwCompute (data : Option (List UInt8)) (st : SwState) : UInt32 × SwState :=
  halCrcSwAccumulate data (halCrcSwReset st).2

def halCrcSwOps : HalCrcOps SwState :=
  ⟨halCrcSwInit, halCrcSwCompute, halCrcSwAccumulate, halCrcSwReset⟩

/-! ### The STM32 peripheral -/

/-- The statics of `crc.c`, and the register of the peripheral. -/
structure Stm32State where
  initValue : UInt32 := 0xFFFFFFFF
  current : UInt32 := 0xFFFFFFFF
  hwInStep : Bool := true
  dr : UInt32 := 0xFFFFFFFF
  deriving DecidableEq, Repr

/-- `CRC_CR_RESET` loads all ones. -/
def stm32CrcReset (st : Stm32State) : HalStatus × Stm32State :=
  (.ok, { st with dr := 0xFFFFFFFF, current := 0xFFFFFFFF, hwInStep := true })

def stm32CrcInit (initValue : UInt32) (st : Stm32State) : HalStatus × Stm32State :=
  (.ok, (stm32CrcReset { st with initValue }).2)

/-- The word loop: the register after it, and the bytes left over. -/
def crcWriteWords (dr : UInt32) : List UInt8 → UInt32 × List UInt8
  | b0 :: b1 :: b2 :: b3 :: data => crcWriteWords (crcUnitWrite dr (crcWord b0 b1 b2 b3)) data
  | tail => (dr, tail)

def stm32CrcAccumulate (data : Option (List UInt8)) (st : Stm32State) : UInt32 × Stm32State :=
  match data with
  | none | some [] => (st.current, st)
  | some data =>
    let (st, rest) :=
      if st.hwInStep then
        let (dr, rest) := crcWriteWords st.dr data
        ({ st with dr, current := dr }, rest)
      else (st, data)
    let st :=
      if rest.isEmpty then st
      else { st with current := halCrcSwStep st.current rest, hwInStep := false }
    (st.current, st)

def stm32CrcCompute (data : Option (List UInt8)) (st : Stm32State) : UInt32 × Stm32State :=
  stm32CrcAccumulate data (stm32CrcReset st).2

def stm32CrcOps : HalCrcOps Stm32State :=
  ⟨stm32CrcInit, stm32CrcCompute, stm32CrcAccumulate, stm32CrcReset⟩

/-! ## Sequences of calls -/

inductive CrcCall
  | reset
  | accumulate (chunk : Option (List UInt8))
  | compute (chunk : Option (List UInt8))
  deriving DecidableEq, Repr

/-- What a call returns: a CRC, or nothing but a status. -/
def crcCall {σ : Type} (ops : HalCrcOps σ) (st : σ) : CrcCall → Option UInt32 × σ
  | .reset => (none, (ops.reset st).2)
  | .accumulate chunk => ((ops.accumulate chunk st).1, (ops.accumulate chunk st).2)
  | .compute chunk => ((ops.compute chunk st).1, (ops.compute chunk st).2)

def crcReturns {σ : Type} (ops : HalCrcOps σ) : σ → List CrcCall → List (Option UInt32)
  | _, [] => []
  | st, call :: calls => (crcCall ops st call).1 :: crcReturns ops (crcCall ops st call).2 calls

/-- The bytes fed since the last reset, after one more call. -/
def CrcCall.fed (fed : List UInt8) : CrcCall → List UInt8
  | .reset => []
  | .accumulate chunk => fed ++ chunk.getD []
  | .compute chunk => chunk.getD []

def CrcCall.isReset : CrcCall → Bool
  | .reset => true
  | _ => false

/-- What the bitwise reference returns. -/
def referenceReturns (init : UInt32) : List UInt8 → List CrcCall → List (Option UInt32)
  | _, [] => []
  | fed, call :: calls =>
    (if call.isReset then none else some (crc32Mpeg2 init (call.fed fed))) ::
      referenceReturns init (call.fed fed) calls

/-- From `hal_crc_init` on both backends return what the reference returns. -/
def BackendsAgree (init : UInt32) (sw : SwState) (hw : Stm32State) (calls : List CrcCall) : Prop :=
  crcReturns halCrcSwOps (halCrcSwOps.init init sw).2 calls = referenceReturns init [] calls ∧
    crcReturns stm32CrcOps (stm32CrcOps.init init hw).2 calls = referenceReturns init [] calls

/-! ## What a backend keeps -/

/-- Along every call the state keeps to the bytes fed, and the call returns
the CRC of them started from `init`. -/
def Tracks {σ : Type} (ops : HalCrcOps σ) (init : UInt32) (Holds : List UInt8 → σ → Prop) : Prop :=
  ∀ fed st call, Holds fed st →
    (crcCall ops st call).1 =
        (if call.isReset then none else some (crc32Mpeg2 init (call.fed fed))) ∧
      Holds (call.fed fed) (crcCall ops st call).2

theorem Tracks.returns {σ : Type} {ops : HalCrcOps σ} {init : UInt32}
    {Holds : List UInt8 → σ → Prop} (htracks : Tracks ops init Holds) {fed : List UInt8} {st : σ}
    (h : Holds fed st) (calls : List CrcCall) :
    crcReturns ops st calls = referenceReturns init fed calls := by
  induction calls generalizing fed st with
  | nil => rfl
  | cons call calls ih =>
    obtain ⟨hreturn, hnext⟩ := htracks fed st call h
    rw [crcReturns, referenceReturns, hreturn, ih hnext]

/-! ### Software -/

/-- The register is the CRC of the bytes fed. -/
def SwHolds (init : UInt32) (fed : List UInt8) (st : SwState) : Prop :=
  st.init = init ∧ st.current = crc32Mpeg2 init fed

theorem halCrcSwAccumulate_eq (data : Option (List UInt8)) (st : SwState) :
    halCrcSwAccumulate data st = (crc32Mpeg2 st.current (data.getD []),
      { st with current := crc32Mpeg2 st.current (data.getD []) }) := by
  match data with
  | none => rfl
  | some [] => rfl
  | some (b :: data) => simp [halCrcSwAccumulate, halCrcSwStep_eq]

theorem sw_tracks (init : UInt32) : Tracks halCrcSwOps init (SwHolds init) := by
  rintro fed st call ⟨hinit, hcurrent⟩
  cases call with
  | reset => exact ⟨rfl, hinit, hinit⟩
  | accumulate chunk =>
    have hcrc : crc32Mpeg2 st.current (chunk.getD []) = crc32Mpeg2 init (fed ++ chunk.getD []) := by
      rw [hcurrent, crc32Mpeg2_append]
    simp only [crcCall, halCrcSwOps, halCrcSwAccumulate_eq, hcrc]
    exact ⟨rfl, hinit, rfl⟩
  | compute chunk =>
    simp only [crcCall, halCrcSwOps, halCrcSwCompute, halCrcSwAccumulate_eq, halCrcSwReset, hinit]
    exact ⟨rfl, rfl, rfl⟩

/-! ### The peripheral -/

/-- While the peripheral is in step its register is the running value. -/
def HwHolds (fed : List UInt8) (st : Stm32State) : Prop :=
  st.current = crc32Mpeg2 0xFFFFFFFF fed ∧ (st.hwInStep = true → st.dr = st.current)

/-- The words fed and the tail that is left make up the chunk. -/
theorem crcWriteWords_eq (dr : UInt32) : (data : List UInt8) →
    crc32Mpeg2 (crcWriteWords dr data).1 (crcWriteWords dr data).2 = crc32Mpeg2 dr data
  | b0 :: b1 :: b2 :: b3 :: data => by
    rw [crcWriteWords, crcWriteWords_eq _ data, crcUnitWrite_eq, ← crc32Mpeg2_append]
    rfl
  | [] | [_] | [_, _] | [_, _, _] => rfl

theorem stm32CrcAccumulate_holds {fed : List UInt8} {st : Stm32State} (h : HwHolds fed st)
    (data : Option (List UInt8)) :
    (stm32CrcAccumulate data st).1 = crc32Mpeg2 0xFFFFFFFF (fed ++ data.getD []) ∧
      HwHolds (fed ++ data.getD []) (stm32CrcAccumulate data st).2 := by
  obtain ⟨hcurrent, hdr⟩ := h
  match data with
  | none | some [] =>
    rw [Option.getD, List.append_nil]
    exact ⟨hcurrent, hcurrent, hdr⟩
  | some (b :: data) =>
    have hfed : crc32Mpeg2 st.current (b :: data) = crc32Mpeg2 0xFFFFFFFF (fed ++ b :: data) := by
      rw [hcurrent, crc32Mpeg2_append]
    cases hstep : st.hwInStep with
    | false =>
      simp only [stm32CrcAccumulate, hstep, Bool.false_eq_true, if_false, List.isEmpty_cons,
        halCrcSwStep_eq, hfed, Option.getD_some]
      exact ⟨trivial, rfl, fun h => absurd h Bool.false_ne_true⟩
    | true =>
      have hwords := crcWriteWords_eq st.dr (b :: data)
      rw [hdr hstep, hfed] at hwords
      rcases hsplit : crcWriteWords st.current (b :: data) with ⟨dr, rest⟩
      rw [hsplit] at hwords
      cases rest with
      | nil =>
        simp only [stm32CrcAccumulate, hstep, hdr hstep, hsplit]
        exact ⟨hwords, hwords, fun _ => rfl⟩
      | cons c rest =>
        simp only [stm32CrcAccumulate, hstep, hdr hstep, hsplit, halCrcSwStep_eq]
        exact ⟨hwords, hwords, fun h => absurd h Bool.false_ne_true⟩

theorem hw_tracks : Tracks stm32CrcOps 0xFFFFFFFF HwHolds := by
  intro fed st call h
  have hreset : HwHolds [] (stm32CrcReset st).2 := ⟨rfl, fun _ => rfl⟩
  cases call with
  | reset => exact ⟨rfl, hreset⟩
  | accumulate chunk =>
    obtain ⟨hreturn, hnext⟩ := stm32CrcAccumulate_holds h chunk
    exact ⟨congrArg some hreturn, hnext⟩
  | compute chunk =>
    obtain ⟨hreturn, hnext⟩ := stm32CrcAccumulate_holds hreset chunk
    exact ⟨congrArg some hreturn, hnext⟩

/-! ## The two against the reference -/

theorem sw_returns (init : UInt32) (st : SwState) (calls : List CrcCall) :
    crcReturns halCrcSwOps (halCrcSwOps.init init st).2 calls = referenceReturns init [] calls :=
  (sw_tracks init).returns ⟨rfl, rfl⟩ calls

theorem hw_returns (init : UInt32) (st : Stm32State) (calls : List CrcCall) :
    crcReturns stm32CrcOps (stm32CrcOps.init init st).2 calls =
      referenceReturns 0xFFFFFFFF [] calls :=
  hw_tracks.returns ⟨rfl, fun _ => rfl⟩ calls

/-- Two initial values give the same values back only where none is asked for. -/
theorem referenceReturns_eq_iff (init init' : UInt32) (fed : List UInt8) (calls : List CrcCall) :
    referenceReturns init fed calls = referenceReturns init' fed calls ↔
      init = init' ∨ ∀ call ∈ calls, call = CrcCall.reset := by
  constructor
  · intro heq
    by_cases hinit : init = init'
    · exact .inl hinit
    · right
      induction calls generalizing fed with
      | nil => simp
      | cons call calls ih =>
        rw [referenceReturns, referenceReturns, List.cons.injEq] at heq
        rw [List.forall_mem_cons]
        refine ⟨?_, ih _ heq.2⟩
        cases call with
        | reset => rfl
        | accumulate chunk | compute chunk =>
          exact absurd (crc32Mpeg2_injective _ (Option.some.inj heq.1)) hinit
  · rintro (rfl | hreset)
    · rfl
    · induction calls generalizing fed with
      | nil => rfl
      | cons call calls ih =>
        rw [List.forall_mem_cons] at hreset
        obtain ⟨rfl, hreset⟩ := hreset
        rw [referenceReturns, referenceReturns, ih _ hreset]
        rfl

/-- **The backends agree exactly for the initial value the peripheral resets
to**, or where no value is asked for. -/
theorem backends_agree_iff (init : UInt32) (sw : SwState) (hw : Stm32State)
    (calls : List CrcCall) :
    BackendsAgree init sw hw calls ↔
      init = 0xFFFFFFFF ∨ ∀ call ∈ calls, call = CrcCall.reset := by
  rw [BackendsAgree, hw_returns, referenceReturns_eq_iff, eq_comm (a := (0xFFFFFFFF : UInt32))]
  exact and_iff_right (sw_returns init sw calls)

/-- With an initial value of 0 the peripheral still starts from all ones. -/
theorem zero_init_ignored :
    ¬ BackendsAgree 0 {} {} [.compute (some [0x31, 0x32, 0x33, 0x34])] := by
  rw [BackendsAgree]
  decide +kernel

end NavHAL.Crc
