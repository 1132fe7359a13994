import NavHAL.Boot.Block

/-!
# A seal cut by a power failure (`hal_boot.c`)

`block_seal` writes four words, the check word last.  A cut leaves the words before
it written and the others as they were.

* `sealStores_valid` : over a valid block a cut seal of one changed field is not
  misread;
* `neverMisread_iff` : over garbage it may be: the check word found there can be
  right for a block half written.
-/

namespace NavHAL.Boot

/-! ## The stores of an operation -/

/-- A store of one word of the block. -/
inductive WordStore
  | magic (word : UInt32)
  | request (word : UInt32)
  | attempts (word : UInt32)
  | check (word : UInt32)
  deriving DecidableEq, Repr

def BootBlock.store (block : BootBlock) : WordStore → BootBlock
  | .magic word => { block with magic := word }
  | .request word => { block with request := word }
  | .attempts word => { block with attempts := word }
  | .check word => { block with check := word }

def BootBlock.storeAll (block : BootBlock) (stores : List WordStore) : BootBlock :=
  stores.foldl BootBlock.store block

/-- The stores of `block_seal`, in order. -/
def sealStores (request attempts : UInt32) : List WordStore :=
  [.magic halBootMagic, .request request, .attempts attempts,
    .check (blockCheck halBootMagic request attempts)]

/-- The operations that may seal the block. -/
inductive BootOp
  | blockInit
  | clearRequest
  | accountAttempt
  | markHealthy
  | requestTarget (request : UInt32)
  deriving DecidableEq, Repr

def BootOp.run (st : BootState) : BootOp → HalStatus × BootState
  | .blockInit => halBootBlockInit st
  | .clearRequest => halBootClearRequest st
  | .accountAttempt => halBootAccountAttempt st
  | .markHealthy => halBootMarkHealthy st
  | .requestTarget request => halBootRequestTarget st request

/-- What the operation stores in the block. -/
def BootOp.stores (st : BootState) : BootOp → List WordStore
  | .blockInit => if st.block.valid then [] else sealStores halBootReqNone 0
  | .clearRequest => if st.block.valid then sealStores halBootReqNone st.block.attempts else []
  | .accountAttempt =>
    if st.block.valid then
      let a := st.block.attempts
      sealStores st.block.request (if a < 0xFFFFFFFF then a + 1 else a)
    else []
  | .markHealthy => if st.block.valid then sealStores st.block.request 0 else []
  | .requestTarget request =>
    if st.entryDisabled then []
    else if request ≠ halBootReqLoader ∧ request ≠ halBootReqStage1 then []
    else sealStores request (halBootGetAttempts st.block)

theorem sealStores_all (block : BootBlock) (request attempts : UInt32) :
    block.storeAll (sealStores request attempts) = blockSeal request attempts := rfl

/-- Uncut, the stores leave the block the operation leaves. -/
theorem BootOp.stores_run (st : BootState) (op : BootOp) :
    st.block.storeAll (op.stores st) = (op.run st).2.block := by
  cases op with
  | blockInit =>
    simp only [BootOp.stores, BootOp.run, halBootBlockInit]
    split <;> rfl
  | clearRequest =>
    simp only [BootOp.stores, BootOp.run, halBootClearRequest]
    split <;> rfl
  | accountAttempt =>
    simp only [BootOp.stores, BootOp.run, halBootAccountAttempt]
    split <;> rfl
  | markHealthy =>
    simp only [BootOp.stores, BootOp.run, halBootMarkHealthy]
    split <;> rfl
  | requestTarget request =>
    simp only [BootOp.stores, BootOp.run, halBootRequestTarget]
    split
    · rfl
    · split <;> rfl

/-- The block after the first `k` stores of the operation. -/
def BootOp.cut (st : BootState) (op : BootOp) (k : Nat) : BootBlock :=
  st.block.storeAll ((op.stores st).take k)

/-! ## What a cut may leave -/

/-- The two getters return of both blocks the same. -/
def ReadsAs (block block' : BootBlock) : Prop :=
  halBootGetRequest block = halBootGetRequest block' ∧
    halBootGetAttempts block = halBootGetAttempts block'

instance (block block' : BootBlock) : Decidable (ReadsAs block block') := by
  unfold ReadsAs
  infer_instance

/-- What a cut may leave: an invalid block, or one that reads as before the
operation or as after it. -/
def Unmistaken (before after torn : BootBlock) : Prop :=
  torn.valid = false ∨ ReadsAs torn before ∨ ReadsAs torn after

instance (before after torn : BootBlock) : Decidable (Unmistaken before after torn) := by
  unfold Unmistaken
  infer_instance

def NeverMisread (st : BootState) (op : BootOp) : Prop :=
  ∀ k, Unmistaken st.block (op.run st).2.block (op.cut st k)

/-- The check word found in the block is not, by accident, the right one for a
block half written: with the words found after the magic word, or with the new
request and the attempts found. -/
def NoCollision (block : BootBlock) (request : UInt32) : Prop :=
  (block.check = blockCheck halBootMagic block.request block.attempts →
    block.attempts = 0 ∧ (block.request = halBootReqNone ∨ block.request = request)) ∧
  (block.check = blockCheck halBootMagic request block.attempts → block.attempts = 0)

instance (block : BootBlock) (request : UInt32) : Decidable (NoCollision block request) := by
  unfold NoCollision
  infer_instance

/-- The prior block is valid, the operation writes nothing over an invalid one, or
nothing collides. -/
def TearsSafely (st : BootState) (op : BootOp) : Prop :=
  st.block.valid = true ∨
    match op with
    | .blockInit => NoCollision st.block halBootReqNone
    | .requestTarget request => st.entryDisabled = true ∨
        (request ≠ halBootReqLoader ∧ request ≠ halBootReqStage1) ∨ NoCollision st.block request
    | .clearRequest | .accountAttempt | .markHealthy => True

/-! ## One seal -/

section

variable {block after : BootBlock}

theorem valid_iff : block.valid = true ↔ block.magic = halBootMagic ∧
    block.check = blockCheck block.magic block.request block.attempts := by
  rw [BootBlock.valid, Bool.and_eq_true, beq_iff_eq, beq_iff_eq]

theorem getRequest_invalid (h : block.valid = false) : halBootGetRequest block = halBootReqNone := by
  rw [halBootGetRequest, h]
  rfl

theorem getRequest_valid (h : block.valid = true) : halBootGetRequest block = block.request := by
  rw [halBootGetRequest, if_pos h]

theorem getAttempts_valid (h : block.valid = true) : halBootGetAttempts block = block.attempts := by
  rw [halBootGetAttempts, if_pos h]

theorem getAttempts_invalid (h : block.valid = false) : halBootGetAttempts block = 0 := by
  rw [halBootGetAttempts, h]
  rfl

theorem unmistaken_before : Unmistaken block after block := Or.inr (Or.inl ⟨rfl, rfl⟩)

theorem unmistaken_after : Unmistaken block after after := Or.inr (Or.inr ⟨rfl, rfl⟩)

/-- A check word is right for one request only. -/
theorem blockCheck_request {request request' attempts : UInt32}
    (h : blockCheck halBootMagic request attempts = blockCheck halBootMagic request' attempts) :
    request = request' := by
  simpa [blockCheck] using h

/-- The blocks a cut seal can leave. -/
theorem sealStores_cut (block : BootBlock) (request attempts : UInt32) (P : BootBlock → Prop) :
    (∀ k, P (block.storeAll ((sealStores request attempts).take k))) ↔
      P block ∧ P { block with magic := halBootMagic } ∧
        P { block with magic := halBootMagic, request := request } ∧
        P { blockSeal request attempts with check := block.check } ∧
        P (blockSeal request attempts) := by
  constructor
  · intro h
    exact ⟨h 0, h 1, h 2, h 3, h 4⟩
  · rintro ⟨h0, h1, h2, h3, h4⟩ k
    match k with
    | 0 => exact h0
    | 1 => exact h1
    | 2 => exact h2
    | 3 => exact h3
    | k + 4 =>
      rw [List.take_of_length_le (Nat.le_add_left 4 k), sealStores_all]
      exact h4

/-- Over a valid block, a seal that changes the request alone or the attempts alone
is misread at no cut. -/
theorem sealStores_valid (h : block.valid = true) {request attempts : UInt32}
    (hone : request = block.request ∨ attempts = block.attempts) (k : Nat) :
    Unmistaken block (blockSeal request attempts)
      (block.storeAll ((sealStores request attempts).take k)) := by
  obtain ⟨hmagic, hcheck⟩ := valid_iff.mp h
  rw [hmagic] at hcheck
  revert k
  rw [sealStores_cut _ _ _ (Unmistaken block (blockSeal request attempts))]
  have hsame : ({ block with magic := halBootMagic } : BootBlock) = block := by
    cases block
    cases hmagic
    rfl
  refine ⟨unmistaken_before, ?_, ?_, ?_, unmistaken_after⟩
  · rw [hsame]
    exact unmistaken_before
  -- the new request under the old check word
  · by_cases heq : request = block.request
    · rw [heq, hsame]
      exact unmistaken_before
    · refine Or.inl (Bool.eq_false_iff.mpr fun hvalid => heq ?_)
      have htorn := (valid_iff.mp hvalid).2
      exact blockCheck_request (htorn.symm.trans hcheck)
  -- both new words under the old check word
  · refine Or.elim (Bool.eq_false_or_eq_true _) (fun hvalid => Or.inr ?_) Or.inl
    have htorn := (valid_iff.mp hvalid).2
    have hsealed : ({ blockSeal request attempts with check := block.check } : BootBlock) =
        blockSeal request attempts := by
      rw [BootBlock.mk.injEq]
      exact ⟨rfl, rfl, rfl, htorn⟩
    rw [hsealed]
    exact Or.inr ⟨rfl, rfl⟩

/-- Over an invalid block the attempts sealed are 0, and a cut is misread when the
check word collides. -/
theorem sealStores_invalid (h : block.valid = false) (request : UInt32) :
    (∀ k, Unmistaken block (blockSeal request 0)
      (block.storeAll ((sealStores request 0).take k))) ↔ NoCollision block request := by
  rw [sealStores_cut _ _ _ (Unmistaken block (blockSeal request 0))]
  have hreads : ∀ torn : BootBlock, torn.valid = true →
      (Unmistaken block (blockSeal request 0) torn ↔
        torn.attempts = 0 ∧ (torn.request = halBootReqNone ∨ torn.request = request)) := by
    intro torn hvalid
    simp only [Unmistaken, ReadsAs, hvalid, getRequest_invalid h, getAttempts_invalid h,
      getRequest_valid hvalid, getAttempts_valid hvalid, blockSeal_getRequest,
      blockSeal_getAttempts, Bool.true_eq_false, false_or]
    constructor
    · rintro (⟨hr, ha⟩ | ⟨hr, ha⟩)
      · exact ⟨ha, Or.inl hr⟩
      · exact ⟨ha, Or.inr hr⟩
    · rintro ⟨ha, hr | hr⟩
      · exact Or.inl ⟨hr, ha⟩
      · exact Or.inr ⟨hr, ha⟩
  have htorn : ∀ torn : BootBlock,
      Unmistaken block (blockSeal request 0) torn ↔
        (torn.valid = true → torn.attempts = 0 ∧
          (torn.request = halBootReqNone ∨ torn.request = request)) := by
    intro torn
    cases hvalid : torn.valid with
    | false => exact ⟨fun _ hc => absurd hc (by decide), fun _ => Or.inl hvalid⟩
    | true => exact ⟨fun hu _ => (hreads torn hvalid).mp hu, fun hu => (hreads torn hvalid).mpr (hu rfl)⟩
  constructor
  · rintro ⟨-, h1, h2, -, -⟩
    refine ⟨fun hc => ?_, fun hc => ?_⟩
    · exact (htorn { block with magic := halBootMagic }).mp h1 (valid_iff.mpr ⟨rfl, hc⟩)
    · exact ((htorn { block with magic := halBootMagic, request := request }).mp h2
        (valid_iff.mpr ⟨rfl, hc⟩)).1
  · rintro ⟨h1, h2⟩
    refine ⟨unmistaken_before, ?_, ?_, ?_, unmistaken_after⟩
    · exact (htorn _).mpr fun hvalid => h1 (valid_iff.mp hvalid).2
    · exact (htorn _).mpr fun hvalid => ⟨h2 (valid_iff.mp hvalid).2, Or.inr rfl⟩
    · exact (htorn _).mpr fun _ => ⟨rfl, Or.inr rfl⟩

end

/-! ## Every operation -/

theorem neverMisread_nothing {st : BootState} {op : BootOp} (h : op.stores st = []) :
    NeverMisread st op := by
  intro k
  rw [BootOp.cut, h, List.take_nil]
  exact unmistaken_before

theorem neverMisread_seal {st : BootState} {op : BootOp} {request attempts : UInt32}
    (h : op.stores st = sealStores request attempts) :
    NeverMisread st op ↔ ∀ k, Unmistaken st.block (blockSeal request attempts)
      (st.block.storeAll ((sealStores request attempts).take k)) := by
  simp only [NeverMisread, BootOp.cut, ← BootOp.stores_run, h, sealStores_all]

/-- A valid block is never misread, whatever the operation. -/
theorem neverMisread_valid {st : BootState} (h : st.block.valid = true) (op : BootOp) :
    NeverMisread st op := by
  cases op with
  | blockInit => exact neverMisread_nothing (by rw [BootOp.stores, if_pos h])
  | clearRequest =>
    refine (neverMisread_seal (by rw [BootOp.stores, if_pos h])).mpr ?_
    exact sealStores_valid h (Or.inr rfl)
  | accountAttempt =>
    refine (neverMisread_seal (by rw [BootOp.stores, if_pos h])).mpr ?_
    exact sealStores_valid h (Or.inl rfl)
  | markHealthy =>
    refine (neverMisread_seal (by rw [BootOp.stores, if_pos h])).mpr ?_
    exact sealStores_valid h (Or.inl rfl)
  | requestTarget request =>
    by_cases hrefused : st.entryDisabled = true ∨
        (request ≠ halBootReqLoader ∧ request ≠ halBootReqStage1)
    · refine neverMisread_nothing ?_
      rw [BootOp.stores]
      rcases hrefused with hdisabled | hother
      · rw [if_pos hdisabled]
      · rw [if_pos hother, ite_self]
    · rw [not_or] at hrefused
      have hstores : BootOp.stores st (.requestTarget request) =
          sealStores request (halBootGetAttempts st.block) := by
        rw [BootOp.stores, if_neg hrefused.1, if_neg hrefused.2]
      refine (neverMisread_seal hstores).mpr (sealStores_valid h (Or.inr ?_))
      rw [halBootGetAttempts, if_pos h]

/-- For every content of the block and every operation: no cut is misread if and only
if the block was valid, nothing is sealed, or the check word found does not collide. -/
theorem neverMisread_iff (st : BootState) (op : BootOp) :
    NeverMisread st op ↔ TearsSafely st op := by
  cases h : st.block.valid with
  | true => exact ⟨fun _ => Or.inl h, fun _ => neverMisread_valid h op⟩
  | false =>
    have hnot : ¬ st.block.valid = true := by simp [h]
    unfold TearsSafely
    rw [or_iff_right hnot]
    cases op with
    | blockInit =>
      rw [neverMisread_seal (by rw [BootOp.stores, if_neg hnot])]
      exact sealStores_invalid h _
    | clearRequest =>
      exact iff_of_true (neverMisread_nothing (by rw [BootOp.stores, if_neg hnot])) trivial
    | accountAttempt =>
      exact iff_of_true (neverMisread_nothing (by rw [BootOp.stores, if_neg hnot])) trivial
    | markHealthy =>
      exact iff_of_true (neverMisread_nothing (by rw [BootOp.stores, if_neg hnot])) trivial
    | requestTarget request =>
      by_cases hdisabled : st.entryDisabled = true
      · exact iff_of_true (neverMisread_nothing (by rw [BootOp.stores, if_pos hdisabled]))
          (Or.inl hdisabled)
      · by_cases hother : request ≠ halBootReqLoader ∧ request ≠ halBootReqStage1
        · refine iff_of_true (neverMisread_nothing ?_) (Or.inr (Or.inl hother))
          rw [BootOp.stores, if_neg hdisabled, if_pos hother]
        · have hstores : BootOp.stores st (.requestTarget request) = sealStores request 0 := by
            rw [BootOp.stores, if_neg hdisabled, if_neg hother, getAttempts_invalid h]
          rw [neverMisread_seal hstores, sealStores_invalid h]
          exact ((or_iff_right hdisabled).trans (or_iff_right hother)).symm

/-- A block that has lost its magic word alone: the first store of `hal_boot_block_init`
brings back the request and the attempts it held. -/
def magicLost : BootBlock where
  magic := 0
  request := halBootReqLoader
  attempts := 2
  check := blockCheck halBootMagic halBootReqLoader 2

theorem lost_magic_brought_back :
    ¬ NeverMisread { block := magicLost } .blockInit ∧
      halBootGetRequest magicLost = halBootReqNone ∧
      halBootGetRequest (BootOp.cut { block := magicLost } .blockInit 1) = halBootReqLoader ∧
      halBootGetRequest (halBootBlockInit { block := magicLost }).2.block = halBootReqNone := by
  refine ⟨fun h => ?_, by decide, by decide, by decide⟩
  have hcut : ¬ Unmistaken magicLost (halBootBlockInit { block := magicLost }).2.block
      (BootOp.cut { block := magicLost } .blockInit 1) := by decide
  exact hcut (h 1)

end NavHAL.Boot
