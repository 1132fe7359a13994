import NavHAL.Arch.Interrupt

/-!
# Interrupt priorities (`interrupt.c`, `hal_interrupt.c`)

`hal_interrupt_enable_with_priority` sets the level and then calls the port's
`enable`, which sets `HAL_IRQ_PRIORITY_DEFAULT` over it.

* `levelsRequested_run` : no line is ever enabled at a level that nobody asked for;
* `priority_honoured_iff` : all calls are honoured exactly when
  `hal_interrupt_enable_with_priority` is asked for the default level only.
-/

namespace NavHAL.Arch

open BitBank
open Steps (run Always Each)

/-- The upper four bits of a priority byte. -/
def normalized (value : BitVec 8) : BitVec 8 := value >>> 4

/-- One field of a system handler priority register. -/
def getField (reg : BitVec 32) (shift : Nat) : BitVec 8 := (reg >>> shift).setWidth 8

def armv7emInterruptGetPriority (irq : Int) (nvic : Nvic) : BitVec 8 :=
  if 0 ≤ irq then normalized (nvic.ipr irq.toNat)
  else if irq = -12 then normalized (getField nvic.shpr1 0)
  else if irq = -11 then normalized (getField nvic.shpr1 8)
  else if irq = -10 then normalized (getField nvic.shpr1 16)
  else if irq = -5 then normalized (getField nvic.shpr2 24)
  else if irq = -2 then normalized (getField nvic.shpr3 16)
  else if irq = -1 then normalized (getField nvic.shpr3 24)
  else 0xFF

def halInterruptSetPriority (part : Part) (irq : Int) (priority : BitVec 8) (b : Board) :
    HalStatus × Board :=
  b.onNvic (armv7emInterruptSetPriority part irq priority)

def halInterruptGetPriority (irq : Int) (b : Board) : BitVec 8 :=
  armv7emInterruptGetPriority irq b.nvic

/-! ## Runs -/

inductive PriorityOp (part : Part)
  | setPriority (irq : Fin part.irqCount) (priority : BitVec 8)
  | enable (irq : Fin part.irqCount)
  | enableWithPriority (irq : Fin part.irqCount) (priority : BitVec 8)
  | disable (irq : Fin part.irqCount)

variable {part : Part}

namespace PriorityOp

def line : PriorityOp part → Nat
  | setPriority irq _ | enable irq | enableWithPriority irq _ | disable irq => irq

/-- The level that the call asks for. -/
def level : PriorityOp part → Option (BitVec 8)
  | setPriority _ priority | enableWithPriority _ priority => some priority
  | enable _ => some halIrqPriorityDefault
  | disable _ => none

def enables : PriorityOp part → Bool
  | enable _ | enableWithPriority _ _ => true
  | setPriority _ _ | disable _ => false

def perform (b : Board) : PriorityOp part → HalStatus × Board
  | setPriority irq priority => halInterruptSetPriority part irq priority b
  | enable irq => halInterruptEnable part irq b
  | enableWithPriority irq priority => halInterruptEnableWithPriority part irq priority b
  | disable irq => halInterruptDisable irq b

end PriorityOp

/-- The board, and the levels that calls which returned HAL_OK asked for. -/
structure PriorityRun where
  board : Board
  asked : List (Nat × BitVec 8)

def PriorityRun.afterReset (b : Board) : PriorityRun where
  board := { b with nvic := { b.nvic with enabled := fun _ => 0 } }
  asked := []

def priorityStep (rs : PriorityRun) (op : PriorityOp part) : PriorityRun where
  board := (op.perform rs.board).2
  asked :=
    match op.level with
    | some p => if (op.perform rs.board).1 = .ok then (op.line, p) :: rs.asked else rs.asked
    | none => rs.asked

/-- What a call promises for its own line and for the others. -/
structure Honoured (rs : PriorityRun) (op : PriorityOp part) : Prop where
  level : (op.perform rs.board).1 = .ok → ∀ p, op.level = some p →
    halInterruptGetPriority op.line (op.perform rs.board).2 = p
  enabled : (op.perform rs.board).1 = .ok → op.enables = true →
    bit (op.perform rs.board).2.nvic.enabled op.line = true
  refused : (op.perform rs.board).1 ≠ .ok →
    halInterruptGetPriority op.line (op.perform rs.board).2 =
      halInterruptGetPriority op.line rs.board ∧
    bit (op.perform rs.board).2.nvic.enabled op.line = bit rs.board.nvic.enabled op.line
  others : ∀ n : Nat, n ≠ op.line →
    halInterruptGetPriority n (op.perform rs.board).2 = halInterruptGetPriority n rs.board

/-- No line is enabled at a level nobody asked for, other than the default. -/
def LevelsRequested (rs : PriorityRun) : Prop :=
  ∀ n : Nat, bit rs.board.nvic.enabled n = true →
    halInterruptGetPriority n rs.board = halIrqPriorityDefault ∨
      (n, halInterruptGetPriority n rs.board) ∈ rs.asked

/-- `hal_interrupt_enable_with_priority` with the default level, or with one that is refused. -/
def AsksDefault : PriorityOp part → Prop
  | .enableWithPriority _ priority => priority = halIrqPriorityDefault ∨ 15 < priority
  | _ => True

/-! ## What a call does to the levels -/

/-- The NVIC after a level is set. -/
def withLevel (nvic : Nvic) (n : Nat) (priority : BitVec 8) : Nvic :=
  { nvic with
    ipr := fun i => if i = n then (priority.setWidth 32 <<< 4).setWidth 8 else nvic.ipr i }

section Calls

variable {irq : Nat} {priority : BitVec 8} {nvic : Nvic}

theorem normalized_level (h : priority ≤ 15) :
    normalized ((priority.setWidth 32 <<< 4).setWidth 8) = priority := by
  have hle : priority.toNat ≤ 15 := h
  apply BitVec.eq_of_toNat_eq
  simp only [normalized, BitVec.toNat_ushiftRight, BitVec.toNat_setWidth, BitVec.toNat_shiftLeft,
    Nat.shiftLeft_eq, Nat.shiftRight_eq_div_pow]
  omega

theorem getPriority_withLevel (h : priority ≤ 15) (n : Nat) :
    armv7emInterruptGetPriority n (withLevel nvic irq priority) =
      if n = irq then priority else armv7emInterruptGetPriority n nvic := by
  simp only [armv7emInterruptGetPriority, withLevel, Int.toNat_natCast, Int.natCast_nonneg,
    if_true]
  by_cases hn : n = irq
  · rw [if_pos hn, if_pos hn, normalized_level h]
  · rw [if_neg hn, if_neg hn]

theorem getPriority_congr {nvic' : Nvic} (h : nvic'.ipr = nvic.ipr) (n : Nat) :
    armv7emInterruptGetPriority n nvic' = armv7emInterruptGetPriority n nvic := by
  simp only [armv7emInterruptGetPriority, Int.natCast_nonneg, if_true, h]

theorem setPriority_line (hline : irq < part.irqCount) (h : priority ≤ 15) :
    armv7emInterruptSetPriority part irq priority nvic =
      (.ok, withLevel nvic irq priority) := by
  rw [armv7emInterruptSetPriority, if_neg (BitVec.not_lt.mpr h)]
  simp only [Int.natCast_nonneg, Int.toNat_natCast, if_true]
  rw [if_neg (by omega)]
  rfl

theorem setPriority_tooBig (h : ¬ priority ≤ 15) (irq : Int) :
    armv7emInterruptSetPriority part irq priority nvic = (.errInvalidArg, nvic) :=
  if_pos (BitVec.not_le.mp h)

theorem enable_line (hline : irq < part.irqCount) :
    armv7emInterruptEnable part irq nvic =
      (.ok,
        { withLevel nvic irq halIrqPriorityDefault with
          enabled := writeSet nvic.enabled (irq / 32) (nvic.enabled (irq / 32) ||| mask irq) }) := by
  rw [armv7emInterruptEnable, enableAt, if_neg (by omega),
    setPriority_line hline (by decide : halIrqPriorityDefault ≤ 15)]
  rfl

/-- A refused level comes back as such. -/
theorem enableWithPriority_tooBig (h : ¬ priority ≤ 15) (b : Board) :
    halInterruptEnableWithPriority part irq priority b = (.errInvalidArg, b) := by
  simp only [halInterruptEnableWithPriority, Board.onNvic, setPriority_tooBig h]
  rw [if_pos ⟨by decide, by decide⟩]

/-- An accepted one is followed by `enable`. -/
theorem enableWithPriority_eq_enable (hline : irq < part.irqCount) (h : priority ≤ 15) (b : Board) :
    halInterruptEnableWithPriority part irq priority b =
      halInterruptEnable part irq { b with nvic := withLevel b.nvic irq priority } := by
  simp only [halInterruptEnableWithPriority, Board.onNvic, setPriority_line hline h]
  rw [if_neg (fun hst => hst.1 rfl)]
  rfl

end Calls

/-- The ways in which a call can end. -/
inductive Outcome (b : Board) : PriorityOp part → HalStatus × Board → Prop
  | refused {op : PriorityOp part} {priority : BitVec 8} (hlevel : op.level = some priority)
      (hbig : ¬ priority ≤ 15) : Outcome b op (.errInvalidArg, b)
  | leveled {op : PriorityOp part} {priority : BitVec 8} (hlevel : op.level = some priority)
      (hle : priority ≤ 15) (henables : op.enables = false) :
      Outcome b op (.ok, { b with nvic := withLevel b.nvic op.line priority })
  | enabled {op : PriorityOp part} {priority : BitVec 8} {nvic : Nvic}
      (hasked : op.level = some priority) (hle : priority ≤ 15) (henables : op.enables = true)
      (hlevel : ∀ n : Nat, armv7emInterruptGetPriority n nvic =
        if n = op.line then halIrqPriorityDefault else armv7emInterruptGetPriority n b.nvic)
      (hbit : ∀ n, bit nvic.enabled n = if n = op.line then true else bit b.nvic.enabled n) :
      Outcome b op (.ok, { b with nvic := nvic })
  | disabled {op : PriorityOp part} {nvic : Nvic} (hlevel : op.level = none)
      (henables : op.enables = false) (hipr : nvic.ipr = b.nvic.ipr)
      (hbit : ∀ n, bit nvic.enabled n = true → bit b.nvic.enabled n = true) :
      Outcome b op (.ok, { b with nvic := nvic })

theorem enable_outcome {op : PriorityOp part} {priority : BitVec 8} {nvic : Nvic}
    (hasked : op.level = some priority) (hle : priority ≤ 15) (henables : op.enables = true)
    (b : Board) (hlevel : ∀ n : Nat, n ≠ op.line →
      armv7emInterruptGetPriority n nvic = armv7emInterruptGetPriority n b.nvic)
    (hbit : nvic.enabled = b.nvic.enabled) (hline : op.line < part.irqCount) :
    Outcome b op (halInterruptEnable part op.line { b with nvic := nvic }) := by
  simp only [halInterruptEnable, Board.onNvic, enable_line hline]
  refine .enabled hasked hle henables (fun n => ?_) (fun n => ?_)
  · have hget : armv7emInterruptGetPriority n (withLevel nvic op.line halIrqPriorityDefault) =
        if n = op.line then halIrqPriorityDefault else armv7emInterruptGetPriority n nvic :=
      getPriority_withLevel (by decide) n
    refine (getPriority_congr rfl n).trans (hget.trans ?_)
    by_cases hn : n = op.line
    · rw [if_pos hn, if_pos hn]
    · rw [if_neg hn, if_neg hn, hlevel n hn]
  · rw [← hbit]
    exact bit_writeSet_read ..

theorem perform_outcome (op : PriorityOp part) (b : Board) : Outcome b op (op.perform b) := by
  cases op with
  | setPriority irq priority =>
    simp only [PriorityOp.perform, halInterruptSetPriority, Board.onNvic]
    by_cases h : priority ≤ 15
    · rw [setPriority_line irq.isLt h]
      show Outcome b (.setPriority irq priority)
        (.ok, { b with nvic := withLevel b.nvic (PriorityOp.setPriority irq priority).line priority })
      exact .leveled rfl h rfl
    · rw [setPriority_tooBig h]
      exact .refused (show _ = some priority from rfl) h
  | enable irq =>
    show Outcome b _ (halInterruptEnable part (PriorityOp.enable irq).line b)
    exact enable_outcome rfl (by decide) rfl b (fun _ _ => rfl) rfl irq.isLt
  | enableWithPriority irq priority =>
    simp only [PriorityOp.perform]
    by_cases h : priority ≤ 15
    · rw [enableWithPriority_eq_enable irq.isLt h]
      have hothers : ∀ n : Nat, n ≠ irq →
          armv7emInterruptGetPriority n (withLevel b.nvic irq priority) =
            armv7emInterruptGetPriority n b.nvic := by
        intro n hn
        rw [getPriority_withLevel h, if_neg hn]
      show Outcome b _ (halInterruptEnable part (PriorityOp.enableWithPriority irq priority).line
        { b with nvic := withLevel b.nvic irq priority })
      exact enable_outcome rfl h rfl b hothers rfl irq.isLt
    · rw [enableWithPriority_tooBig h]
      exact .refused (show _ = some priority from rfl) h
  | disable irq =>
    simp only [PriorityOp.perform, halInterruptDisable, Board.onNvic]
    have hline : (0 : Int) ≤ irq := by omega
    have hbit := disable_bit (irq : Int) b.nvic hline
    rw [armv7emInterruptDisable, if_neg (by omega)] at hbit ⊢
    refine .disabled rfl rfl rfl (fun n hn => ?_)
    rw [hbit n] at hn
    split at hn
    · cases hn
    · exact hn

/-! ## Runs -/

/-- A call that keeps every enabled line enabled before, and every level on record. -/
theorem levelsRequested_step (rs : PriorityRun) (op : PriorityOp part) (h : LevelsRequested rs) :
    LevelsRequested (priorityStep rs op) := by
  have houtcome := perform_outcome op rs.board
  simp only [LevelsRequested, priorityStep, halInterruptGetPriority] at h ⊢
  generalize op.perform rs.board = r at houtcome
  intro n hn
  cases houtcome with
  | @refused priority hlevel hbig =>
    simpa [hlevel] using h n hn
  | @leveled priority hlevel hle henables =>
    simp only [hlevel, getPriority_withLevel hle, if_true]
    by_cases hline : n = op.line
    · simp [hline]
    · rw [if_neg hline]
      exact (h n hn).imp_right (List.mem_cons_of_mem _)
  | enabled hasked hle henables hlevel hbit =>
    rw [hlevel n]
    by_cases hline : n = op.line
    · rw [if_pos hline]
      exact .inl rfl
    · rw [if_neg hline]
      rw [hbit n, if_neg hline] at hn
      refine (h n hn).imp_right fun hmem => ?_
      split
      · exact List.mem_cons_of_mem _ hmem
      · exact hmem
  | disabled hlevel henables hipr hbit =>
    rw [getPriority_congr hipr]
    simpa [hlevel] using h n (hbit n hn)

theorem levelsRequested_run (b : Board) (ops : List (PriorityOp part)) :
    Always priorityStep LevelsRequested (.afterReset b) ops :=
  Each.always (fun rs op h (_ : True) => levelsRequested_step rs op h)
    (by intro n hn; simp [PriorityRun.afterReset, bit] at hn)
    (Each.of_all (fun _ _ => trivial) _ ops)

theorem asksDefault_of_refused {op : PriorityOp part} {priority : BitVec 8}
    (hlevel : op.level = some priority) (hbig : ¬ priority ≤ 15) : AsksDefault op := by
  cases op with
  | enableWithPriority irq p =>
    cases hlevel
    exact .inr (BitVec.not_le.mp hbig)
  | _ => trivial

/-- A call that enables leaves the default level. -/
theorem asksDefault_of_enables {op : PriorityOp part} {priority : BitVec 8}
    (hasked : op.level = some priority) (hle : priority ≤ 15) (henables : op.enables = true) :
    AsksDefault op ↔ priority = halIrqPriorityDefault := by
  cases op with
  | setPriority irq p => cases henables
  | enable irq =>
    cases hasked
    exact ⟨fun _ => rfl, fun _ => trivial⟩
  | enableWithPriority irq p =>
    cases hasked
    exact ⟨fun h => h.resolve_right (BitVec.not_lt.mpr hle), .inl⟩
  | disable irq => cases henables

theorem asksDefault_of_not_enables {op : PriorityOp part} (henables : op.enables = false) :
    AsksDefault op := by
  cases op with
  | enableWithPriority irq p => cases henables
  | _ => trivial

theorem honoured_iff (rs : PriorityRun) (op : PriorityOp part) :
    Honoured rs op ↔ AsksDefault op := by
  have houtcome := perform_outcome op rs.board
  generalize hr : op.perform rs.board = r at houtcome
  cases houtcome with
  | refused hlevel hbig =>
    refine iff_of_true ?_ (asksDefault_of_refused hlevel hbig)
    constructor <;> simp [hr]
  | @leveled priority hlevel hle henables =>
    refine iff_of_true ?_ (asksDefault_of_not_enables henables)
    constructor
    case level =>
      intro _ p hp
      rw [hlevel] at hp
      cases hp
      simp only [hr, halInterruptGetPriority, getPriority_withLevel hle, if_true]
    case enabled => simp [henables]
    case refused => simp [hr]
    case others =>
      intro n hn
      simp only [hr, halInterruptGetPriority, getPriority_withLevel hle, if_neg hn]
  | enabled hasked hle henables hlevel hbit =>
    rw [asksDefault_of_enables hasked hle henables]
    constructor
    · intro h
      have hget := h.level (by rw [hr]) _ hasked
      simp only [hr, halInterruptGetPriority, hlevel, if_true] at hget
      exact hget.symm
    · intro hdefault
      constructor
      case level =>
        intro _ p hp
        rw [hasked, hdefault] at hp
        cases hp
        simp only [hr, halInterruptGetPriority, hlevel, if_true]
      case enabled =>
        intro _ _
        rw [hr, hbit, if_pos rfl]
      case refused => simp [hr]
      case others =>
        intro n hn
        simp only [hr, halInterruptGetPriority, hlevel, if_neg hn]
  | disabled hlevel henables hipr hbit =>
    refine iff_of_true ?_ (asksDefault_of_not_enables henables)
    constructor
    case level => simp [hlevel]
    case enabled => simp [henables]
    case refused => simp [hr]
    case others =>
      intro n _
      simp only [hr, halInterruptGetPriority, getPriority_congr hipr]

/-- **Every call of a run is honoured exactly when `enable_with_priority` is
asked for the default level only**, or for one that it refuses. -/
theorem priority_honoured_iff (part : Part) (b : Board) (ops : List (PriorityOp part)) :
    Each priorityStep Honoured (.afterReset b) ops ∧
        Always priorityStep LevelsRequested (.afterReset b) ops ↔
      ∀ op ∈ ops, AsksDefault op := by
  rw [and_iff_left (levelsRequested_run b ops)]
  exact Steps.each_iff_forall honoured_iff _ ops

/-! ## A level above the default on the STM32F4 -/

/-- USART2 at level 5: it is enabled at level 8. -/
theorem enable_with_priority_forgets_level :
    (halInterruptEnableWithPriority stm32f4 38 5 default).1 = .ok ∧
    halInterruptGetPriority 38 (halInterruptEnableWithPriority stm32f4 38 5 default).2 = 8 ∧
    ¬ Each priorityStep Honoured (.afterReset default)
      [(.enableWithPriority ⟨38, by decide⟩ 5 : PriorityOp stm32f4)] := by
  refine ⟨by decide, by decide, fun h => ?_⟩
  have hlevel := h.1.level (by decide) 5 rfl
  exact absurd hlevel (by decide)

end NavHAL.Arch
