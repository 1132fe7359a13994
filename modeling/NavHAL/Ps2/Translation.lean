import NavHAL.Ps2.Keyboard

/-!
# Keystrokes and characters

The keyboard sends a byte or two for each press and release of a key; what
should come out is `typed`, which goes by the keys that are down.

* `emitted_encode_iff` : the driver agrees with it where its one shift bit is
  right at each press whose character depends on it;
* `forgotten_iff` : the bit is wrong after a release code of a shift key, be it
  the other one's or a fake one behind a prefix, while a shift key is down.
-/

namespace NavHAL.Ps2

/-! ## The keyboard -/

/-- A key by its make code. With bit 7 set that is the break code, which is not
the prefix of the extended keys. -/
structure Key where
  code : UInt8
  make : code &&& 0x80 = 0
  not_prefix : code ≠ 0x60
  deriving DecidableEq

/-- Pause has a sequence of its own, the other keys have one code each. -/
inductive Event where
  | press (k : Key)
  | release (k : Key)
  | extPress (k : Key)
  | extRelease (k : Key)
  | pause
  deriving DecidableEq

def Event.encode : Event → List UInt8
  | .press k => [k.code]
  | .release k => [k.code ||| 0x80]
  | .extPress k => [scExtended, k.code]
  | .extRelease k => [scExtended, k.code ||| 0x80]
  | .pause => [0xE1, 0x1D, 0x45, 0xE1, 0x9D, 0xC5]

def encode (evs : List Event) : List UInt8 := evs.flatMap Event.encode

def isShift (sc : UInt8) : Bool := sc == scLshift || sc == scRshift

/-- Which shift keys are down, and whether Caps Lock is on. -/
structure Keys where
  left : Bool
  right : Bool
  caps : Bool
  deriving DecidableEq

namespace Keys

def up : Keys := ⟨false, false, false⟩

def held (s : Keys) : Bool := s.left || s.right

def step (s : Keys) : Event → Keys
  | .press k =>
    { left := s.left || k.code == scLshift
      right := s.right || k.code == scRshift
      caps := s.caps ^^ k.code == scCapslock }
  | .release k =>
    { s with left := s.left && k.code != scLshift, right := s.right && k.code != scRshift }
  | .extPress _ | .extRelease _ | .pause => s

def gives (s : Keys) : Event → List UInt8
  | .press k => types s.held s.caps k.code
  | .release _ | .extPress _ | .extRelease _ | .pause => []

end Keys

/-- What the keystrokes should give. -/
def typed (s : Keys) : List Event → List UInt8
  | [] => []
  | e :: evs => s.gives e ++ typed (s.step e) evs

/-! ## The driver, keystroke by keystroke -/

namespace Modes

def step (m : Modes) : Event → Modes
  | .press k =>
    { m with shift := m.shift || isShift k.code, caps := m.caps ^^ k.code == scCapslock }
  | .release k | .extRelease k => { m with shift := m.shift && !isShift k.code }
  | .extPress _ | .pause => m

def gives (m : Modes) : Event → List UInt8
  | .press k => types m.shift m.caps k.code
  | .release _ | .extPress _ | .extRelease _ | .pause => []

theorem step_extended (m : Modes) (e : Event) : (m.step e).extended = m.extended := by
  cases e <;> rfl

end Modes

namespace Key

variable (k : Key)

theorem code_ne_prefix : k.code ≠ scExtended := by
  intro h
  have hmake := k.make
  rw [h] at hmake
  exact absurd hmake (by decide)

theorem and_or_right (a b c : UInt8) : (a ||| b) &&& c = (a &&& c) ||| (b &&& c) :=
  UInt8.eq_of_toBitVec_eq BitVec.and_or_distrib_right

theorem make_and : k.code &&& 0x7F = k.code := by
  have hall : (0x7F ||| 0x80) &&& k.code = k.code := UInt8.neg_one_and
  rwa [and_or_right, UInt8.and_comm 0x80, k.make, UInt8.or_zero, UInt8.and_comm] at hall

theorem break_and_make : (k.code ||| 0x80) &&& 0x7F = k.code := by
  rw [and_or_right, make_and]
  exact UInt8.or_zero

theorem break_up : (k.code ||| 0x80) &&& 0x80 ≠ 0 := by
  rw [and_or_right, k.make, UInt8.zero_or]
  decide

theorem break_ne_prefix : k.code ||| 0x80 ≠ scExtended := by
  intro h
  have hmake := k.break_and_make
  rw [h] at hmake
  exact k.not_prefix hmake.symm

end Key

theorem next_scExtended (m : Modes) : m.next scExtended = { m with extended := true } := rfl

theorem isShift_iff (sc : UInt8) : isShift sc = true ↔ sc = scLshift ∨ sc = scRshift := by
  rw [isShift, Bool.or_eq_true, beq_iff_eq, beq_iff_eq]

theorem isShift_caps : isShift scCapslock = false := by decide

theorem next_make (m : Modes) (k : Key) :
    m.next k.code =
      if m.extended then { m with extended := false } else m.step (.press k) := by
  rw [Modes.next, if_neg k.code_ne_prefix, if_neg (not_not_intro k.make), Modes.step]
  simp only [← isShift_iff]
  split
  · rfl
  split
  · next h =>
    have hcaps : k.code ≠ scCapslock := by
      rintro heq
      rw [heq, isShift_caps] at h
      cases h
    rw [h, beq_false_of_ne hcaps, Bool.or_true, Bool.xor_false]
  · next h =>
    rw [Bool.not_eq_true _ |>.mp h, Bool.or_false]
    split
    · next hcaps => rw [hcaps, BEq.rfl, Bool.xor_true]
    · next hcaps => rw [beq_false_of_ne hcaps, Bool.xor_false]

theorem next_break (m : Modes) (k : Key) :
    m.next (k.code ||| 0x80) = { m.step (.release k) with extended := false } := by
  rw [Modes.next, if_neg k.break_ne_prefix, if_pos k.break_up, k.break_and_make, Modes.step]
  simp only [← isShift_iff]
  split
  · next h => rw [h, Bool.not_true, Bool.and_false]
  · next h => rw [Bool.not_eq_true _ |>.mp h, Bool.not_false, Bool.and_true]

theorem emits_make (m : Modes) (k : Key) :
    m.emits k.code = if m.extended then [] else m.gives (.press k) := by
  rw [Modes.emits, Modes.gives]
  simp [k.make]

theorem emits_break (m : Modes) (k : Key) : m.emits (k.code ||| 0x80) = [] :=
  if_pos (Or.inl k.break_up)

theorem emits_scExtended (m : Modes) : m.emits scExtended = [] := if_pos (Or.inl (by decide))

theorem next_extended (m : Modes) (k : Key) :
    Modes.next { m with extended := true } k.code = { m with extended := false } := by
  rw [next_make]
  rfl

/-- A whole keystroke, one case for each kind. -/
theorem after_encode {m : Modes} (h : m.extended = false) (e : Event) :
    m.after e.encode = m.step e := by
  have hm : { m with extended := false } = m := by rw [← h]
  cases e with
  | press k =>
    show m.next k.code = _
    rw [next_make, h]
    rfl
  | release k =>
    show m.next (k.code ||| 0x80) = _
    rw [next_break, ← h, ← m.step_extended]
  | extPress k =>
    show (m.next scExtended).next k.code = _
    rw [next_scExtended, next_extended]
    exact hm
  | extRelease k =>
    show (m.next scExtended).next (k.code ||| 0x80) = _
    rw [next_scExtended, next_break, Modes.step, Modes.step, ← h]
  | pause =>
    obtain ⟨shift, caps, extended⟩ := m
    cases h
    cases shift <;> cases caps <;> decide

theorem emitted_encode {m : Modes} (h : m.extended = false) (e : Event) :
    m.emitted e.encode = m.gives e := by
  cases e with
  | press k =>
    rw [Event.encode, Modes.emitted, emits_make, h]
    exact List.append_nil _
  | release k =>
    rw [Event.encode, Modes.emitted, emits_break]
    rfl
  | extPress k =>
    rw [Event.encode, Modes.emitted, Modes.emitted, emits_scExtended, emits_make]
    rfl
  | extRelease k =>
    rw [Event.encode, Modes.emitted, Modes.emitted, emits_scExtended, emits_break]
    rfl
  | pause =>
    obtain ⟨shift, caps, extended⟩ := m
    cases h
    cases shift <;> cases caps <;> decide

/-! ## The characters -/

theorem swapCase_swapCase (c : UInt8) : swapCase (swapCase c) = c := by
  unfold swapCase
  grind

theorem swapCase_inj {a b : UInt8} : swapCase a = swapCase b ↔ a = b := by
  refine ⟨fun h => ?_, congrArg swapCase⟩
  rw [← swapCase_swapCase a, h, swapCase_swapCase]

theorem translate_eq_iff (caps : Bool) (sc : UInt8) :
    translate true caps sc = translate false caps sc ↔ map sc = mapShift sc := by
  cases caps with
  | false => exact eq_comm
  | true => exact swapCase_inj.trans eq_comm

theorem entry_eq_zero_iff {table : List (UInt8 × Char)} (h : ∀ p ∈ table, p.2.toUInt8 ≠ 0)
    (sc : UInt8) : entry table sc = 0 ↔ sc ∉ table.map Prod.fst := by
  induction table with
  | nil => exact ⟨fun _ => List.not_mem_nil, fun _ => rfl⟩
  | cons p table ih =>
    have hrest := ih fun q hq => h q (List.mem_cons_of_mem _ hq)
    rw [entry] at hrest ⊢
    rw [List.lookup_cons, List.map_cons, List.mem_cons, not_or]
    cases heq : sc == p.1 with
    | true =>
      have hne := h p List.mem_cons_self
      simp only [beq_iff_eq] at heq
      simp [heq, hne]
    | false =>
      rw [beq_eq_false_iff_ne] at heq
      simp [heq, hrest]

/-- The shift keys choose between two characters, never whether there is one. -/
theorem map_eq_zero_iff (sc : UInt8) : map sc = 0 ↔ mapShift sc = 0 := by
  have hcodes : unshifted.map Prod.fst = shifted.map Prod.fst := by decide
  rw [map, mapShift, entry_eq_zero_iff (by decide), entry_eq_zero_iff (by decide), hcodes]

theorem translate_eq_zero_iff (shift caps : Bool) (sc : UInt8) :
    translate shift caps sc = 0 ↔ map sc = 0 := by
  have hswap (c : UInt8) : swapCase c = 0 ↔ c = 0 := swapCase_inj (b := 0)
  cases caps with
  | false =>
    cases shift with
    | false => exact Iff.rfl
    | true => exact (map_eq_zero_iff sc).symm
  | true =>
    cases shift with
    | false => exact hswap _
    | true => exact (hswap _).trans (map_eq_zero_iff sc).symm

theorem length_types (a b caps caps' : Bool) (sc : UInt8) :
    (types a caps sc).length = (types b caps' sc).length := by
  simp only [types, translate_eq_zero_iff]
  split <;> rfl

theorem types_eq_iff (a b caps : Bool) (sc : UInt8) :
    types a caps sc = types b caps sc ↔ a = b ∨ map sc = mapShift sc := by
  have hsame (a b : Bool) :
      types a caps sc = types b caps sc ↔ translate a caps sc = translate b caps sc := by
    simp only [types, translate_eq_zero_iff]
    split
    · next hz =>
      rw [(translate_eq_zero_iff a caps sc).mpr hz, (translate_eq_zero_iff b caps sc).mpr hz]
      exact ⟨fun _ => rfl, fun _ => rfl⟩
    · exact List.singleton_inj
  rw [hsame]
  cases a <;> cases b
  · simp
  · rw [eq_comm, translate_eq_iff]
    simp
  · rw [translate_eq_iff]
    simp
  · simp

/-! ## The shift bit -/

/-- The modes at boot. -/
def Modes.off : Modes := ⟨false, false, false⟩

/-- The keyboard and the driver, keystroke by keystroke. -/
def both (p : Keys × Modes) (e : Event) : Keys × Modes := (p.1.step e, p.2.step e)

theorem run_both (s : Keys) (m : Modes) (evs : List Event) :
    Steps.run both (s, m) evs = (Steps.run Keys.step s evs, Steps.run Modes.step m evs) :=
  Steps.run_prod Modes.step s m evs

theorem held_press (s : Keys) (k : Key) :
    (s.step (.press k)).held = (s.held || isShift k.code) := by
  simp only [Keys.step, Keys.held, isShift, Bool.or_assoc, Bool.or_left_comm]

theorem held_release (s : Keys) {k : Key} (h : isShift k.code = false) :
    (s.step (.release k)).held = s.held := by
  obtain ⟨hleft, hright⟩ := Bool.or_eq_false_iff.mp h
  simp [Keys.step, Keys.held, bne, hleft, hright]

/-- What the driver knows of the keyboard: a shift bit that is set is right. -/
structure Tracks (s : Keys) (m : Modes) : Prop where
  whole : m.extended = false
  caps_eq : m.caps = s.caps
  held_of_shift : m.shift = true → s.held = true

theorem Tracks.step {s : Keys} {m : Modes} (h : Tracks s m) (e : Event) :
    Tracks (s.step e) (m.step e) := by
  obtain ⟨hwhole, hcaps, hheld⟩ := h
  refine ⟨(m.step_extended e).trans hwhole, ?_, ?_⟩
  · cases e with
    | press k => exact congrArg (· ^^ k.code == scCapslock) hcaps
    | release k => exact hcaps
    | extPress k => exact hcaps
    | extRelease k => exact hcaps
    | pause => exact hcaps
  · cases e with
    | press k =>
      intro hshift
      rw [held_press, Bool.or_eq_true]
      exact (Bool.or_eq_true_iff.mp hshift).imp_left hheld
    | release k =>
      intro hshift
      obtain ⟨hold, hother⟩ := Bool.and_eq_true_iff.mp hshift
      rw [held_release s (by simpa using hother)]
      exact hheld hold
    | extPress k => exact hheld
    | extRelease k =>
      intro hshift
      exact hheld (Bool.and_eq_true_iff.mp hshift).1
    | pause => exact hheld

/-- The driver gives what it should. -/
def Right (p : Keys × Modes) (e : Event) : Prop := p.2.gives e = p.1.gives e

theorem length_gives (s : Keys) (m : Modes) (e : Event) :
    (m.gives e).length = (s.gives e).length := by
  cases e with
  | press k => exact length_types _ _ _ _ _
  | release k => rfl
  | extPress k => rfl
  | extRelease k => rfl
  | pause => rfl

theorem emitted_encode_iff {s : Keys} {m : Modes} (h : Tracks s m) (evs : List Event) :
    m.emitted (encode evs) = typed s evs ↔ Steps.Each both Right (s, m) evs := by
  induction evs generalizing s m with
  | nil => exact ⟨fun _ => trivial, fun _ => rfl⟩
  | cons e evs ih =>
    rw [encode, List.flatMap_cons, Modes.emitted_append, emitted_encode h.whole,
      after_encode h.whole, typed,
      List.append_eq_append_iff_of_size_eq_left (length_gives s m e)]
    exact and_congr Iff.rfl (ih (h.step e))

/-! ## Where the bit is wrong -/

def ShiftPress : Event → Prop
  | .press k => isShift k.code = true
  | .release _ | .extPress _ | .extRelease _ | .pause => False

/-- A release code of a shift key, also where it follows a prefix. -/
def ShiftRelease : Event → Prop
  | .release k | .extRelease k => isShift k.code = true
  | .press _ | .extPress _ | .pause => False

/-- The keys after some keystrokes. -/
def keysAfter (pre : List Event) : Keys := Steps.run Keys.step .up pre

/-- A shift key is down, and a release code of a shift key has come since one was
last pressed. -/
def Forgotten (pre : List Event) : Prop :=
  (keysAfter pre).held = true ∧
    ∃ earlier e later, pre = earlier ++ e :: later ∧ ShiftRelease e ∧
      ∀ p ∈ later, ¬ ShiftPress p

/-- No key that the shift keys matter to is pressed at such a moment. -/
def ShiftKept (evs : List Event) : Prop :=
  ∀ pre k post, evs = pre ++ .press k :: post → Forgotten pre → map k.code = mapShift k.code

theorem shift_step (m : Modes) (e : Event) :
    (m.step e).shift = false ↔ ShiftRelease e ∨ (m.shift = false ∧ ¬ ShiftPress e) := by
  have hbreak (k : Key) : (m.shift && !isShift k.code) = false ↔
      isShift k.code = true ∨ (m.shift = false ∧ ¬ False) := by
    rw [Bool.and_eq_false_iff, Bool.not_eq_false', not_false_eq_true, and_true, or_comm]
  cases e with
  | press k =>
    simp only [Modes.step, ShiftRelease, ShiftPress, false_or, Bool.or_eq_false_iff,
      Bool.not_eq_true]
  | release k => exact hbreak k
  | extPress k => simp only [Modes.step, ShiftRelease, ShiftPress, false_or, not_false_eq_true,
      and_true]
  | extRelease k => exact hbreak k
  | pause => simp only [Modes.step, ShiftRelease, ShiftPress, false_or, not_false_eq_true,
      and_true]

/-- With no press of a shift key none comes to be down. -/
theorem not_held_step {s : Keys} {e : Event} (h : s.held = false) (he : ¬ ShiftPress e) :
    (s.step e).held = false := by
  cases e with
  | press k => rw [held_press, h, Bool.not_eq_true _ |>.mp he, Bool.or_self]
  | release k =>
    obtain ⟨hleft, hright⟩ := Bool.or_eq_false_iff.mp h
    simp [Keys.step, Keys.held, hleft, hright]
  | extPress k => exact h
  | extRelease k => exact h
  | pause => exact h

theorem not_held_after {pre : List Event} (h : ∀ e ∈ pre, ¬ ShiftPress e) :
    (keysAfter pre).held = false := by
  have hnone : Steps.Each Keys.step (fun _ e => ¬ ShiftPress e) .up pre :=
    (Steps.each_iff_forall (R := fun e => ¬ ShiftPress e) (fun _ _ => Iff.rfl) _ _).mpr h
  have hup : Steps.Always Keys.step (fun s => s.held = false) .up pre :=
    Steps.Each.always (fun _ _ => not_held_step) rfl hnone
  exact hup.run

/-- The driver's bit is off while a shift key is down. -/
theorem forgotten_iff (pre : List Event) :
    Forgotten pre ↔
      (keysAfter pre).held = true ∧ (Steps.run Modes.step .off pre).shift = false := by
  rw [Steps.flag_off_iff Modes.shift ShiftPress ShiftRelease shift_step]
  refine and_congr_right fun hheld => ⟨Or.inl, ?_⟩
  rintro (hlast | ⟨-, hnone⟩)
  · exact hlast
  · rw [not_held_after hnone] at hheld
    cases hheld

theorem tracks_off : Tracks .up .off := ⟨rfl, rfl, fun h => h⟩

theorem tracks_after (pre : List Event) :
    Tracks (keysAfter pre) (Steps.run Modes.step .off pre) := by
  have hall : Steps.Always both (fun p => Tracks p.1 p.2) (.up, .off) pre :=
    Steps.always_of_invariant (fun _ e h => h.step e) pre tracks_off
  have hlast := hall.run
  rwa [run_both] at hlast

theorem right_press_iff {s : Keys} {m : Modes} (h : Tracks s m) (k : Key) :
    Right (s, m) (.press k) ↔
      (s.held = true ∧ m.shift = false → map k.code = mapShift k.code) := by
  have hcaps : m.gives (.press k) = types m.shift s.caps k.code := by
    rw [Modes.gives, h.caps_eq]
  have hheld := h.held_of_shift
  rw [Right, hcaps, Keys.gives, types_eq_iff, Decidable.or_iff_not_imp_left]
  refine imp_congr_left ?_
  dsimp only
  cases hm : m.shift with
  | false => cases s.held <;> decide
  | true => simp [hheld hm]

theorem typed_iff (evs : List Event) :
    Modes.off.emitted (encode evs) = typed .up evs ↔ ShiftKept evs := by
  rw [emitted_encode_iff tracks_off, Steps.each_iff_split]
  constructor
  · intro h pre k post heq hpre
    have hright := h pre (.press k) post heq
    rw [run_both] at hright
    exact (right_press_iff (tracks_after pre) k).mp hright ((forgotten_iff pre).mp hpre)
  · intro h pre e post heq
    rw [run_both]
    cases e with
    | press k =>
      refine (right_press_iff (tracks_after pre) k).mpr fun hpre => ?_
      exact h pre k post heq ((forgotten_iff pre).mpr hpre)
    | release k => rfl
    | extPress k => rfl
    | extRelease k => rfl
    | pause => rfl

/-! ## The whole session -/

theorem code_injective : Function.Injective code := fun _ _ h =>
  UInt8.toNat_inj.mp (Int.ofNat_inj.mp h)

theorem characters_boot : Session.boot.characters = [] := by decide

/-- The keystrokes come in byte by byte, with reads in between, and never more than
254 characters wait. What was read and what waits are then what the keystrokes
should give, unless the shift bit is wrong where it matters. -/
theorem translated_iff (evs : List Event) (calls : List Call) (hbytes : bytes calls = encode evs)
    (hroom : Steps.Always Session.call (fun s => (waiting s.kbd).length ≤ 254) .boot calls) :
    (Steps.run Session.call .boot calls).characters = (typed .up evs).map code ↔
      ShiftKept evs := by
  rw [queued hroom, hbytes, characters_boot, List.nil_append,
    List.map_inj_right fun _ _ h => code_injective h]
  exact typed_iff evs

def leftShift : Key := ⟨scLshift, by decide, by decide⟩
def rightShift : Key := ⟨scRshift, by decide, by decide⟩
def capsLock : Key := ⟨scCapslock, by decide, by decide⟩
def letterA : Key := ⟨0x1E, by decide, by decide⟩
def arrowLeft : Key := ⟨0x4B, by decide, by decide⟩

/-- Both shift keys, Caps Lock and an arrow key, with a read inside the arrow's code. -/
theorem translated_both_shifts :
    (Steps.run Session.call .boot
        [.isr 0x2A, .isr 0x1E, .isr 0x36, .getchar, .isr 0xAA, .isr 0xE0, .getchar, .isr 0x4B,
          .isr 0xB6, .isr 0x3A, .isr 0x1E]).characters =
        (typed .up [.press leftShift, .press letterA, .press rightShift, .release leftShift,
          .extPress arrowLeft, .release rightShift, .press capsLock, .press letterA]).map code :=
  (translated_iff _ _ (by decide) (by decide)).mpr ((typed_iff _).mp (by decide))

/-- The left shift key is still down when `A` is pressed. -/
theorem other_shift_released :
    bytes [.isr 0x2A, .isr 0x36, .isr 0xB6, .isr 0x1E] =
        encode [.press leftShift, .press rightShift, .release rightShift, .press letterA] ∧
      Steps.Always Session.call (fun s => (waiting s.kbd).length ≤ 254) .boot
        [.isr 0x2A, .isr 0x36, .isr 0xB6, .isr 0x1E] ∧
      (Steps.run Session.call .boot
        [.isr 0x2A, .isr 0x36, .isr 0xB6, .isr 0x1E]).characters = [97] ∧
      (typed .up [.press leftShift, .press rightShift, .release rightShift,
        .press letterA]).map code = [65] := by decide

end NavHAL.Ps2
