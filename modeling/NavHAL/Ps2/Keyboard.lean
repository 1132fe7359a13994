import NavHAL.Lib.Ring
import NavHAL.Lib.Steps

/-!
# The PS/2 keyboard (`keyboard.c`)

`kbdIsr` turns the bytes of scancode set 1 into characters and queues them,
`kbdGetchar` takes them out. What the bytes mean is separate from the queue:

* `Modes.next`, `Modes.emits` : what one byte does to the modes, and the
  character that comes from it;
* `queued` : as long as the queue has room, what was read and what waits are
  the characters of all the bytes, in order.
-/

namespace NavHAL.Ps2

/-! ## The tables -/

/-- Scancode set 1 to ASCII, unshifted. -/
def unshifted : List (UInt8 × Char) :=
  [(0x02, '1'), (0x03, '2'), (0x04, '3'), (0x05, '4'), (0x06, '5'),
   (0x07, '6'), (0x08, '7'), (0x09, '8'), (0x0A, '9'), (0x0B, '0'),
   (0x0C, '-'), (0x0D, '='), (0x0E, '\x08'), (0x0F, '\t'), (0x10, 'q'),
   (0x11, 'w'), (0x12, 'e'), (0x13, 'r'), (0x14, 't'), (0x15, 'y'),
   (0x16, 'u'), (0x17, 'i'), (0x18, 'o'), (0x19, 'p'), (0x1A, '['),
   (0x1B, ']'), (0x1C, '\r'), (0x1E, 'a'), (0x1F, 's'), (0x20, 'd'),
   (0x21, 'f'), (0x22, 'g'), (0x23, 'h'), (0x24, 'j'), (0x25, 'k'),
   (0x26, 'l'), (0x27, ';'), (0x28, '\''), (0x29, '\x60'), (0x2B, '\\'),
   (0x2C, 'z'), (0x2D, 'x'), (0x2E, 'c'), (0x2F, 'v'), (0x30, 'b'),
   (0x31, 'n'), (0x32, 'm'), (0x33, ','), (0x34, '.'), (0x35, '/'),
   (0x39, ' ')]

/-- Shifted variants. -/
def shifted : List (UInt8 × Char) :=
  [(0x02, '!'), (0x03, '@'), (0x04, '#'), (0x05, '$'), (0x06, '%'),
   (0x07, '^'), (0x08, '&'), (0x09, '*'), (0x0A, '('), (0x0B, ')'),
   (0x0C, '_'), (0x0D, '+'), (0x0E, '\x08'), (0x0F, '\t'), (0x10, 'Q'),
   (0x11, 'W'), (0x12, 'E'), (0x13, 'R'), (0x14, 'T'), (0x15, 'Y'),
   (0x16, 'U'), (0x17, 'I'), (0x18, 'O'), (0x19, 'P'), (0x1A, '{'),
   (0x1B, '}'), (0x1C, '\r'), (0x1E, 'A'), (0x1F, 'S'), (0x20, 'D'),
   (0x21, 'F'), (0x22, 'G'), (0x23, 'H'), (0x24, 'J'), (0x25, 'K'),
   (0x26, 'L'), (0x27, ':'), (0x28, '"'), (0x29, '~'), (0x2B, '|'),
   (0x2C, 'Z'), (0x2D, 'X'), (0x2E, 'C'), (0x2F, 'V'), (0x30, 'B'),
   (0x31, 'N'), (0x32, 'M'), (0x33, '<'), (0x34, '>'), (0x35, '?'),
   (0x39, ' ')]

/-- An array with designated initialisers: the other entries are 0. -/
def entry (table : List (UInt8 × Char)) (sc : UInt8) : UInt8 :=
  ((table.lookup sc).map Char.toUInt8).getD 0

def map : UInt8 → UInt8 := entry unshifted

def mapShift : UInt8 → UInt8 := entry shifted

/-- Caps Lock affects letters only. -/
def swapCase (c : UInt8) : UInt8 :=
  if 97 ≤ c ∧ c ≤ 122 then c - 32 else if 65 ≤ c ∧ c ≤ 90 then c + 32 else c

/-- The character of a key press, 0 where there is none. -/
def translate (shift caps : Bool) (sc : UInt8) : UInt8 :=
  let c := if shift then mapShift sc else map sc
  if caps then swapCase c else c

/-! ## The driver -/

def scLshift : UInt8 := 0x2A
def scRshift : UInt8 := 0x36
def scCapslock : UInt8 := 0x3A
def scExtended : UInt8 := 0xE0

/-- `shift` is set while a shift key is taken to be held, `extended` after a
prefix byte. -/
structure Modes where
  shift : Bool
  caps : Bool
  extended : Bool
  deriving DecidableEq, Repr

structure Kbd extends Modes where
  rb : Ring UInt8 256

def push (c : UInt8) (s : Kbd) : Kbd := { s with rb := (s.rb.push c).getD s.rb }

/-- `kbd_isr`, where `sc` is the byte read from the data port. -/
def kbdIsr (sc : UInt8) (s : Kbd) : Kbd :=
  if sc = scExtended then { s with extended := true }
  else if sc &&& 0x80 ≠ 0 then
    let sc := sc &&& 0x7F
    { s with
      shift := if sc = scLshift ∨ sc = scRshift then false else s.shift
      extended := false }
  else if s.extended then { s with extended := false }
  else if sc = scLshift ∨ sc = scRshift then { s with shift := true }
  else if sc = scCapslock then { s with caps := !s.caps }
  else
    let c := translate s.shift s.caps sc
    if c ≠ 0 then push c s else s

/-- The result is −1 where nothing waits. -/
def kbdGetchar (s : Kbd) : Int × Kbd :=
  match s.rb.pop with
  | none => (-1, s)
  | some (c, rb) => (c.toNat, { s with rb := rb })

/-! ## One byte -/

/-- What a key press gives. -/
def types (shift caps : Bool) (sc : UInt8) : List UInt8 :=
  if translate shift caps sc = 0 then [] else [translate shift caps sc]

namespace Modes

def next (m : Modes) (sc : UInt8) : Modes :=
  if sc = scExtended then { m with extended := true }
  else if sc &&& 0x80 ≠ 0 then
    { m with
      shift := if sc &&& 0x7F = scLshift ∨ sc &&& 0x7F = scRshift then false else m.shift
      extended := false }
  else if m.extended then { m with extended := false }
  else if sc = scLshift ∨ sc = scRshift then { m with shift := true }
  else if sc = scCapslock then { m with caps := !m.caps }
  else m

def emits (m : Modes) (sc : UInt8) : List UInt8 :=
  if sc &&& 0x80 ≠ 0 ∨ m.extended then [] else types m.shift m.caps sc

/-- The modes after some bytes. -/
def after (m : Modes) (bytes : List UInt8) : Modes := bytes.foldl next m

/-- The characters of some bytes. -/
def emitted (m : Modes) : List UInt8 → List UInt8
  | [] => []
  | sc :: bytes => m.emits sc ++ (m.next sc).emitted bytes

theorem emitted_append (m : Modes) (xs ys : List UInt8) :
    m.emitted (xs ++ ys) = m.emitted xs ++ (m.after xs).emitted ys := by
  induction xs generalizing m with
  | nil => rfl
  | cons sc xs ih =>
    rw [List.cons_append, emitted, ih, emitted, List.append_assoc]
    rfl

end Modes

/-- No modifier has a character. -/
theorem translate_modifier (shift caps : Bool) {sc : UInt8}
    (h : sc = scLshift ∨ sc = scRshift ∨ sc = scCapslock) : translate shift caps sc = 0 := by
  obtain rfl | rfl | rfl := h <;> cases shift <;> cases caps <;> decide

@[simp] theorem push_toModes (c : UInt8) (s : Kbd) : (push c s).toModes = s.toModes := rfl

@[simp] theorem push_rb (c : UInt8) (s : Kbd) : (push c s).rb = (s.rb.push c).getD s.rb := rfl

theorem kbdIsr_toModes (sc : UInt8) (s : Kbd) : (kbdIsr sc s).toModes = s.toModes.next sc := by
  simp only [kbdIsr, Modes.next, apply_ite Kbd.toModes, push_toModes, ite_self]

/-- A byte queues its character, if it has one. -/
theorem kbdIsr_rb (sc : UInt8) (s : Kbd) :
    (kbdIsr sc s).rb = (s.toModes.emits sc).foldl (fun rb c => (rb.push c).getD rb) s.rb := by
  simp only [kbdIsr, Modes.emits, apply_ite Kbd.rb, push_rb]
  by_cases hpre : sc = scExtended
  · subst hpre
    rfl
  rw [if_neg hpre]
  by_cases hup : sc &&& 0x80 ≠ 0
  · rw [if_pos hup, if_pos (Or.inl hup)]
    rfl
  rw [if_neg hup]
  by_cases hext : s.extended = true
  · rw [if_pos hext, if_pos (Or.inr hext)]
    rfl
  rw [if_neg hext, if_neg (not_or.mpr ⟨hup, hext⟩)]
  by_cases hmod : sc = scLshift ∨ sc = scRshift ∨ sc = scCapslock
  · simp [types, translate_modifier _ _ hmod]
  rw [not_or, not_or] at hmod
  rw [if_neg (not_or.mpr ⟨hmod.1, hmod.2.1⟩), if_neg hmod.2.2, types]
  by_cases hnone : translate s.shift s.caps sc = 0
  · rw [if_neg (not_not_intro hnone), if_pos hnone]
    rfl
  · rw [if_pos hnone, if_neg hnone]
    rfl

/-! ## The queue -/

def waiting (s : Kbd) : List UInt8 := s.rb.contents

theorem waiting_kbdIsr {s : Kbd} (sc : UInt8) (hroom : (waiting s).length ≤ 254) :
    waiting (kbdIsr sc s) = waiting s ++ s.toModes.emits sc := by
  have hholds := s.rb.holds_contents
  have hpush (c : UInt8) : ((s.rb.push c).getD s.rb).contents = s.rb.contents ++ [c] := by
    obtain ⟨rb, hrb, hrest⟩ := hholds.push c (Nat.lt_succ_of_le (Nat.succ_le_succ hroom))
    rw [hrb]
    exact hrest.contents_eq
  rw [waiting, kbdIsr_rb, Modes.emits]
  split
  · exact (List.append_nil _).symm
  · rw [types]
    split
    · exact (List.append_nil _).symm
    · exact hpush _

theorem kbdGetchar_nil {s : Kbd} (h : waiting s = []) : kbdGetchar s = (-1, s) := by
  have hholds := s.rb.holds_contents
  rw [← waiting, h] at hholds
  rw [kbdGetchar, hholds.pop_nil]

theorem kbdGetchar_cons {s : Kbd} {c : UInt8} {cs : List UInt8} (h : waiting s = c :: cs) :
    (kbdGetchar s).1 = c.toNat ∧ (kbdGetchar s).2.toModes = s.toModes ∧
      waiting (kbdGetchar s).2 = cs := by
  have hholds := s.rb.holds_contents
  rw [← waiting, h] at hholds
  obtain ⟨rb, hrb, hrest⟩ := hholds.pop_cons
  rw [kbdGetchar, hrb]
  exact ⟨rfl, rfl, hrest.contents_eq⟩

/-! ## Interrupts and reads -/

inductive Call where
  | isr (sc : UInt8)
  | getchar
  deriving DecidableEq, Repr

/-- The driver, and what `kbd_getchar` has returned so far. -/
structure Session where
  kbd : Kbd
  returned : List Int

def Session.call (s : Session) : Call → Session
  | .isr sc => { s with kbd := kbdIsr sc s.kbd }
  | .getchar =>
    { kbd := (kbdGetchar s.kbd).2
      returned := s.returned ++ [(kbdGetchar s.kbd).1] }

/-- All modes are off and the queue is empty. -/
def Session.boot : Session where
  kbd := ⟨⟨false, false, false⟩, ⟨fun _ => 0, 0, 0, by decide, by decide⟩⟩
  returned := []

/-- The bytes that come in. -/
def bytes : List Call → List UInt8
  | [] => []
  | .isr sc :: calls => sc :: bytes calls
  | .getchar :: calls => bytes calls

def code (c : UInt8) : Int := c.toNat

/-- The characters that were returned, and then those that wait. -/
def Session.characters (s : Session) : List Int :=
  s.returned.filter (· ≠ -1) ++ (waiting s.kbd).map code

theorem characters_isr {s : Session} (sc : UInt8) (hroom : (waiting s.kbd).length ≤ 254) :
    (s.call (.isr sc)).characters = s.characters ++ (s.kbd.toModes.emits sc).map code := by
  rw [Session.characters, Session.characters, Session.call]
  dsimp only
  rw [waiting_kbdIsr sc hroom, List.map_append, List.append_assoc]

/-- A read takes nothing away. -/
theorem characters_getchar (s : Session) : (s.call .getchar).characters = s.characters := by
  rw [Session.characters, Session.characters, Session.call]
  dsimp only
  cases h : waiting s.kbd with
  | nil =>
    rw [kbdGetchar_nil h, h, List.filter_append]
    simp
  | cons c cs =>
    obtain ⟨hret, -, hrest⟩ := kbdGetchar_cons h
    have hne : ((c.toNat : Int) ≠ -1) := by omega
    rw [hret, hrest, List.filter_append]
    simp [hne, code]

theorem modes_getchar (s : Session) : (s.call .getchar).kbd.toModes = s.kbd.toModes := by
  rw [Session.call]
  dsimp only
  cases h : waiting s.kbd with
  | nil => rw [kbdGetchar_nil h]
  | cons c cs => exact (kbdGetchar_cons h).2.1

/-- As long as at most 254 characters wait, none is lost and none changes place. -/
theorem queued {s : Session} {calls : List Call}
    (hroom : Steps.Always Session.call (fun s => (waiting s.kbd).length ≤ 254) s calls) :
    (Steps.run Session.call s calls).characters =
      s.characters ++ (s.kbd.toModes.emitted (bytes calls)).map code := by
  induction calls generalizing s with
  | nil => exact (List.append_nil _).symm
  | cons call calls ih =>
    rw [Steps.run_cons, ih hroom.2]
    cases call with
    | isr sc =>
      have hmodes : (s.call (.isr sc)).kbd.toModes = s.kbd.toModes.next sc :=
        kbdIsr_toModes sc s.kbd
      rw [characters_isr sc hroom.1, hmodes, bytes, Modes.emitted, List.map_append,
        List.append_assoc]
    | getchar => rw [characters_getchar, modes_getchar, bytes]

end NavHAL.Ps2
