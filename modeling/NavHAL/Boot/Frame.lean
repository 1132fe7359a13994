import NavHAL.Lib.Bytes
import Mathlib.Data.List.Induction

/-!
# Frames (`read_frame` of `updater.c`)

A transport is what its `get` returns, call after call: a byte, or `none` for
a timeout.  At the end of that list `get` is still waiting, and so is the
frame reader.

* `readFrame_found_iff` : behind line noise a frame is found exactly when the
  noise ends in an even number of first sync bytes.
-/

namespace NavHAL.Boot

open Bytes

def recoverySync0 : UInt8 := 0x4E  -- 'N'
def recoverySync1 : UInt8 := 0x48  -- 'H'
def recoveryMaxPayload : Nat := 260

/-- What successive calls of `get` return. -/
abbrev Input := List (Option UInt8)

/-- One bit of `crc32_mpeg2`. -/
def crcBit (crc : UInt32) : UInt32 :=
  if crc &&& 0x80000000 ≠ 0 then (crc <<< 1) ^^^ 0x04C11DB7 else crc <<< 1

/-- `crc32_mpeg2` -/
def crc32Mpeg2 (crc : UInt32) (data : List UInt8) : UInt32 :=
  data.foldl (fun (crc : UInt32) (b : UInt8) =>
    Nat.repeat crcBit 8 (crc ^^^ (b.toUInt32 <<< 24))) crc

theorem crc32Mpeg2_append (crc : UInt32) (xs ys : List UInt8) :
    crc32Mpeg2 crc (xs ++ ys) = crc32Mpeg2 (crc32Mpeg2 crc xs) ys := List.foldl_append

structure Frame where
  cmd : UInt8
  payload : List UInt8
  deriving DecidableEq, Repr

/-- The bytes the checksum covers. -/
def Frame.covered (f : Frame) : List UInt8 :=
  f.cmd :: (le16 (UInt16.ofNat f.payload.length) ++ f.payload)

/-- A well-formed frame on the wire. -/
def Frame.encode (f : Frame) : List UInt8 :=
  recoverySync0 :: recoverySync1 :: (f.covered ++ le32 (crc32Mpeg2 0xFFFFFFFF f.covered))

/-! ## The reader -/

/-- The resync loop, at its first `get` or, behind a first sync byte, at its
`second`: `false` on a timeout, `none` while waiting. -/
def readSync (second : Bool) : Input → Option (Bool × Input)
  | [] => none
  | none :: s => some (false, s)
  | some b :: s =>
    if second then
      if b = recoverySync1 then some (true, s) else readSync false s
    else readSync (b == recoverySync0) s

/-- `n` calls of `get`, given up at the first timeout. -/
def readBytes : Nat → Input → Option (Option (List UInt8) × Input)
  | 0, s => some (some [], s)
  | _ + 1, [] => none
  | _ + 1, none :: s => some (none, s)
  | n + 1, some b :: s =>
    match readBytes n s with
    | some (some bytes, s) => some (some (b :: bytes), s)
    | other => other

/-- The payload and the checksum, behind the three head bytes. -/
def readBody (cmd lo hi : UInt8) (s : Input) : Option (Option Frame × Input) :=
  let n := (ofLe16 lo hi).toNat
  if n > recoveryMaxPayload then some (none, s)
  else match readBytes n s with
    | some (some payload, s) =>
      match readBytes 4 s with
      | some (some [c0, c1, c2, c3], s) =>
        if crc32Mpeg2 (crc32Mpeg2 0xFFFFFFFF [cmd, lo, hi]) payload = ofLe32 c0 c1 c2 c3 then
          some (some ⟨cmd, payload⟩, s)
        else some (none, s)
      | some (_, s) => some (none, s)
      | none => none
    | some (none, s) => some (none, s)
    | none => none

/-- `read_frame`: the frame, `none` where it returns false, and the rest of the input. -/
def readFrame (s : Input) : Option (Option Frame × Input) :=
  match readSync false s with
  | some (true, s) =>
    match readBytes 3 s with
    | some (some [cmd, lo, hi], s) => readBody cmd lo hi s
    | some (_, s) => some (none, s)
    | none => none
  | some (false, s) => some (none, s)
  | none => none

/-! ## What the reader consumes -/

theorem readBytes_map (bytes : List UInt8) (s : Input) :
    readBytes bytes.length (bytes.map some ++ s) = some (some bytes, s) := by
  induction bytes with
  | nil => rfl
  | cons b bytes ih =>
    rw [List.length_cons, List.map_cons, List.cons_append, readBytes, ih]

theorem readBytes_eq {n : Nat} {s s' : Input} {bytes : List UInt8}
    (h : readBytes n s = some (some bytes, s')) : s = bytes.map some ++ s' ∧ bytes.length = n := by
  induction n generalizing s bytes with
  | zero =>
    simp only [readBytes, Option.some.injEq, Prod.mk.injEq] at h
    obtain ⟨rfl, rfl⟩ := h
    exact ⟨rfl, rfl⟩
  | succ n ih =>
    match s with
    | [] => cases h
    | none :: s => cases h
    | some b :: s =>
      rw [readBytes] at h
      split at h
      · next bytes' s'' hrest =>
        cases h
        obtain ⟨rfl, hlen⟩ := ih hrest
        exact ⟨rfl, by rw [List.length_cons, hlen]⟩
      · next hrest => exact absurd h (hrest bytes s')

theorem readSync_length {s s' : Input} {second found : Bool}
    (h : readSync second s = some (found, s')) :
    s'.length + (if found ∧ second = false then 2 else 1) ≤ s.length := by
  induction s generalizing second with
  | nil => cases h
  | cons b s ih =>
    rw [List.length_cons]
    match b with
    | none =>
      cases h
      simp
    | some b =>
      rw [readSync] at h
      cases second with
      | true =>
        rw [if_pos rfl] at h
        split at h
        · cases h
          simp
        · have := ih h
          simp only [and_true, Bool.true_eq_false, and_false, if_false] at this ⊢
          split at this <;> omega
      | false =>
        rw [if_neg (by decide)] at h
        have := ih h
        cases hb : b == recoverySync0 with
        | true =>
          simp only [hb, and_true, Bool.true_eq_false, and_false, if_false] at this ⊢
          split <;> omega
        | false =>
          simp only [hb, and_true] at this ⊢
          omega

theorem readBytes_length {n : Nat} {s s' : Input} {got : Option (List UInt8)}
    (h : readBytes n s = some (got, s')) : s'.length ≤ s.length := by
  fun_induction readBytes n s generalizing got s' with
  | case1 s =>
    cases h
    exact Nat.le_refl _
  | case2 => cases h
  | case3 n s =>
    cases h
    exact Nat.le_succ _
  | case4 n b s bytes s'' hrest ih =>
    cases h
    exact Nat.le_succ_of_le (ih hrest)
  | case5 n b s hrest ih => exact Nat.le_succ_of_le (ih h)

theorem readBody_spec {cmd lo hi : UInt8} {s s' : Input} {got : Option Frame}
    (h : readBody cmd lo hi s = some (got, s')) :
    s'.length ≤ s.length ∧ ∀ f, got = some f → f.payload.length ≤ recoveryMaxPayload := by
  unfold readBody at h
  dsimp only at h
  split at h
  · cases h
    exact ⟨Nat.le_refl _, by simp⟩
  · next hn =>
    split at h
    · next payload s₁ hpayload =>
      have hs₁ := readBytes_length hpayload
      obtain ⟨-, hlen⟩ := readBytes_eq hpayload
      split at h
      · next s₂ hcrc =>
        have hs₂ := readBytes_length hcrc
        split at h
        · cases h
          refine ⟨by omega, ?_⟩
          rintro f ⟨⟩
          dsimp only
          omega
        · cases h
          exact ⟨by omega, by simp⟩
      · next hcrc =>
        have hs₂ := readBytes_length hcrc
        cases h
        exact ⟨by omega, by simp⟩
      · cases h
    · next s₁ hpayload =>
      have hs₁ := readBytes_length hpayload
      cases h
      exact ⟨hs₁, by simp⟩
    · cases h

/-- Whatever the reader reports, it has consumed something, and a frame it
reports has a payload within the bound. -/
theorem readFrame_spec {s s' : Input} {got : Option Frame} (h : readFrame s = some (got, s')) :
    s'.length < s.length ∧ ∀ f, got = some f → f.payload.length ≤ recoveryMaxPayload := by
  unfold readFrame at h
  split at h
  · next s₁ hsync =>
    have hs₁ := readSync_length hsync
    rw [if_pos ⟨rfl, rfl⟩] at hs₁
    split at h
    · next cmd lo hi s₂ hhead =>
      have hs₂ := readBytes_length hhead
      obtain ⟨hs₃, hpayload⟩ := readBody_spec h
      exact ⟨by omega, hpayload⟩
    · next hhead =>
      have hs₂ := readBytes_length hhead
      cases h
      exact ⟨by omega, by simp⟩
    · cases h
  · next s₁ hsync =>
    have hs₁ := readSync_length hsync
    rw [if_neg (by simp)] at hs₁
    cases h
    exact ⟨by omega, by simp⟩
  · cases h

/-- A frame takes its whole length from the input. -/
theorem readFrame_length {s s' : Input} {f : Frame} (h : readFrame s = some (some f, s')) :
    s'.length + (9 + f.payload.length) ≤ s.length := by
  unfold readFrame at h
  split at h
  · next s₁ hsync =>
    have hs₁ := readSync_length hsync
    split at h
    · next cmd lo hi s₂ hhead =>
      obtain ⟨rfl, -⟩ := readBytes_eq hhead
      unfold readBody at h
      dsimp only at h
      split at h
      · cases h
      · split at h
        · next payload s₃ hpayload =>
          obtain ⟨rfl, -⟩ := readBytes_eq hpayload
          split at h
          · next c0 c1 c2 c3 s₄ hcrc =>
            obtain ⟨rfl, -⟩ := readBytes_eq hcrc
            split at h
            · cases h
              simp only [List.length_append, List.length_map, List.length_cons,
                List.length_nil, and_self, if_true] at hs₁
              dsimp only
              omega
            · cases h
          · cases h
          · cases h
        · cases h
        · cases h
    · cases h
    · cases h
  · cases h
  · cases h

/-! ## Resynchronising -/

/-- How many first sync bytes a stream ends in. -/
def trailingSyncs (g : List UInt8) : Nat := (g.reverse.takeWhile (· == recoverySync0)).length

theorem trailingSyncs_concat (g : List UInt8) (b : UInt8) :
    trailingSyncs (g ++ [b]) = if b = recoverySync0 then trailingSyncs g + 1 else 0 := by
  unfold trailingSyncs
  rw [List.reverse_append, List.reverse_singleton, List.singleton_append, List.takeWhile_cons]
  by_cases hb : b = recoverySync0
  · simp [hb]
  · simp [hb]

/-- No sync pair begins in the first `g.length` bytes of the stream. -/
def NoPairBefore (g stream : List UInt8) : Prop :=
  ∀ i, i < g.length → ¬ (stream[i]? = some recoverySync0 ∧ stream[i + 1]? = some recoverySync1)

/-- No sync pair at all. -/
def NoPair (g : List UInt8) : Prop :=
  ∀ i, ¬ (g[i]? = some recoverySync0 ∧ g[i + 1]? = some recoverySync1)

theorem getElem?_append_of_some {g g' : List UInt8} {i : Nat} {b : UInt8} (h : g[i]? = some b) :
    (g ++ g')[i]? = some b := by
  obtain ⟨hlt, -⟩ := List.getElem?_eq_some_iff.mp h
  rw [List.getElem?_append_left hlt, h]

theorem NoPairBefore.noPair {g f : List UInt8} (h : NoPairBefore g (g ++ f)) : NoPair g := by
  rintro i ⟨hfirst, hsecond⟩
  obtain ⟨hlt, -⟩ := List.getElem?_eq_some_iff.mp hfirst
  exact h i hlt ⟨getElem?_append_of_some hfirst, getElem?_append_of_some hsecond⟩

theorem NoPair.init {g : List UInt8} {b : UInt8} (h : NoPair (g ++ [b])) : NoPair g := by
  rintro i ⟨hfirst, hsecond⟩
  exact h i ⟨getElem?_append_of_some hfirst, getElem?_append_of_some hsecond⟩

theorem getLast?_of_trailing {g : List UInt8} (h : trailingSyncs g % 2 = 1) :
    ∃ init, g = init ++ [recoverySync0] := by
  rcases List.eq_nil_or_concat g with rfl | ⟨init, b, rfl⟩
  · cases h
  · rw [List.concat_eq_append, trailingSyncs_concat] at h
    split at h
    · next hb => exact ⟨init, by rw [List.concat_eq_append, hb]⟩
    · cases h

/-- **Behind noise** the loop is at its second `get` when the noise ends in an
odd number of first sync bytes. -/
theorem readSync_noise (g : List UInt8) (h : NoPair g) :
    ∀ s : Input, readSync false (g.map some ++ s) =
      readSync (decide (trailingSyncs g % 2 = 1)) s := by
  induction g using List.reverseRecOn with
  | nil =>
    intro s
    rfl
  | append_singleton g b ih =>
    intro s
    rw [List.map_append, List.append_assoc, ih h.init]
    simp only [List.map_cons, List.map_nil, List.singleton_append, readSync]
    rw [trailingSyncs_concat]
    by_cases hodd : trailingSyncs g % 2 = 1
    · obtain ⟨init, hlast⟩ := getLast?_of_trailing hodd
      have hb : b ≠ recoverySync1 := by
        rintro rfl
        apply h init.length
        rw [hlast]
        constructor
        · simp
        · simp
      rw [if_pos (by simpa using hodd), if_neg hb]
      congr 1
      by_cases hsync : b = recoverySync0
      · simp only [if_pos hsync]
        symm
        simpa using by omega
      · simp [hsync]
    · rw [if_neg (by simpa using hodd)]
      congr 1
      by_cases hsync : b = recoverySync0
      · simp only [hsync, beq_self_eq_true, if_true]
        symm
        simpa using by omega
      · simp [hsync]

/-! ## Finding a frame -/

theorem readBody_encode (f : Frame) (hlen : f.payload.length ≤ recoveryMaxPayload) (s : Input) :
    readBytes 3 ((f.covered ++ le32 (crc32Mpeg2 0xFFFFFFFF f.covered)).map some ++ s) =
        some (some [f.cmd, (UInt16.ofNat f.payload.length).toUInt8,
          (UInt16.ofNat f.payload.length >>> 8).toUInt8],
          (f.payload ++ le32 (crc32Mpeg2 0xFFFFFFFF f.covered)).map some ++ s) ∧
      readBody f.cmd (UInt16.ofNat f.payload.length).toUInt8
        (UInt16.ofNat f.payload.length >>> 8).toUInt8
        ((f.payload ++ le32 (crc32Mpeg2 0xFFFFFFFF f.covered)).map some ++ s) =
          some (some f, s) := by
  refine ⟨rfl, ?_⟩
  have hn : (UInt16.ofNat f.payload.length).toNat = f.payload.length := by
    rw [UInt16.toNat_ofNat']
    exact Nat.mod_eq_of_lt (Nat.lt_of_le_of_lt hlen (by decide))
  have hcrc : crc32Mpeg2 (crc32Mpeg2 0xFFFFFFFF [f.cmd, (UInt16.ofNat f.payload.length).toUInt8,
      (UInt16.ofNat f.payload.length >>> 8).toUInt8]) f.payload =
      crc32Mpeg2 0xFFFFFFFF f.covered := (crc32Mpeg2_append _ _ _).symm
  have htail := readBytes_map (le32 (crc32Mpeg2 0xFFFFFFFF f.covered)) s
  rw [readBody, ofLe16_bytes]
  rw [hn, if_neg (by omega), List.map_append, List.append_assoc, readBytes_map]
  dsimp only
  rw [show 4 = (le32 (crc32Mpeg2 0xFFFFFFFF f.covered)).length from rfl, htail, le32]
  dsimp only
  rw [hcrc, ofLe32_bytes, if_pos rfl]

/-- **Line noise.**  When the first sync pair of the stream is the frame's own,
the frame is found, and nothing but it is consumed, exactly when the noise ends in
an even number of first sync bytes. -/
theorem readFrame_found_iff (g : List UInt8) (f : Frame) (s : Input)
    (hlen : f.payload.length ≤ recoveryMaxPayload) (hfirst : NoPairBefore g (g ++ f.encode)) :
    readFrame ((g ++ f.encode).map some ++ s) = some (some f, s) ↔ trailingSyncs g % 2 = 0 := by
  obtain ⟨hhead, hbody⟩ := readBody_encode f hlen s
  have hsync := readSync_noise g hfirst.noPair (f.encode.map some ++ s)
  rw [← List.append_assoc, ← List.map_append] at hsync
  constructor
  · intro hfound
    by_contra heven
    have hodd : trailingSyncs g % 2 = 1 := by omega
    -- out of step, the reader goes on behind the frame's own pair
    have hlate : readFrame ((f.covered ++ le32 (crc32Mpeg2 0xFFFFFFFF f.covered)).map some ++ s) =
        some (some f, s) := by
      rw [← hfound]
      unfold readFrame
      rw [hsync, decide_eq_true hodd]
      rfl
    have hshort := readFrame_length hlate
    simp only [List.length_append, List.length_map, Frame.covered, List.length_cons, le16,
      le32_length, List.length_nil] at hshort
    omega
  · intro heven
    have hstep : readSync false ((g ++ f.encode).map some ++ s) = some (true,
        (f.covered ++ le32 (crc32Mpeg2 0xFFFFFFFF f.covered)).map some ++ s) := by
      rw [hsync, decide_eq_false (by omega)]
      rfl
    rw [readFrame, hstep]
    dsimp only
    rw [hhead]
    exact hbody

/-- Two stray sync bytes before a frame cost nothing. -/
theorem frame_after_two_syncs_found :
    readFrame (([recoverySync0, recoverySync0] ++ (Frame.mk 0x57 [1, 2]).encode).map some) =
      some (some ⟨0x57, [1, 2]⟩, []) := by
  have hfound := readFrame_found_iff [recoverySync0, recoverySync0] ⟨0x57, [1, 2]⟩ []
    (by decide) (by
      intro i hi
      match i, hi with
      | 0, _ => decide
      | 1, _ => decide)
  rw [List.append_nil] at hfound
  exact hfound.mpr rfl

/-- One stray sync byte before a frame costs the frame. -/
theorem frame_after_one_sync_missed :
    readFrame (([recoverySync0] ++ (Frame.mk 0x49 []).encode).map some) ≠
      some (some ⟨0x49, []⟩, []) := by
  decide +kernel

end NavHAL.Boot
