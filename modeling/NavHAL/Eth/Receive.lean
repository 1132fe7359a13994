import NavHAL.Eth.Rings

/-!
# What `hal_eth_receive` makes of a status word

The MAC leaves any status in the descriptor that it hands back: an error, a segment of a
frame that lies in several descriptors, a length above that of the buffer.
-/

namespace NavHAL.Eth

/-! ## `_copy` -/

/-- The bytes of a word at a word-aligned end. -/
def copyWord (src : Nat → BitVec 8) (i : Nat) : List (Nat × BitVec 8) :=
  [0, 1, 2, 3].map fun k => (4 * i + k, src (4 * i + k))

def copyBytes (src : Nat → BitVec 8) (i n : Nat) : List (Nat × BitVec 8) :=
  (List.range' i (n - i)).map fun k => (k, src k)

/-- The offsets that are read and the bytes that are stored there, in order. -/
def copy (aligned : Bool) (src : Nat → BitVec 8) (n : Nat) : List (Nat × BitVec 8) :=
  if aligned then
    let words := n >>> 2
    (List.range words).flatMap (copyWord src) ++ copyBytes src (words <<< 2) n
  else copyBytes src 0 n

theorem copyWords_eq (src : Nat → BitVec 8) (words : Nat) :
    (List.range words).flatMap (copyWord src) = copyBytes src 0 (4 * words) := by
  induction words with
  | zero => rfl
  | succ words ih =>
    have hlast : copyWord src words =
        (List.range' (4 * words) 4).map fun k => (k, src k) := rfl
    rw [List.range_succ, List.flatMap_append, ih, List.flatMap_singleton, hlast]
    unfold copyBytes
    rw [← List.map_append, Nat.sub_zero, Nat.sub_zero, Nat.mul_succ, ← List.range'_append_1,
      Nat.zero_add]

/-- Aligned or not, the first `n` bytes are copied in order. -/
theorem copy_eq (aligned : Bool) (src : Nat → BitVec 8) (n : Nat) :
    copy aligned src n = (List.range n).map fun k => (k, src k) := by
  have hbytes : copyBytes src 0 n = (List.range n).map fun k => (k, src k) := by
    unfold copyBytes
    rw [Nat.sub_zero, List.range_eq_range']
  unfold copy
  split
  · have hshift : (n >>> 2) <<< 2 = 4 * (n >>> 2) := by
      rw [Nat.shiftLeft_eq, Nat.mul_comm]
    have hle : 4 * (n >>> 2) ≤ n := by
      rw [Nat.shiftRight_eq_div_pow]
      omega
    dsimp only
    rw [copyWords_eq, hshift, ← hbytes]
    unfold copyBytes
    rw [← List.map_append, Nat.sub_zero, Nat.sub_zero]
    congr 1
    calc List.range' 0 (4 * (n >>> 2)) ++ List.range' (4 * (n >>> 2)) (n - 4 * (n >>> 2))
        = List.range' 0 (4 * (n >>> 2) + (n - 4 * (n >>> 2))) := by
          rw [← List.range'_append_1, Nat.zero_add]
      _ = List.range' 0 n := by rw [Nat.add_sub_cancel' hle]
  · exact hbytes

/-! ## One call -/

/-- The accesses of the copy that a call makes. -/
def receiveCopy (given : Bool) (maxLen : BitVec 16) (aligned : Bool) (st : EthState) :
    List (Nat × BitVec 8) :=
  copy aligned (st.rxBuf st.rxIdx) (halEthReceive given maxLen st).2.1.length

/-- The descriptor holds all of a frame. -/
def WholeFrame (des0 : BitVec 32) : Prop :=
  des0 &&& ethDmaRdes0Fs ≠ 0 ∧ des0 &&& ethDmaRdes0Ls ≠ 0

/-- An answer that there is no frame is true, what is copied lies in the buffer, and is
a frame. -/
structure WholeFrames (given : Bool) (maxLen : BitVec 16) (aligned : Bool) (st : EthState) :
    Prop where
  drained : (halEthReceive given maxLen st).1 = .ok → (halEthReceive given maxLen st).2.1 = [] →
    (st.rxDesc st.rxIdx).owned = true
  inside : ∀ access ∈ receiveCopy given maxLen aligned st, access.1 < ethBufSize
  whole : (halEthReceive given maxLen st).2.1 ≠ [] → WholeFrame (st.rxDesc st.rxIdx).des0

/-- The call finds a descriptor that the DMA has handed back. -/
def Waiting (given : Bool) (st : EthState) : Prop :=
  given = true ∧ st.clockOn = true ∧ st.started = true ∧ (st.rxDesc st.rxIdx).owned = false

/-- The length without the FCS. -/
def payloadLen (des0 : BitVec 32) : Nat :=
  if 4 ≤ frameLen des0 then frameLen des0 - 4 else frameLen des0

/-- A status that the call handles as it should: no error, some payload, and if that fits
the caller's buffer, one descriptor holds it. -/
structure Handled (maxLen : BitVec 16) (des0 : BitVec 32) : Prop where
  noError : des0 &&& ethDmaRdes0Es = 0
  some : payloadLen des0 ≠ 0
  single : payloadLen des0 ≤ maxLen.toNat → payloadLen des0 ≤ ethBufSize ∧ WholeFrame des0

section

variable {given : Bool} {maxLen : BitVec 16} {st : EthState}

theorem readBuf_length (buf : Nat → BitVec 8) (n : Nat) : (readBuf buf n).length = n := by
  simp [readBuf]

theorem receive_idle (h : ¬ Waiting given st) :
    (halEthReceive given maxLen st).2.1 = [] ∧
      ((halEthReceive given maxLen st).1 = .ok → (st.rxDesc st.rxIdx).owned = true) := by
  unfold halEthReceive
  split
  · exact ⟨rfl, HalStatus.noConfusion⟩
  · split
    · exact ⟨rfl, HalStatus.noConfusion⟩
    · split
      · exact ⟨rfl, HalStatus.noConfusion⟩
      · rename_i hgiven hclock hstarted
        dsimp only
        split
        · rename_i howned
          exact ⟨rfl, fun _ => howned⟩
        · rename_i howned
          refine absurd ⟨?_, ?_, ?_, ?_⟩ h
          · simpa using hgiven
          · simpa using hclock
          · simpa using hstarted
          · simpa using howned

theorem receive_waiting (h : Waiting given st) :
    ((halEthReceive given maxLen st).1, (halEthReceive given maxLen st).2.1) =
      if (st.rxDesc st.rxIdx).des0 &&& ethDmaRdes0Es = 0 then
        if maxLen.toNat < payloadLen (st.rxDesc st.rxIdx).des0 then (.errNoMem, [])
        else (.ok, readBuf (st.rxBuf st.rxIdx) (payloadLen (st.rxDesc st.rxIdx).des0))
      else (.ok, []) := by
  obtain ⟨hgiven, hclock, hstarted, howned⟩ := h
  unfold halEthReceive payloadLen
  rw [if_neg (by simp [hgiven]), if_neg (by simp [hclock]), if_neg (by simp [hstarted])]
  dsimp only
  rw [if_neg (by simp [howned])]
  generalize (if 4 ≤ frameLen (st.rxDesc st.rxIdx).des0 then frameLen (st.rxDesc st.rxIdx).des0 - 4
    else frameLen (st.rxDesc st.rxIdx).des0) = n
  by_cases hes : (st.rxDesc st.rxIdx).des0 &&& ethDmaRdes0Es = 0
  · rw [if_pos hes, if_pos hes]
    split
    · rfl
    · rfl
  · rw [if_neg hes, if_neg hes]

/-- What is handed over has the length in the status. -/
theorem receive_length (h : Waiting given st)
    (hes : (st.rxDesc st.rxIdx).des0 &&& ethDmaRdes0Es = 0)
    (hroom : payloadLen (st.rxDesc st.rxIdx).des0 ≤ maxLen.toNat) :
    (halEthReceive given maxLen st).1 = .ok ∧
      (halEthReceive given maxLen st).2.1.length = payloadLen (st.rxDesc st.rxIdx).des0 := by
  have hanswer := @receive_waiting given maxLen st h
  rw [if_pos hes, if_neg (Nat.not_lt.mpr hroom)] at hanswer
  obtain ⟨hstatus, hbytes⟩ := Prod.mk.inj hanswer
  rw [hbytes, readBuf_length]
  exact ⟨hstatus, rfl⟩

theorem inside_iff {aligned : Bool} :
    (∀ access ∈ receiveCopy given maxLen aligned st, access.1 < ethBufSize) ↔
      (halEthReceive given maxLen st).2.1.length ≤ ethBufSize := by
  unfold receiveCopy
  rw [copy_eq]
  generalize (halEthReceive given maxLen st).2.1.length = n
  simp only [List.mem_map, List.mem_range]
  constructor
  · intro h
    by_contra hlong
    exact Nat.lt_irrefl ethBufSize (h _ ⟨ethBufSize, Nat.not_le.mp hlong, rfl⟩)
  · rintro h access ⟨k, hk, rfl⟩
    exact Nat.lt_of_lt_of_le hk h

/-- Where nothing is copied, only the answer matters. -/
theorem whole_nil_iff {aligned : Bool} (hbytes : (halEthReceive given maxLen st).2.1 = []) :
    WholeFrames given maxLen aligned st ↔
      ((halEthReceive given maxLen st).1 = .ok → (st.rxDesc st.rxIdx).owned = true) := by
  constructor
  · exact fun h hok => h.drained hok hbytes
  · intro hdrained
    refine ⟨fun hok _ => hdrained hok, inside_iff.mpr ?_, fun hsome => absurd hbytes hsome⟩
    rw [hbytes]
    exact Nat.zero_le _

theorem whole_some_iff {aligned : Bool} (hwait : Waiting given st)
    (hes : (st.rxDesc st.rxIdx).des0 &&& ethDmaRdes0Es = 0)
    (hroom : payloadLen (st.rxDesc st.rxIdx).des0 ≤ maxLen.toNat) :
    WholeFrames given maxLen aligned st ↔
      payloadLen (st.rxDesc st.rxIdx).des0 ≠ 0 ∧
        payloadLen (st.rxDesc st.rxIdx).des0 ≤ ethBufSize ∧
          WholeFrame (st.rxDesc st.rxIdx).des0 := by
  have howned : ¬ (st.rxDesc st.rxIdx).owned = true := by simp [hwait.2.2.2]
  obtain ⟨hstatus, hlen⟩ := receive_length hwait hes hroom
  have hempty : (halEthReceive given maxLen st).2.1 = [] ↔
      payloadLen (st.rxDesc st.rxIdx).des0 = 0 := by
    rw [← hlen, List.length_eq_zero_iff]
  have hinside := @inside_iff given maxLen st aligned
  rw [hlen] at hinside
  constructor
  · rintro ⟨hdrained, hin, hwhole⟩
    have hsome : payloadLen (st.rxDesc st.rxIdx).des0 ≠ 0 := by
      intro hzero
      exact howned (hdrained hstatus (hempty.mpr hzero))
    exact ⟨hsome, hinside.mp hin, hwhole (mt hempty.mp hsome)⟩
  · rintro ⟨hsome, hle, hframe⟩
    exact ⟨fun _ hnil => absurd (hempty.mp hnil) hsome, hinside.mpr hle, fun _ => hframe⟩

/-- Frames are handed over whole just where the status is one of those handled. -/
theorem receive_whole_iff (given : Bool) (maxLen : BitVec 16) (aligned : Bool) (st : EthState) :
    WholeFrames given maxLen aligned st ↔
      (Waiting given st → Handled maxLen (st.rxDesc st.rxIdx).des0) := by
  by_cases hwait : Waiting given st
  · rw [imp_iff_right hwait]
    have howned : ¬ (st.rxDesc st.rxIdx).owned = true := by simp [hwait.2.2.2]
    have hanswer := @receive_waiting given maxLen st hwait
    by_cases hes : (st.rxDesc st.rxIdx).des0 &&& ethDmaRdes0Es = 0
    · rw [if_pos hes] at hanswer
      by_cases hroom : maxLen.toNat < payloadLen (st.rxDesc st.rxIdx).des0
      · rw [if_pos hroom] at hanswer
        obtain ⟨hstatus, hbytes⟩ := Prod.mk.inj hanswer
        refine iff_of_true ((whole_nil_iff hbytes).mpr fun hok => ?_) ⟨hes, ?_, fun hfits => ?_⟩
        · rw [hstatus] at hok
          exact HalStatus.noConfusion hok
        · omega
        · exact absurd hroom (Nat.not_lt.mpr hfits)
      · have hfits := Nat.not_lt.mp hroom
        rw [whole_some_iff hwait hes hfits]
        constructor
        · rintro ⟨hsome, hsingle⟩
          exact ⟨hes, hsome, fun _ => hsingle⟩
        · rintro ⟨-, hsome, hsingle⟩
          exact ⟨hsome, hsingle hfits⟩
    · -- a frame with an error is answered as if there were none
      rw [if_neg hes] at hanswer
      obtain ⟨hstatus, hbytes⟩ := Prod.mk.inj hanswer
      rw [whole_nil_iff hbytes]
      exact iff_of_false (fun h => howned (h hstatus)) fun h => hes h.noError
  · obtain ⟨hbytes, hdrained⟩ := @receive_idle given maxLen st hwait
    exact iff_of_true ((whole_nil_iff hbytes).mpr hdrained) fun h => absurd h hwait

end

/-- The MAC runs, and its descriptor holds this status. -/
def startedWith (des0 : BitVec 32) : EthState where
  rxDesc := fun _ => { des0 := des0 }
  initialized := true
  started := true
  clockOn := true

/-- An error, a frame of 1600 bytes, and the first segment of one. -/
theorem bad_statuses_delivered :
    ¬ WholeFrames true 2000 true (startedWith (ethDmaRdes0Es ||| 100#32 <<< 16)) ∧
      ¬ WholeFrames true 2000 true
        (startedWith (ethDmaRdes0Fs ||| ethDmaRdes0Ls ||| 1600#32 <<< 16)) ∧
      ¬ WholeFrames true 2000 true (startedWith (ethDmaRdes0Fs ||| 1540#32 <<< 16)) := by
  refine ⟨?_, ?_, ?_⟩
  · intro h
    have howned : ((startedWith (ethDmaRdes0Es ||| 100#32 <<< 16)).rxDesc 0).owned = true :=
      h.drained (by decide) (by decide)
    exact absurd howned (by decide)
  · intro h
    have hwait : Waiting true (startedWith (ethDmaRdes0Fs ||| ethDmaRdes0Ls ||| 1600#32 <<< 16)) :=
      ⟨rfl, rfl, rfl, by decide⟩
    have hlen := (@receive_length true 2000 _ hwait (by decide) (by decide)).2
    have hin := inside_iff.mp h.inside
    rw [hlen] at hin
    exact absurd hin (by decide)
  · intro h
    have hwait : Waiting true (startedWith (ethDmaRdes0Fs ||| 1540#32 <<< 16)) :=
      ⟨rfl, rfl, rfl, by decide⟩
    have hlen := (@receive_length true 2000 _ hwait (by decide) (by decide)).2
    have hwhole := h.whole fun hnil => by
      rw [hnil] at hlen
      exact absurd hlen (by decide)
    exact hwhole.2 (by decide)

end NavHAL.Eth
