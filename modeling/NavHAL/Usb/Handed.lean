import NavHAL.Usb.WriteFraming

/-!
# What a write hands to the endpoint

`hal_usb_cdc_write` against a device that answers anything at all: the words that go to the
FIFO behind each transfer that is armed are, as far as the call comes, those of the data
(`hands_write`).
-/

namespace NavHAL.Usb.BulkIn

open Access (Delivers delivers_access delivers_done)
open Boot (halUsbCdcPacketSize)
open Bytes

/-! ## The record of the accesses -/

/-- The transfers that were armed, the last one first, with the words that went after them. -/
structure Log where
  tsiz : UInt32
  transfers : List (Nat × List UInt32)

namespace Log

def empty : Log := ⟨0, []⟩

def record (l : Log) : CdcAccess → Log
  | .writeTsiz tsiz => { l with tsiz := tsiz }
  | .enable => { l with transfers := (xfrsiz l.tsiz, []) :: l.transfers }
  | .pushFifo word =>
    match l.transfers with
    | [] => l
    | (size, words) :: earlier => { l with transfers := (size, words ++ [word]) :: earlier }
  | .pollBusy _ | .readConfigured | .disableGlobal | .enableGlobal _ | .setBusy => l

theorem record_push {l : Log} {size : Nat} {words : List UInt32}
    {earlier : List (Nat × List UInt32)} (h : l.transfers = (size, words) :: earlier)
    (word : UInt32) :
    (l.record (.pushFifo word)).transfers = (size, words ++ [word]) :: earlier := by
  simp only [record, h]

/-- Of each transfer the bytes that it has. -/
def handed (l : Log) : List UInt8 :=
  l.transfers.reverse.flatMap fun t => (unpack t.2).take t.1

end Log

/-- Any answer. -/
def logged (i : CdcAccess) (l : Log) (_ : Answer i) (l' : Log) : Prop := l' = l.record i

/-- The log is written by the accesses only. -/
def untouched (_ _ : Log) : Prop := False

/-- All runs of a part of the driver, whatever is answered. -/
abbrev Hands {α : Type} (prog : CdcProgram α) (Q : α → Log → Prop) (l : Log) : Prop :=
  Delivers untouched logged prog Q l

section

variable {α : Type} {Q : α → Log → Prop} {l : Log}

theorem answer_nonempty (i : CdcAccess) : Nonempty (Answer i) := by
  cases i <;> first | exact ⟨true⟩ | exact ⟨()⟩

theorem hands_act {i : CdcAccess} {next : Answer i → CdcProgram α}
    (hnext : ∀ b, Hands (next b) Q (l.record i)) : Hands (.access i next) Q l := by
  have hstable : Access.Stable untouched (· = l) := fun _ _ _ h => h.elim
  refine delivers_access hstable (fun s _ => ?_) (fun s b s' hs hlog => ?_) rfl
  · obtain ⟨b⟩ := answer_nonempty i
    exact ⟨s, .refl, b, _, rfl⟩
  · rw [hlog, hs]
    exact hnext b

theorem hands_done {a : α} (h : Q a l) : Hands (.done a) Q l :=
  delivers_done (fun _ _ _ hstep => hstep.elim) h

/-! ## Waiting -/

theorem hands_waitIdle (spins : Nat) : Hands (waitIdle spins) (fun _ l' => l' = l) l := by
  induction spins with
  | zero => exact hands_done rfl
  | succ spins ih =>
    refine hands_act fun busy => ?_
    cases busy with
    | false => exact hands_done rfl
    | true =>
      refine hands_act fun configured => ?_
      cases configured with
      | false => exact hands_done rfl
      | true =>
        show Hands (if spins = 0 then return .errTimeout else waitIdle spins) _ l
        split
        · exact hands_done rfl
        · exact ih

/-! ## Arming and filling -/

variable {mem : Nat → UInt8} {src : Nat} {len : UInt16}

/-- With so many words behind the transfer, the loop brings those that are left. -/
theorem hands_fifoLoop {size : Nat} {earlier : List (Nat × List UInt32)} {all : List UInt32}
    (hlen : len.toNat ≤ txChunk) (rounds : Nat) (i : UInt16)
    (hrounds : len.toNat - i.toNat ≤ rounds) {words : List UInt32}
    (hl : l.transfers = (size, words) :: earlier)
    (hall : words ++ pack (bytesAt mem (src + i.toNat) (len.toNat - i.toNat)) = all) :
    Hands (fifoLoop mem src len rounds i)
      (fun _ l' => l'.transfers = (size, all) :: earlier) l := by
  have hlast : ∀ {l : Log} {i : UInt16} {words : List UInt32}, len.toNat - i.toNat = 0 →
      l.transfers = (size, words) :: earlier →
      words ++ pack (bytesAt mem (src + i.toNat) (len.toNat - i.toNat)) = all →
      Hands (.done ()) (fun _ l' => l'.transfers = (size, all) :: earlier) l := by
    intro l i words hzero hl hall
    rw [hzero, bytesAt, pack, List.append_nil] at hall
    exact hands_done (hall ▸ hl)
  induction rounds generalizing l i words with
  | zero => exact hlast (by omega) hl hall
  | succ rounds ih =>
    rw [fifoLoop]
    split
    · next hi =>
      have hlt : i.toNat < len.toNat := UInt16.lt_iff_toNat_lt.mp hi
      have hnext : (i + 4).toNat = i.toNat + 4 := by
        unfold txChunk at hlen
        rw [UInt16.toNat_add]
        exact Nat.mod_eq_of_lt (show i.toNat + 4 < 65536 by omega)
      rw [pack_bytesAt src hi] at hall
      refine hands_act fun _ => ih (i + 4) (by omega) (Log.record_push hl _) ?_
      rw [hnext, List.append_assoc]
      exact hall
    · next hi =>
      have hge : len.toNat ≤ i.toNat := Nat.not_lt.mp fun hlt => hi (UInt16.lt_iff_toNat_lt.mpr hlt)
      exact hlast (by omega) hl hall

theorem hands_armAndFill (hlen : len.toNat ≤ txChunk) :
    Hands (armAndFill mem src len)
      (fun _ l' => l'.handed = l.handed ++ bytesAt mem src len.toNat) l := by
  have hsmall : len.toNat ≤ 256 := hlen
  have hsize : xfrsiz (usbEptsizPktcnt (packetCount len) ||| usbEptsizXfrsiz len.toUInt32) =
      len.toNat := by
    rw [xfrsiz_or, UInt16.toNat_toUInt32]
    omega
  have hfill (l' : Log) (h : l'.transfers = (len.toNat, []) :: l.transfers) :
      Hands (fill mem src len) (fun _ l'' => l''.transfers =
        (len.toNat, pack (bytesAt mem src len.toNat)) :: l.transfers) l' := by
    unfold fill
    split
    · exact hands_fifoLoop hlen len.toNat 0 (Nat.sub_le _ _) h rfl
    · next hzero =>
      rw [Decidable.not_not.mp hzero] at h ⊢
      exact hands_done h
  refine hands_act fun state => hands_act fun _ => hands_act fun _ => hands_act fun _ => ?_
  change Hands (fill mem src len >>= fun _ => enableGlobal state) _ _
  have harmed := congrArg (fun n => (n, ([] : List UInt32)) :: l.transfers) hsize
  refine Delivers.bind (hfill _ harmed) fun _ l' hl' => ?_
  refine hands_act fun _ => hands_done ?_
  have hwhole := take_unpack_pack (bytesAt mem src len.toNat)
  rw [bytesAt_length] at hwhole
  show l'.handed = _
  rw [Log.handed, hl', List.reverse_cons, List.flatMap_append, List.flatMap_singleton, hwhole]
  rfl

/-- As far as the call comes: all of the bytes, or those in front of some place. -/
def HandsOver (before bytes : List UInt8) (status : HalStatus) (l : Log) : Prop :=
  l.handed <+: before ++ bytes ∧ (status = .ok → l.handed = before ++ bytes)

theorem handsOver_append (before first rest : List UInt8) :
    HandsOver (before ++ first) rest = HandsOver before (first ++ rest) := by
  funext status l
  rw [HandsOver, HandsOver, List.append_assoc]

theorem HandsOver.stopped {before bytes : List UInt8} {status : HalStatus}
    (h : HandsOver before bytes status l) (hne : status ≠ .ok) (rest : List UInt8) :
    HandsOver before (bytes ++ rest) status l := by
  refine ⟨h.1.trans ?_, fun hok => absurd hok hne⟩
  rw [← List.append_assoc]
  exact List.prefix_append _ _

theorem hands_epInTransfer (hlen : len.toNat ≤ txChunk) :
    Hands (epInTransfer mem src len) (HandsOver l.handed (bytesAt mem src len.toNat)) l := by
  refine Delivers.bind (hands_waitIdle _) fun status l' hl' => ?_
  rw [hl']
  split
  · refine Delivers.bind (hands_armAndFill hlen) fun _ l'' hl'' => ?_
    exact hands_done ⟨hl'' ▸ List.prefix_refl _, fun _ => hl''⟩
  · next herr =>
    exact hands_done ⟨List.prefix_append _ _, fun hok => absurd hok herr⟩

/-! ## The write -/

theorem hands_sendAll {stop : Nat} {lens : List Nat} (hsmall : ∀ len ∈ lens, len ≤ txChunk)
    (hstop : lens.sum ≤ stop) :
    Hands (sendAll mem stop lens) (HandsOver l.handed (bytesAt mem (stop - lens.sum) lens.sum))
      l := by
  induction lens generalizing l with
  | nil => exact hands_done ⟨List.prefix_append _ _, fun _ => (List.append_nil _).symm⟩
  | cons len lens ih =>
    obtain ⟨hlen, hrest⟩ := List.forall_mem_cons.mp hsmall
    have hnat : (UInt16.ofNat len).toNat = len := by
      unfold txChunk at hlen
      exact Nat.mod_eq_of_lt (by omega)
    rw [List.sum_cons] at hstop
    have hsrc : stop - (len + lens.sum) + len = stop - lens.sum := by omega
    have hsplit : bytesAt mem (stop - (len + lens.sum)) (len + lens.sum) =
        bytesAt mem (stop - (len + lens.sum)) len ++ bytesAt mem (stop - lens.sum) lens.sum := by
      rw [bytesAt_add, hsrc]
    rw [sendAll, List.sum_cons, hsplit]
    refine Delivers.bind (hands_epInTransfer (by rw [hnat]; exact hlen)) fun status l' hl' => ?_
    rw [hnat] at hl'
    split
    · next hok =>
      have hnext := ih (l := l') hrest (by omega)
      rwa [hl'.2 hok, handsOver_append] at hnext
    · next herr => exact hands_done (hl'.stopped herr _)

/-- The empty packet at the end brings no bytes. -/
theorem hands_write (data : Nat) (length : UInt16) :
    Hands (halUsbCdcWrite mem data length)
      (HandsOver l.handed (bytesAt mem data length.toNat)) l := by
  rw [halUsbCdcWrite_eq]
  split
  · exact hands_done ⟨List.prefix_append _ _, HalStatus.noConfusion⟩
  refine hands_act fun configured => ?_
  cases configured with
  | false => exact hands_done ⟨List.prefix_append _ _, HalStatus.noConfusion⟩
  | true =>
    have hsum := writeTransfers_sum length
    have hsmall : ∀ len ∈ writeTransfers length, len ≤ txChunk := fun _ => writeTransfers_small
    have hall : Hands (sendAll mem (data + length.toNat) (writeTransfers length))
        (HandsOver l.handed _) l :=
      hands_sendAll hsmall (by rw [hsum]; exact Nat.le_add_left _ _)
    rwa [hsum, Nat.add_sub_cancel] at hall

end

end NavHAL.Usb.BulkIn
