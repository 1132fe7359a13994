import NavHAL.Usb.BulkIn

/-!
# The packets of a write

What `hal_usb_cdc_write` puts on the bus, whenever the host collects it.

* `burst_append`, `burst_whole` : transfers of whole packets one after the other, and the
  short packet at the end;
* `Flight` is what holds of the endpoint while a transfer is on its way, through the control
  requests of an orderly host too, and `drains` is how it ends;
* `Delivers` of each part of the driver, up to `write_frames`; `stale_words_sent` is the write
  after a host that took the device away from a transfer.
-/

namespace NavHAL.Usb.BulkIn

open Access (Delivers Stable delivers_access delivers_done)
open Boot (halUsbCdcPacketSize)
open Bytes
open Relation (ReflTransGen)

/-! ## The bytes of a buffer -/

section

variable {mem : Nat → UInt8}

def bytesAt (mem : Nat → UInt8) (src : Nat) : Nat → List UInt8
  | 0 => []
  | n + 1 => mem src :: bytesAt mem (src + 1) n

@[simp] theorem bytesAt_length (src n : Nat) : (bytesAt mem src n).length = n := by
  induction n generalizing src with
  | zero => rfl
  | succ n ih => rw [bytesAt, List.length_cons, ih]

theorem bytesAt_add (src m n : Nat) :
    bytesAt mem src (m + n) = bytesAt mem src m ++ bytesAt mem (src + m) n := by
  induction m generalizing src with
  | zero => rw [Nat.zero_add, Nat.add_zero, bytesAt, List.nil_append]
  | succ m ih =>
    rw [Nat.succ_add, bytesAt, bytesAt, ih, List.cons_append, Nat.add_assoc, Nat.add_comm 1 m]

/-- The word of the inner loop is the next of those that hold the buffer. -/
theorem pack_bytesAt (src : Nat) {len i : UInt16} (h : i < len) :
    pack (bytesAt mem (src + i.toNat) (len.toNat - i.toNat)) =
      wordLoop mem src len i 0 4 0 ::
        pack (bytesAt mem (src + (i.toNat + 4)) (len.toNat - (i.toNat + 4))) := by
  have hlt : i.toNat < len.toNat := UInt16.lt_iff_toNat_lt.mp h
  obtain ⟨n, hn⟩ : ∃ n, len.toNat = i.toNat + n := ⟨len.toNat - i.toNat, by omega⟩
  have hleft : len.toNat - i.toNat = n := by omega
  have hrest : len.toNat - (i.toNat + 4) = n - 4 := by omega
  have hsize : n = 1 ∨ n = 2 ∨ n = 3 ∨ ∃ m, n = m + 4 := by
    rcases Nat.lt_or_ge n 4 with hshort | hlong
    · omega
    · exact Or.inr (Or.inr (Or.inr ⟨n - 4, by omega⟩))
  rw [hleft, hrest]
  rcases hsize with rfl | rfl | rfl | ⟨m, rfl⟩ <;>
    simp [bytesAt, pack, wordLoop, ofLe32, hn, Nat.add_assoc]

end

/-! ## Packets -/

section

variable {bytes rest : List UInt8} {m n : Nat}

/-- Whole packets go by themselves. -/
theorem burst_append (h : bytes.length = m * halUsbCdcPacketSize) :
    burst (m + n) (bytes ++ rest) = burst m bytes ++ burst n rest := by
  induction m generalizing bytes with
  | zero =>
    rw [Nat.zero_mul, List.length_eq_zero_iff] at h
    rw [h, Nat.zero_add, List.nil_append, burst, List.nil_append]
  | succ m ih =>
    rw [Nat.succ_mul] at h
    have hlen : (bytes.drop halUsbCdcPacketSize).length = m * halUsbCdcPacketSize := by
      rw [List.length_drop, h, Nat.add_sub_cancel]
    have hle : halUsbCdcPacketSize ≤ bytes.length := by omega
    rw [Nat.succ_add, burst, burst, List.take_append_of_le_length hle,
      List.drop_append_of_le_length hle, ih hlen, List.cons_append]

theorem burst_whole (h : bytes.length = m * halUsbCdcPacketSize) :
    ∀ pkt ∈ burst m bytes, pkt.length = halUsbCdcPacketSize := by
  induction m generalizing bytes with
  | zero => exact fun pkt hpkt => absurd hpkt List.not_mem_nil
  | succ m ih =>
    rw [Nat.succ_mul] at h
    have hlen : (bytes.drop halUsbCdcPacketSize).length = m * halUsbCdcPacketSize := by
      rw [List.length_drop, h, Nat.add_sub_cancel]
    have hfirst : (bytes.take halUsbCdcPacketSize).length = halUsbCdcPacketSize := by
      rw [List.length_take]
      omega
    exact List.forall_mem_cons.mpr ⟨hfirst, ih hlen⟩

theorem burst_flatten (h : bytes.length ≤ n * halUsbCdcPacketSize) :
    (burst n bytes).flatten = bytes := by
  induction n generalizing bytes with
  | zero =>
    rw [Nat.zero_mul, Nat.le_zero, List.length_eq_zero_iff] at h
    rw [h]
    rfl
  | succ n ih =>
    have hlen : (bytes.drop halUsbCdcPacketSize).length ≤ n * halUsbCdcPacketSize := by
      rw [List.length_drop]
      rw [Nat.succ_mul] at h
      omega
    rw [burst, List.flatten_cons, ih hlen, List.take_append_drop]

theorem burst_one (h : bytes.length ≤ halUsbCdcPacketSize) : burst 1 bytes = [bytes] := by
  rw [burst, burst, List.take_of_length_le h]

/-! ## Framing -/

/-- The packets of a write; the last one is a short one. -/
def writePackets (bytes : List UInt8) : List (List UInt8) :=
  burst ((bytes.length + 63) / 64) bytes ++
    (if bytes.length ≠ 0 ∧ bytes.length % halUsbCdcPacketSize = 0 then [[]] else [])

theorem writePackets_eq (h : bytes ≠ []) :
    writePackets bytes =
      burst (bytes.length / halUsbCdcPacketSize)
          (bytes.take (bytes.length / halUsbCdcPacketSize * halUsbCdcPacketSize)) ++
        [bytes.drop (bytes.length / halUsbCdcPacketSize * halUsbCdcPacketSize)] := by
  have hne : bytes.length ≠ 0 := fun hzero => h (List.length_eq_zero_iff.mp hzero)
  generalize hm : bytes.length / halUsbCdcPacketSize = m
  have hbounds : m * 64 ≤ bytes.length ∧ bytes.length < m * 64 + 64 := by
    have hdiv : bytes.length / 64 = m := hm
    omega
  have htake : (bytes.take (m * halUsbCdcPacketSize)).length = m * halUsbCdcPacketSize := by
    rw [List.length_take]
    exact Nat.min_eq_left hbounds.1
  have hdrop : (bytes.drop (m * halUsbCdcPacketSize)).length = bytes.length - m * 64 :=
    List.length_drop
  have hsplit : burst (m + 1)
        (bytes.take (m * halUsbCdcPacketSize) ++ bytes.drop (m * halUsbCdcPacketSize)) =
      burst m (bytes.take (m * halUsbCdcPacketSize)) ++
        burst 1 (bytes.drop (m * halUsbCdcPacketSize)) := burst_append htake
  unfold writePackets
  by_cases hwhole : bytes.length % halUsbCdcPacketSize = 0
  · have hlen : bytes.length = m * 64 := by
      have hmod : bytes.length % 64 = 0 := hwhole
      omega
    have hnil : bytes.drop (m * halUsbCdcPacketSize) = [] :=
      List.length_eq_zero_iff.mp (by rw [hdrop]; omega)
    have hcount : (bytes.length + 63) / 64 = m := by omega
    have hall : bytes.take (m * halUsbCdcPacketSize) = bytes :=
      List.take_of_length_le (Nat.le_of_eq hlen)
    rw [if_pos ⟨hne, hwhole⟩, hnil, hcount, hall]
  · have hcount : (bytes.length + 63) / 64 = m + 1 := by
      have hmod : ¬ bytes.length % 64 = 0 := hwhole
      omega
    have hshort : (bytes.drop (m * halUsbCdcPacketSize)).length ≤ halUsbCdcPacketSize := by
      rw [hdrop]
      change _ ≤ 64
      omega
    have hlast := burst_one hshort
    rw [if_neg fun hand => hwhole hand.2, hcount, List.append_nil, ← hlast, ← hsplit,
      List.take_append_drop]

theorem writePackets_flatten (bytes : List UInt8) : (writePackets bytes).flatten = bytes := by
  have hzlp : (if bytes.length ≠ 0 ∧ bytes.length % halUsbCdcPacketSize = 0 then [[]]
      else ([] : List (List UInt8))).flatten = [] := by
    split <;> rfl
  have henough : bytes.length ≤ (bytes.length + 63) / 64 * halUsbCdcPacketSize := by
    change bytes.length ≤ (bytes.length + 63) / 64 * 64
    omega
  rw [writePackets, List.flatten_append, hzlp, List.append_nil, burst_flatten henough]

/-- The host's rule: the last packet, and no other, is a short one. -/
structure Framing (bytes : List UInt8) (pkts : List (List UInt8)) : Prop where
  flatten : pkts.flatten = bytes
  none : bytes = [] → pkts = []
  last : bytes ≠ [] → ∃ full last, pkts = full ++ [last] ∧
    (∀ pkt ∈ full, pkt.length = halUsbCdcPacketSize) ∧ last.length < halUsbCdcPacketSize ∧
    (halUsbCdcPacketSize ∣ bytes.length → last = [])

theorem framing_writePackets (bytes : List UInt8) : Framing bytes (writePackets bytes) := by
  refine ⟨writePackets_flatten bytes, fun hnil => ?_, fun hne => ?_⟩
  · rw [hnil]
    rfl
  · have hdiv : bytes.length / 64 * 64 ≤ bytes.length := Nat.div_mul_le_self _ _
    have htake : (bytes.take (bytes.length / halUsbCdcPacketSize * halUsbCdcPacketSize)).length =
        bytes.length / halUsbCdcPacketSize * halUsbCdcPacketSize := by
      rw [List.length_take]
      exact Nat.min_eq_left hdiv
    refine ⟨_, _, writePackets_eq hne, burst_whole htake, ?_, fun hwhole => ?_⟩
    · rw [List.length_drop]
      change bytes.length - bytes.length / 64 * 64 < 64
      omega
    · rw [Nat.div_mul_cancel hwhole]
      exact List.drop_length

end

/-! ## The size register -/

theorem tsiz_toNat (count size : UInt32) :
    (usbEptsizPktcnt count ||| usbEptsizXfrsiz size).toNat =
      524288 * (count.toNat % 1024) + size.toNat % 524288 := by
  have hcount : (usbEptsizPktcnt count).toNat = 524288 * (count.toNat % 1024) := by
    have hmask : (count &&& 0x3FF).toNat = count.toNat % 1024 :=
      Nat.and_two_pow_sub_one_eq_mod count.toNat 10
    rw [usbEptsizPktcnt, UInt32.toNat_shiftLeft, hmask]
    change (count.toNat % 1024) <<< 19 % 4294967296 = _
    rw [Nat.shiftLeft_eq, Nat.mod_eq_of_lt (by omega), Nat.mul_comm]
  have hsize : (usbEptsizXfrsiz size).toNat = size.toNat % 524288 :=
    Nat.and_two_pow_sub_one_eq_mod size.toNat 19
  rw [UInt32.toNat_or, hcount, hsize]
  exact (Nat.two_pow_add_eq_or_of_lt (i := 19) (Nat.mod_lt _ (by decide)) _).symm

theorem xfrsiz_or (count size : UInt32) :
    xfrsiz (usbEptsizPktcnt count ||| usbEptsizXfrsiz size) = size.toNat % 524288 := by
  have hmask : ∀ v : UInt32, xfrsiz v = v.toNat % 524288 :=
    fun v => Nat.and_two_pow_sub_one_eq_mod v.toNat 19
  rw [hmask, tsiz_toNat]
  omega

theorem pktcnt_or (count size : UInt32) :
    pktcnt (usbEptsizPktcnt count ||| usbEptsizXfrsiz size) = count.toNat % 1024 := by
  have hmask : ∀ v : UInt32, pktcnt v = v.toNat / 524288 % 1024 := by
    intro v
    rw [pktcnt, UInt32.toNat_and, UInt32.toNat_shiftRight]
    change v.toNat >>> 19 &&& 1023 = _
    rw [Nat.shiftRight_eq_div_pow]
    exact Nat.and_two_pow_sub_one_eq_mod _ 10
  rw [hmask, tsiz_toNat]
  omega

/-- The packets of a transfer. -/
def packetsOf (n : Nat) : Nat := if n = 0 then 1 else (n + 63) / 64

theorem packetCount_toNat (len : UInt16) : (packetCount len).toNat = packetsOf len.toNat := by
  have hlen := len.toNat_lt
  unfold packetCount packetsOf
  by_cases hzero : len = 0
  · rw [if_neg fun hne => hne hzero, hzero]
    rfl
  · have hne : ¬ len.toNat = 0 := fun h => hzero (UInt16.toNat_inj.mp h)
    have hadd : (len.toUInt32 + UInt32.ofNat halUsbCdcPacketSize).toNat = len.toNat + 64 := by
      rw [UInt32.toNat_add, UInt16.toNat_toUInt32]
      change (len.toNat + 64) % 4294967296 = _
      omega
    have hone : (1 : UInt32) ≤ len.toUInt32 + UInt32.ofNat halUsbCdcPacketSize := by
      rw [UInt32.le_iff_toNat_le, hadd]
      change 1 ≤ _
      omega
    rw [if_pos hzero, if_neg hne, UInt32.toNat_div, UInt32.toNat_sub_of_le _ _ hone, hadd]
    rfl

/-! ## The transfers of a write -/

section

variable {mem : Nat → UInt8}

/-- The packets of transfers whose bytes end in front of `stop`. -/
def packetsAt (mem : Nat → UInt8) (stop : Nat) : List Nat → List (List UInt8)
  | [] => []
  | len :: lens =>
    burst (packetsOf len) (bytesAt mem (stop - (len :: lens).sum) len) ++ packetsAt mem stop lens

/-- A transfer and the rest of the write. -/
theorem burst_chunk {src left : Nat} (h : left ≠ 0) :
    burst (packetsOf (chunk left)) (bytesAt mem src (chunk left)) ++
        burst ((left - chunk left + 63) / 64)
          (bytesAt mem (src + chunk left) (left - chunk left)) =
      burst ((left + 63) / 64) (bytesAt mem src left) := by
  unfold packetsOf chunk
  by_cases hmore : left > txChunk
  · have hlarge : left > 256 := hmore
    obtain ⟨rest, rfl⟩ : ∃ rest, left = 256 + rest := ⟨left - 256, by omega⟩
    have hwhole : (bytesAt mem src 256).length = 4 * halUsbCdcPacketSize := bytesAt_length _ _
    have hcount : (256 + rest + 63) / 64 = 4 + (rest + 63) / 64 := by omega
    have hleft : 256 + rest - txChunk = rest := Nat.add_sub_cancel_left 256 rest
    rw [if_pos hmore, hleft, hcount, bytesAt_add, burst_append hwhole]
    rfl
  · rw [if_neg hmore, if_neg h, Nat.sub_self]
    exact List.append_nil _

/-- Whatever comes after them is empty. -/
theorem packetsAt_chunks (src left : Nat) {tail : List Nat} (htail : tail.sum = 0) :
    packetsAt mem (src + left) (chunks left ++ tail) =
      burst ((left + 63) / 64) (bytesAt mem src left) ++ packetsAt mem (src + left) tail := by
  induction left using Nat.strongRecOn generalizing src with
  | ind left ih =>
    by_cases hne : left = 0
    · rw [hne, chunks_zero]
      rfl
    · have hpos := chunk_pos hne
      have hle : chunk left ≤ left := chunk_le
      have hstop : src + left = src + chunk left + (left - chunk left) := by omega
      have hsrc : src + left - (chunk left :: (chunks (left - chunk left) ++ tail)).sum = src := by
        rw [List.sum_cons, List.sum_append, chunks_sum, htail]
        omega
      have hrest := ih (left - chunk left) (by omega) (src + chunk left)
      rw [← hstop] at hrest
      rw [chunks_cons hne, List.cons_append, packetsAt, hsrc, hrest, ← List.append_assoc,
        burst_chunk hne]

theorem packetsAt_writeTransfers (data : Nat) (length : UInt16) :
    packetsAt mem (data + length.toNat) (writeTransfers length) =
      writePackets (bytesAt mem data length.toNat) := by
  have hzero : length = 0 ↔ length.toNat = 0 := UInt16.toNat_inj.symm
  unfold writeTransfers writePackets
  rw [bytesAt_length]
  by_cases hzlp : length ≠ 0 ∧ length.toNat % halUsbCdcPacketSize = 0
  · have hcond : length.toNat ≠ 0 ∧ length.toNat % halUsbCdcPacketSize = 0 :=
      ⟨fun hz => hzlp.1 (hzero.mpr hz), hzlp.2⟩
    rw [if_pos hzlp, if_pos hcond, packetsAt_chunks data length.toNat rfl]
    rfl
  · have hcond : ¬ (length.toNat ≠ 0 ∧ length.toNat % halUsbCdcPacketSize = 0) :=
      fun hc => hzlp ⟨fun hz => hc.1 (hzero.mp hz), hc.2⟩
    rw [if_neg hzlp, if_neg hcond, packetsAt_chunks data length.toNat rfl]
    rfl

end

/-! ## What an event leaves of the endpoint -/

section

variable {pkt : SetupPacket} {st st' : UsbState}

theorem handleGetDescriptor_epInBusy (wValue wLength : UInt16) :
    (handleGetDescriptor wValue wLength st).epInBusy = st.epInBusy := by
  unfold handleGetDescriptor
  dsimp only
  repeat' split
  all_goals rfl

theorem handleClassRequest_epInBusy (h : handleClassRequest pkt st = some st') :
    st'.epInBusy = st.epInBusy := by
  unfold handleClassRequest at h
  repeat' split at h
  all_goals cases h
  all_goals rfl

theorem epSetHalt_epInBusy {addr : UInt8} (halt : Bool)
    (hother : ¬ (addr &&& 0x80 ≠ 0 ∧ addr &&& 0x0F = epData)) :
    (epSetHalt addr halt st).epInBusy = st.epInBusy := by
  unfold epSetHalt
  dsimp only
  by_cases hnum : addr &&& 0x0F = 0 ∨ addr &&& 0x0F > epNotif
  · rw [if_pos hnum]
  rw [if_neg hnum]
  by_cases hin : addr &&& 0x80 ≠ 0
  · rw [if_pos hin, if_neg fun hdata => hother ⟨hin, hdata⟩]
  · rw [if_neg hin]
    split <;> rfl

theorem handleStandardRequest_epInBusy (hstd : pkt.type = 0x00) (hkeeps : ¬ Disturbs (.setup pkt))
    (h : handleStandardRequest pkt st = some st') : st'.epInBusy = st.epInBusy := by
  cases handleStandardRequest_cases h with
  | descriptor _ => exact handleGetDescriptor_epInBusy _ _
  | address _ _ | read _ _ _ => rfl
  | configured hreq _ | deconfigured hreq _ => exact absurd (Or.inl ⟨hstd, hreq⟩) hkeeps
  | feature hreq =>
    by_cases hep : pkt.recipient = 0x02 ∧ pkt.wValue = 0x00
    · rw [if_pos hep]
      exact epSetHalt_epInBusy _ fun hdata => hkeeps (Or.inr ⟨hstd, Or.inr ⟨hreq, hep, hdata⟩⟩)
    · rw [if_neg hep]
      rfl
  | interface hreq => exact absurd (Or.inr ⟨hstd, Or.inl hreq⟩) hkeeps

theorem handleSetup_epInBusy (hkeeps : ¬ Disturbs (.setup pkt)) :
    (handleSetup pkt st).epInBusy = st.epInBusy := by
  by_cases hstd : pkt.type = 0x00
  · rw [handleSetup_standard pkt st hstd]
    cases hanswer : handleStandardRequest pkt st with
    | none => rfl
    | some st' =>
      have hkept := handleStandardRequest_epInBusy hstd hkeeps hanswer
      exact hkept
  · unfold handleSetup
    by_cases hclass : pkt.type = 0x01
    · rw [if_pos hclass]
      cases hanswer : handleClassRequest pkt st with
      | none => rfl
      | some st' =>
        have hkept := handleClassRequest_epInBusy hanswer
        exact hkept
    · rw [if_neg hclass, if_neg hstd]
      rfl

/-- An event that leaves the endpoint alone leaves its flag. -/
theorem control_keeps {event : UsbEvent} (hevent : IsControl event) (hkeeps : ¬ Disturbs event) :
    (usbStep st event).epInBusy = st.epInBusy := by
  cases event with
  | busReset => exact absurd trivial hkeeps
  | setup pkt => exact handleSetup_epInBusy hkeeps
  | controlData _ => rfl
  | controlOutDone =>
    unfold usbStep onControlOutDone
    dsimp only
    split <;> rfl
  | bulkData _ | bulkOutDone | suspend | resume | read _ | inDone _ => exact hevent.elim

/-- No event sets the flag. -/
theorem disturbed_busy {event : UsbEvent} (hdist : Disturbs event)
    (hbusy : (usbStep st event).epInBusy = true) : st.epInBusy = true := by
  cases event with
  | busReset => exact Bool.noConfusion hbusy
  | setup pkt =>
    by_cases hconf : pkt.SetsConfiguration
    · change (handleSetup pkt st).epInBusy = true at hbusy
      rw [handleSetup_standard pkt st hconf.1, handleStandardRequest_configuration pkt st hconf.2]
        at hbusy
      by_cases hvalue : pkt.wValue ≠ 0
      · rw [if_pos hvalue] at hbusy
        exact Bool.noConfusion hbusy
      · rw [if_neg hvalue] at hbusy
        exact hbusy
    · exact (handleSetup_flags pkt st hconf).kept.busy .data hbusy
  | controlData _ | controlOutDone | bulkData _ | bulkOutDone | suspend | resume | read _
  | inDone _ => exact hdist.elim

theorem unrelated_keeps {event : UsbEvent} (hevent : Unrelated event) (usb : UsbState) :
    (usbStep usb event).usbConfigured = usb.usbConfigured ∧
      (usbStep usb event).inHalted = usb.inHalted ∧
      (usbStep usb event).epInBusy = usb.epInBusy := by
  cases event with
  | busReset | setup _ | controlData _ | controlOutDone => exact hevent.elim
  | suspend | resume => exact ⟨rfl, rfl, rfl⟩
  | bulkData pkt =>
    unfold usbStep onBulkData
    dsimp only
    split <;> exact ⟨rfl, rfl, rfl⟩
  | bulkOutDone =>
    unfold usbStep onBulkOutDone
    dsimp only
    repeat' split
    all_goals exact ⟨rfl, rfl, rfl⟩
  | inDone num =>
    unfold usbStep onInDone
    dsimp only
    rw [if_neg hevent]
    split <;> exact ⟨rfl, rfl, rfl⟩
  | read maxlen =>
    unfold usbStep halUsbCdcRead
    dsimp only
    split <;> exact ⟨rfl, rfl, rfl⟩

end

/-! ## A transfer on its way -/

/-- Of the armed transfer `todo` is not in the FIFO yet; when it is complete the host will
have collected `total`.  `sizes` are the transfers armed so far. -/
structure Flight (host : Host) (sizes : List Nat) (todo : List UInt32)
    (total : List (List UInt8)) (s : BusState) : Prop where
  tame : host ≠ .any
  ready : host = .prompt → Ready s
  busy : s.usb.epInBusy = (s.ep.enabled || s.ep.xfrc)
  once : s.ep.xfrc = true → s.ep.enabled = false
  counting : s.ep.enabled = decide (0 < s.ep.count)
  enough : s.ep.size ≤ s.ep.count * halUsbCdcPacketSize
  small : s.ep.size ≤ txChunk
  rest : ∃ rest, s.ep.fifo ++ todo = pack rest ∧ rest.length = s.ep.size ∧
    s.ep.packets ++ burst s.ep.count rest = total
  transfers : s.ep.transfers = sizes
  overlaps : s.ep.overlaps = 0
  lost : s.ep.lost = 0

section

variable {host : Host} {sizes : List Nat} {todo : List UInt32} {total : List (List UInt8)}
  {s s' : BusState}

theorem words_length (rest : List UInt8) : words rest.length = (pack rest).length :=
  (pack_length rest).symm

/-- The packet that is next, and what it leaves. -/
theorem collect_split {fifo todo : List UInt32} {rest : List UInt8} {n : Nat}
    (h : fifo ++ todo = pack rest) (hn : n = min halUsbCdcPacketSize rest.length)
    (hfull : words n ≤ fifo.length) :
    (unpack (fifo.take (words n))).take n = rest.take halUsbCdcPacketSize ∧
      fifo.drop (words n) ++ todo = pack (rest.drop halUsbCdcPacketSize) := by
  have hwords : n ≤ 4 * words n := by
    unfold words
    omega
  constructor
  · have hsplit : fifo.take (words n) ++ (fifo.drop (words n) ++ todo) = pack rest := by
      rw [← List.append_assoc, List.take_append_drop, h]
    have hlen : (fifo.take (words n)).length = words n := by
      rw [List.length_take, Nat.min_eq_left hfull]
    rw [take_unpack hsplit (by rw [hlen]; exact hwords) (by omega), hn]
    exact List.take_eq_take_min.symm
  · rw [← List.drop_append_of_le_length hfull, h, drop_pack]
    rcases Nat.lt_or_ge rest.length halUsbCdcPacketSize with hshort | hlong
    · rw [List.drop_of_length_le (by omega), List.drop_of_length_le (by omega)]
    · have hwhole : 4 * words n = halUsbCdcPacketSize := by
        rw [hn, Nat.min_eq_left hlong]
        rfl
      rw [hwhole]

theorem Flight.collect (h : Flight host sizes todo total s) (hsend : s.ep.Sendable) :
    Flight host sizes todo total { s with ep := s.ep.collect } := by
  obtain ⟨rest, hfifo, hlen, htotal⟩ := h.rest
  have hcount : 0 < s.ep.count := by
    have hon := h.counting
    rw [hsend.1] at hon
    exact of_decide_eq_true hon.symm
  have hnext : s.ep.next = min halUsbCdcPacketSize rest.length := by rw [hlen]; rfl
  obtain ⟨hpacket, hleft⟩ := collect_split hfifo hnext hsend.2
  obtain ⟨count, hsucc⟩ : ∃ count, s.ep.count = count + 1 := ⟨s.ep.count - 1, by omega⟩
  have henough := h.enough
  have hsize : s.ep.size - s.ep.next = s.ep.size - halUsbCdcPacketSize := by
    rw [Endpoint.next]
    omega
  refine ⟨h.tame, h.ready, ?_, ?_, ?_, ?_, ?_, ⟨rest.drop halUsbCdcPacketSize, hleft, ?_, ?_⟩,
    h.transfers, h.overlaps, h.lost⟩
  · have hbusy := h.busy
    rw [hsend.1, Bool.true_or] at hbusy
    simp only [Endpoint.collect, hbusy]
    rcases Nat.lt_or_ge 1 s.ep.count with hmore | hlast
    · simp [hmore]
    · simp [hlast]
  · intro hdone
    have hidle : s.ep.xfrc = false := by
      refine Bool.eq_false_iff.mpr fun hset => ?_
      exact Bool.noConfusion (hsend.1.symm.trans (h.once hset))
    simp only [Endpoint.collect, hidle, Bool.false_or, decide_eq_true_eq] at hdone
    exact decide_eq_false (Nat.not_lt.mpr hdone)
  · have hone : (1 < s.ep.count) = (0 < s.ep.count - 1) := propext (by omega)
    simp only [Endpoint.collect, hone]
  · change s.ep.size - s.ep.next ≤ (s.ep.count - 1) * halUsbCdcPacketSize
    rw [hsucc, Nat.succ_mul] at henough
    rw [hsize, hsucc, Nat.add_sub_cancel]
    omega
  · exact Nat.le_trans (Nat.sub_le _ _) h.small
  · change (rest.drop halUsbCdcPacketSize).length = s.ep.size - s.ep.next
    rw [hsize, List.length_drop, hlen]
  · change s.ep.packets ++ [(unpack (s.ep.fifo.take (words s.ep.next))).take s.ep.next] ++
      burst (s.ep.count - 1) (rest.drop halUsbCdcPacketSize) = total
    rw [hpacket, ← htotal, hsucc, Nat.add_sub_cancel, burst, List.append_assoc,
      List.singleton_append]

/-- `on_in_ep_int`: the flag falls with the transfer it stood for. -/
theorem Flight.serve (h : Flight host sizes todo total s) (hxfrc : s.ep.xfrc = true) :
    Flight host sizes todo total
      { s with usb := onInDone epData s.usb, ep := { s.ep with xfrc := false } } := by
  refine ⟨h.tame, fun hhost => ?_, ?_, Bool.noConfusion, h.counting, h.enough, h.small, h.rest,
    h.transfers, h.overlaps, h.lost⟩
  · exact h.ready hhost
  · change false = (s.ep.enabled || false)
    rw [h.once hxfrc]
    rfl

/-- Nothing is left of a transfer that is complete. -/
theorem Flight.complete (h : Flight host sizes todo total s) (hoff : s.ep.enabled = false) :
    s.ep.fifo = [] ∧ todo = [] ∧ s.ep.packets = total := by
  obtain ⟨rest, hfifo, hlen, htotal⟩ := h.rest
  have hcount : s.ep.count = 0 := by
    have hon := h.counting
    rw [hoff] at hon
    exact Nat.eq_zero_of_not_pos (of_decide_eq_false hon.symm)
  have hsize : rest.length = 0 := by
    have henough := h.enough
    rw [hcount, Nat.zero_mul] at henough
    omega
  rw [List.length_eq_zero_iff] at hsize
  rw [hsize, pack, List.append_eq_nil_iff] at hfifo
  rw [hcount, burst, List.append_nil] at htotal
  exact ⟨hfifo.1, hfifo.2, htotal⟩

/-- A control event of a host that lets a transfer come to its end first. -/
theorem Flight.request (h : Flight host sizes todo total s) {event : UsbEvent} (kept : Bool)
    (hhost : host = .orderly) (hevent : IsControl event)
    (hmay : Disturbs event → s.ep.enabled = false) :
    Flight host sizes todo total (s.serve kept event) := by
  have hready : ∀ {t : BusState}, host = .prompt → Ready t := fun hprompt =>
    Host.noConfusion (hhost.symm.trans hprompt)
  by_cases hdist : Disturbs event
  · have hoff := hmay hdist
    have hxfrc : s.usb.epInBusy = s.ep.xfrc := by
      rw [h.busy, hoff, Bool.false_or]
    have hstill : (s.ep.enabled && kept) = s.ep.enabled := by rw [hoff, Bool.false_and]
    rw [BusState.serve, if_pos hdist]
    refine ⟨h.tame, hready, ?_, fun _ => ?_, ?_, h.enough, h.small, h.rest, h.transfers,
      h.overlaps, h.lost⟩
    · change (usbStep s.usb event).epInBusy =
        (s.ep.enabled && kept || s.ep.xfrc && (usbStep s.usb event).epInBusy)
      cases hbusy : (usbStep s.usb event).epInBusy with
      | false => rw [hstill, hoff, Bool.and_false]; rfl
      | true => rw [← hxfrc, disturbed_busy hdist hbusy, Bool.true_and, Bool.or_true]
    · exact hstill.trans hoff
    · exact hstill.trans h.counting
  · rw [BusState.serve, if_neg hdist]
    exact ⟨h.tame, hready, (control_keeps hevent hdist).trans h.busy, h.once, h.counting,
      h.enough, h.small, h.rest, h.transfers, h.overlaps, h.lost⟩

theorem Flight.step (h : Flight host sizes todo total s) (hstep : BusStep host s s') :
    Flight host sizes todo total s' := by
  cases hstep with
  | collected hsend _ => exact h.collect hsend
  | served _ hxfrc => exact h.serve hxfrc
  | other _ hevent =>
    obtain ⟨hconf, hhalt, hbusy⟩ := unrelated_keeps hevent s.usb
    refine ⟨h.tame, fun hprompt => ⟨?_, ?_⟩, hbusy.trans h.busy, h.once, h.counting, h.enough,
      h.small, h.rest, h.transfers, h.overlaps, h.lost⟩
    · exact hconf.symm ▸ (h.ready hprompt).1
    · exact (congrFun hhalt epData).trans (h.ready hprompt).2
  | request kept _ hevent hmay =>
    cases host with
    | prompt => exact hmay.elim
    | orderly => exact h.request kept rfl hevent hmay
    | any => exact absurd rfl h.tame

theorem Flight.masked (h : Flight host sizes todo total s) (m : Bool) :
    Flight host sizes todo total { s with masked := m } :=
  ⟨h.tame, h.ready, h.busy, h.once, h.counting, h.enough, h.small, h.rest, h.transfers, h.overlaps,
    h.lost⟩

theorem masked_step (hstep : BusStep host s s') : s'.masked = s.masked := by
  cases hstep with
  | collected _ _ | served _ _ | other _ _ | request _ _ _ _ => rfl

/-- With the flag clear nothing is on its way. -/
theorem Flight.idle (h : Flight host sizes todo total s) (hclear : s.usb.epInBusy = false) :
    s.ep.enabled = false ∧ s.ep.xfrc = false :=
  Bool.or_eq_false_iff.mp (h.busy.symm.trans hclear)

/-- The host collects what is left of a transfer that is in the FIFO, and the interrupt is
served. -/
theorem Flight.drains (h : Flight .prompt sizes [] total s) (hon : s.masked = false) :
    ∃ s', ReflTransGen (BusStep .prompt) s s' ∧ s'.usb.epInBusy = false ∧
      s'.ep.enabled = false := by
  generalize hcount : s.ep.count = count
  induction count generalizing s with
  | zero =>
    have hoff : s.ep.enabled = false := by
      rw [h.counting, hcount]
      rfl
    cases hxfrc : s.ep.xfrc with
    | false => exact ⟨s, .refl, by rw [h.busy, hoff, hxfrc]; rfl, hoff⟩
    | true => exact ⟨_, .single (.served hon hxfrc), rfl, hoff⟩
  | succ count ih =>
    have hsend : s.ep.Sendable := by
      obtain ⟨rest, hfifo, hlen, -⟩ := h.rest
      refine ⟨by rw [h.counting, hcount]; rfl, ?_⟩
      rw [List.append_nil] at hfifo
      have hnext : s.ep.next ≤ s.ep.size := Nat.min_le_right _ _
      have hwords := words_length rest
      rw [hfifo, ← hwords, hlen]
      unfold words
      omega
    have hone : s.ep.collect.count = count := by
      change s.ep.count - 1 = count
      omega
    obtain ⟨s', hpath, hdone⟩ := ih (h.collect hsend) hon hone
    exact ⟨s', .head (.collected hsend (h.ready rfl).2) hpath, hdone⟩

end

/-! ## Waiting -/

section

variable {host : Host} {m : Bool} {sizes : List Nat} {todo : List UInt32}
  {total : List (List UInt8)} {s s' : BusState}

/-- All runs of a part of the driver. -/
abbrev Sends {α : Type} (host : Host) (prog : CdcProgram α) (Q : α → BusState → Prop)
    (s : BusState) : Prop :=
  Delivers (BusStep host) (accessed host) prog Q s

/-- An access that is answered in any state. -/
theorem sends_act {α : Type} {Q : α → BusState → Prop} {I : BusState → Prop} {i : CdcAccess}
    {next : Answer i → CdcProgram α} (hstable : Stable (BusStep host) I)
    (hans : ∀ s, ∃ b, Answered host s i b)
    (hnext : ∀ s b, I s → Answered host s i b → Sends host (next b) Q (effect s i)) (h : I s) :
    Sends host (.access i next) Q s := by
  refine delivers_access hstable (fun s _ => ?_) (fun s b s' hs hacc => ?_) h
  · obtain ⟨b, hb⟩ := hans s
    exact ⟨s, .refl, b, effect s i, hb, rfl⟩
  · obtain ⟨hb, rfl⟩ := hacc
    exact hnext s b hs hb

/-- Between the accesses of the driver that arm and fill. -/
def Free (host : Host) (sizes : List Nat) (total : List (List UInt8)) (s : BusState) : Prop :=
  Flight host sizes [] total s ∧ s.masked = false

theorem Free.stable : Stable (BusStep host) (Free host sizes total) :=
  fun _ _ h hstep => ⟨h.1.step hstep, (masked_step hstep).trans h.2⟩

theorem Free.path (h : Free host sizes total s) (hpath : ReflTransGen (BusStep host) s s') :
    Free host sizes total s' := by
  induction hpath with
  | refl => exact h
  | tail _ hstep ih => exact Free.stable _ _ ih hstep

/-- Nothing is on its way. -/
def Idle (host : Host) (m : Bool) (sizes : List Nat) (total : List (List UInt8)) (s : BusState) : Prop :=
  Flight host sizes [] total s ∧ s.usb.epInBusy = false ∧ s.masked = m

theorem Idle.stable : Stable (BusStep host) (Idle host m sizes total) := by
  intro s s' h hstep
  refine ⟨h.1.step hstep, ?_, (masked_step hstep).trans h.2.2⟩
  obtain ⟨hoff, hdone⟩ := h.1.idle h.2.1
  cases hstep with
  | collected hsend _ => exact Bool.noConfusion (hoff.symm.trans hsend.1)
  | served _ hxfrc => exact Bool.noConfusion (hdone.symm.trans hxfrc)
  | other _ hevent => exact (unrelated_keeps hevent s.usb).2.2.trans h.2.1
  | @request event _ _ hevent _ =>
    by_cases hdist : Disturbs event
    · refine Bool.eq_false_iff.mpr fun hbusy => ?_
      exact Bool.noConfusion (h.2.1.symm.trans (disturbed_busy hdist hbusy))
    · exact (control_keeps hevent hdist).trans h.2.1

/-- After the wait. -/
def Waited (host : Host) (sizes : List Nat) (total : List (List UInt8)) (status : HalStatus)
    (s : BusState) : Prop :=
  if status = .ok then Idle host false sizes total s
  else host ≠ .prompt ∧ Free host sizes total s

theorem Waited.stable {status : HalStatus} :
    Stable (BusStep host) (Waited host sizes total status) := by
  intro s s' h hstep
  unfold Waited at h ⊢
  split
  · next hok =>
    rw [if_pos hok] at h
    exact Idle.stable s s' h hstep
  · next herr =>
    rw [if_neg herr] at h
    exact ⟨h.1, Free.stable s s' h.2 hstep⟩

theorem sends_giveUp {status : HalStatus} (hne : status ≠ .ok) (hlate : host ≠ .prompt)
    (h : Free host sizes total s) : Sends host (.done status) (Waited host sizes total) s := by
  refine delivers_done Waited.stable ?_
  unfold Waited
  rw [if_neg hne]
  exact ⟨hlate, h⟩

/-- The flag can be read: at once, but for the poll that would spend the budget, before which
a prompt host has collected. -/
theorem Free.answered (h : Free host sizes total s) (spins : Nat) :
    ∃ s', ReflTransGen (BusStep host) s s' ∧
      ∃ busy t, accessed host (.pollBusy spins) s' busy t := by
  by_cases hhost : host = .prompt
  · subst hhost
    obtain ⟨s', hpath, hclear, -⟩ := h.1.drains h.2
    exact ⟨s', hpath, false, s', ⟨hclear.symm, fun _ => Bool.noConfusion⟩, rfl⟩
  · exact ⟨s, .refl, s.usb.epInBusy, s, ⟨rfl, fun hprompt => absurd hprompt hhost⟩, rfl⟩

/-- One round: the poll that would spend the budget finds the flag set only where the host
is not prompt. -/
theorem sends_round {n : Nat}
    (hrest : ∀ s, Free host sizes total s → (host = .prompt → n ≠ 0) →
      Sends host (if n = 0 then return .errTimeout else waitIdle n) (Waited host sizes total) s)
    (h : Free host sizes total s) :
    Sends host (waitIdle (n + 1)) (Waited host sizes total) s := by
  refine delivers_access Free.stable (fun s hs => hs.answered _) (fun s busy s' hs hacc => ?_) h
  obtain ⟨⟨hbusy, hbudget⟩, rfl⟩ := hacc
  cases busy with
  | false =>
    refine delivers_done Waited.stable ?_
    unfold Waited
    rw [if_pos rfl]
    exact ⟨hs.1, hbusy.symm, hs.2⟩
  | true =>
    refine sends_act Free.stable (fun s => ⟨_, rfl⟩) (fun s set hs hset => ?_) hs
    have hleft : host = .prompt → n ≠ 0 := fun hprompt hzero =>
      hbudget hprompt rfl (congrArg (· + 1) hzero)
    cases set with
    | true => exact hrest s hs hleft
    | false =>
      refine sends_giveUp HalStatus.noConfusion (fun hprompt => ?_) hs
      exact of_decide_eq_false hset.symm (hs.1.ready hprompt).1

theorem sends_waitIdle (spins : Nat) (h : Free host sizes total s) :
    Sends host (waitIdle (spins + 1)) (Waited host sizes total) s := by
  induction spins generalizing s with
  | zero =>
    refine sends_round (fun s hs hleft => ?_) h
    rw [if_pos rfl]
    exact sends_giveUp HalStatus.noConfusion (fun hprompt => hleft hprompt rfl) hs
  | succ spins ih =>
    refine sends_round (fun s hs _ => ?_) h
    rw [if_neg (Nat.succ_ne_zero spins)]
    exact ih hs

/-! ## Arming and filling -/

/-- The flag is set and interrupts are off, but nothing is armed yet. -/
structure Claimed (host : Host) (sizes : List Nat) (total : List (List UInt8)) (s : BusState) : Prop where
  tame : host ≠ .any
  ready : host = .prompt → Ready s
  busy : s.usb.epInBusy = true
  enabled : s.ep.enabled = false
  xfrc : s.ep.xfrc = false
  fifo : s.ep.fifo = []
  packets : s.ep.packets = total
  transfers : s.ep.transfers = sizes
  overlaps : s.ep.overlaps = 0
  lost : s.ep.lost = 0
  masked : s.masked = true

theorem claimed_stable {tsiz : UInt32} :
    Stable (BusStep host) fun s => Claimed host sizes total s ∧ s.ep.tsiz = tsiz := by
  intro s s' h hstep
  cases hstep with
  | collected hsend _ => exact Bool.noConfusion (h.1.enabled.symm.trans hsend.1)
  | served hon _ | other hon _ | request _ hon _ _ =>
    exact Bool.noConfusion (hon.symm.trans h.1.masked)

/-- The driver writes to the FIFO. -/
def Filling (host : Host) (sizes : List Nat) (todo : List UInt32) (total : List (List UInt8))
    (s : BusState) : Prop :=
  Flight host sizes todo total s ∧ s.masked = true

theorem Filling.stable : Stable (BusStep host) (Filling host sizes todo total) :=
  fun _ _ h hstep => ⟨h.1.step hstep, (masked_step hstep).trans h.2⟩

theorem Flight.push {word : UInt32} (h : Flight host sizes (word :: todo) total s) :
    Flight host sizes todo total { s with ep := s.ep.push word } := by
  obtain ⟨rest, hfifo, hlen, htotal⟩ := h.rest
  have hroom : s.ep.fifo.length < fifoTx1Words := by
    have hwords := congrArg List.length hfifo
    rw [pack_length, List.length_append, List.length_cons, hlen] at hwords
    have hsmall := h.small
    unfold txChunk at hsmall
    unfold fifoTx1Words
    omega
  have hpush : s.ep.push word = { s.ep with fifo := s.ep.fifo ++ [word] } := if_pos hroom
  rw [hpush]
  refine ⟨h.tame, h.ready, h.busy, h.once, h.counting, h.enough, h.small,
    ⟨rest, ?_, hlen, htotal⟩, h.transfers, h.overlaps, h.lost⟩
  rw [List.append_assoc]
  exact hfifo

variable {mem : Nat → UInt8} {src : Nat} {len : UInt16}

theorem sends_fifoLoop (hlen : len.toNat ≤ txChunk) (rounds : Nat) (i : UInt16)
    (hrounds : len.toNat - i.toNat ≤ rounds)
    (h : Filling host sizes (pack (bytesAt mem (src + i.toNat) (len.toNat - i.toNat))) total s) :
    Sends host (fifoLoop mem src len rounds i) (fun _ => Filling host sizes [] total) s := by
  have hlast : ∀ {s i}, len.toNat - i = 0 →
      Filling host sizes (pack (bytesAt mem (src + i) (len.toNat - i))) total s →
      Sends host (.done ()) (fun _ => Filling host sizes [] total) s := by
    intro s i hzero hs
    rw [hzero, bytesAt, pack] at hs
    exact delivers_done Filling.stable hs
  induction rounds generalizing s i with
  | zero => exact hlast (by omega) h
  | succ rounds ih =>
    rw [fifoLoop]
    by_cases hi : i < len
    · have hlt : i.toNat < len.toNat := UInt16.lt_iff_toNat_lt.mp hi
      have hnext : (i + 4).toNat = i.toNat + 4 := by
        unfold txChunk at hlen
        rw [UInt16.toNat_add]
        exact Nat.mod_eq_of_lt (by change i.toNat + 4 < 65536; omega)
      rw [if_pos hi]
      rw [pack_bytesAt src hi] at h
      refine sends_act Filling.stable (fun s => ⟨(), trivial⟩) (fun s _ hs _ => ?_) h
      refine ih (i + 4) (by omega) ?_
      rw [hnext]
      exact ⟨hs.1.push, hs.2⟩
    · have hge : len.toNat ≤ i.toNat := Nat.not_lt.mp fun hlt => hi (UInt16.lt_iff_toNat_lt.mpr hlt)
      rw [if_neg hi]
      exact hlast (by omega) h

theorem sends_fill (hlen : len.toNat ≤ txChunk)
    (h : Filling host sizes (pack (bytesAt mem src len.toNat)) total s) :
    Sends host (fill mem src len) (fun _ => Filling host sizes [] total) s := by
  unfold fill
  by_cases hzero : len = 0
  · rw [if_neg fun hne => hne hzero]
    rw [hzero] at h
    exact delivers_done Filling.stable h
  · rw [if_pos hzero]
    exact sends_fifoLoop hlen len.toNat 0 (Nat.sub_le _ _) h

theorem Claimed.enable (h : Claimed host sizes total s) (hlen : len.toNat ≤ txChunk)
    (htsiz : s.ep.tsiz = usbEptsizPktcnt (packetCount len) ||| usbEptsizXfrsiz len.toUInt32) :
    Filling host (sizes ++ [len.toNat]) (pack (bytesAt mem src len.toNat))
      (total ++ burst (packetsOf len.toNat) (bytesAt mem src len.toNat))
      { s with ep := s.ep.enable } := by
  have hsmall : len.toNat ≤ 256 := hlen
  have hsize : xfrsiz s.ep.tsiz = len.toNat := by
    rw [htsiz, xfrsiz_or, UInt16.toNat_toUInt32]
    omega
  have hcount : pktcnt s.ep.tsiz = packetsOf len.toNat := by
    rw [htsiz, pktcnt_or, packetCount_toNat]
    unfold packetsOf
    split <;> omega
  have hpos : 0 < packetsOf len.toNat := by
    unfold packetsOf
    split <;> omega
  have henough : len.toNat ≤ packetsOf len.toNat * halUsbCdcPacketSize := by
    unfold packetsOf halUsbCdcPacketSize
    split <;> omega
  have harmed : s.ep.enable =
      { s.ep with
        size := len.toNat, count := packetsOf len.toNat, enabled := true
        transfers := s.ep.transfers ++ [len.toNat] } := by
    rw [Endpoint.enable, hsize, hcount, h.enabled, if_neg Bool.false_ne_true]
  rw [harmed]
  refine ⟨⟨h.tame, h.ready, h.busy, fun hdone => Bool.noConfusion (h.xfrc.symm.trans hdone),
    (decide_eq_true hpos).symm, henough, hlen,
    ⟨bytesAt mem src len.toNat, ?_, bytesAt_length _ _, ?_⟩, ?_, h.overlaps, h.lost⟩, h.masked⟩
  · change s.ep.fifo ++ _ = _
    rw [h.fifo, List.nil_append]
  · change s.ep.packets ++ _ = _
    rw [h.packets]
  · change s.ep.transfers ++ _ = _
    rw [h.transfers]

theorem sends_armAndFill (hlen : len.toNat ≤ txChunk) (h : Idle host false sizes total s) :
    Sends host (armAndFill mem src len) (fun _ => Free host (sizes ++ [len.toNat])
      (total ++ burst (packetsOf len.toNat) (bytesAt mem src len.toNat))) s := by
  have hunit : ∀ {i : CdcAccess} {b : Answer i}, (∀ s, Answered host s i b) →
      ∀ s, ∃ b, Answered host s i b := fun hans s => ⟨_, hans s⟩
  refine sends_act Idle.stable (fun s => ⟨_, rfl⟩) (fun s state hs hstate => ?_) h
  have hoff : state = false := hstate.trans hs.2.2
  have hmasked : Idle host true sizes total { s with masked := true } :=
    ⟨hs.1.masked true, hs.2.1, rfl⟩
  refine sends_act Idle.stable (hunit (b := ()) fun _ => trivial) (fun s _ hs _ => ?_) hmasked
  have hclaimed : Claimed host sizes total { s with usb := { s.usb with epInBusy := true } } := by
    obtain ⟨hflight, hclear, hmask⟩ := hs
    obtain ⟨henabled, hxfrc⟩ := hflight.idle hclear
    obtain ⟨hfifo, -, hpackets⟩ := hflight.complete henabled
    exact ⟨hflight.tame, hflight.ready, rfl, henabled, hxfrc, hfifo, hpackets, hflight.transfers,
      hflight.overlaps, hflight.lost, hmask⟩
  refine sends_act claimed_stable (hunit (b := ()) fun _ => trivial) (fun s _ hs _ => ?_)
    ⟨hclaimed, rfl⟩
  obtain ⟨hs, -⟩ := hs
  refine sends_act claimed_stable (hunit (b := ()) fun _ => trivial) (fun s _ hs htsiz => ?_)
    ⟨⟨hs.tame, hs.ready, hs.busy, hs.enabled, hs.xfrc, hs.fifo, hs.packets, hs.transfers,
      hs.overlaps, hs.lost, hs.masked⟩, rfl⟩
  change Sends host (fill mem src len >>= fun _ => enableGlobal state) _ _
  refine Delivers.bind (sends_fill hlen (hs.1.enable hlen hs.2)) fun _ s hs => ?_
  refine sends_act Filling.stable (hunit (b := ()) fun _ => trivial) (fun s _ hs _ => ?_) hs
  rw [hoff]
  have hfree : Free host (sizes ++ [len.toNat])
      (total ++ burst (packetsOf len.toNat) (bytesAt mem src len.toNat))
      { s with masked := false } := ⟨hs.1.masked false, rfl⟩
  exact delivers_done Free.stable hfree

/-! ## Transfers -/

/-- `HAL_OK`, or an error that a prompt host does not see. -/
def Sent (host : Host) (sizes : List Nat) (total : List (List UInt8)) (status : HalStatus)
    (s : BusState) : Prop :=
  if status = .ok then Free host sizes total s
  else host ≠ .prompt ∧ ∃ sizes total, Free host sizes total s

theorem Sent.stable {status : HalStatus} : Stable (BusStep host) (Sent host sizes total status) := by
  intro s s' h hstep
  unfold Sent at h ⊢
  split
  · next hok =>
    rw [if_pos hok] at h
    exact Free.stable s s' h hstep
  · next herr =>
    rw [if_neg herr] at h
    obtain ⟨hlate, sizes, total, hfree⟩ := h
    exact ⟨hlate, sizes, total, Free.stable s s' hfree hstep⟩

theorem sends_error {status : HalStatus} (hne : status ≠ .ok) (hlate : host ≠ .prompt)
    {sizes' : List Nat} {total' : List (List UInt8)} (h : Free host sizes' total' s) :
    Sends host (.done status) (Sent host sizes total) s := by
  refine delivers_done Sent.stable ?_
  unfold Sent
  rw [if_neg hne]
  exact ⟨hlate, sizes', total', h⟩

theorem sends_ok (h : Free host sizes total s) :
    Sends host (.done .ok) (Sent host sizes total) s := by
  refine delivers_done Sent.stable ?_
  unfold Sent
  rw [if_pos rfl]
  exact h

theorem sends_epInTransfer (hlen : len.toNat ≤ txChunk) (h : Free host sizes total s) :
    Sends host (epInTransfer mem src len) (Sent host (sizes ++ [len.toNat])
      (total ++ burst (packetsOf len.toNat) (bytesAt mem src len.toNat))) s := by
  refine Delivers.bind (sends_waitIdle 1999999 h) fun status s hs => ?_
  unfold Waited at hs
  by_cases hok : status = .ok
  · rw [if_pos hok] at hs ⊢
    exact Delivers.bind (sends_armAndFill hlen hs) fun _ s hs => sends_ok hs
  · rw [if_neg hok] at hs ⊢
    exact sends_error hok hs.1 hs.2

/-! ## The write -/

theorem sends_sendAll (stop : Nat) {lens : List Nat} (hsmall : ∀ len ∈ lens, len ≤ txChunk)
    (h : Free host sizes total s) :
    Sends host (sendAll mem stop lens)
      (Sent host (sizes ++ lens) (total ++ packetsAt mem stop lens)) s := by
  induction lens generalizing sizes total s with
  | nil =>
    rw [packetsAt, List.append_nil, List.append_nil]
    exact sends_ok h
  | cons len lens ih =>
    obtain ⟨hlen, hrest⟩ := List.forall_mem_cons.mp hsmall
    have hnat : (UInt16.ofNat len).toNat = len := by
      unfold txChunk at hlen
      exact Nat.mod_eq_of_lt (by omega)
    rw [sendAll]
    refine Delivers.bind (sends_epInTransfer (by rw [hnat]; exact hlen) h) fun status s hs => ?_
    unfold Sent at hs
    rw [hnat] at hs
    by_cases hok : status = .ok
    · rw [if_pos hok] at hs ⊢
      have hnext := ih hrest hs
      rwa [List.append_assoc, List.append_assoc] at hnext
    · rw [if_neg hok] at hs ⊢
      obtain ⟨hlate, sizes', total', hfree⟩ := hs
      exact sends_error hok hlate hfree

theorem sends_write {data : Nat} {length : UInt16}
    (hdata : data ≠ 0 ∨ length = 0 ∨ host ≠ .prompt) (h : Free host sizes total s) :
    Sends host (halUsbCdcWrite mem data length)
      (Sent host (sizes ++ writeTransfers length)
        (total ++ writePackets (bytesAt mem data length.toNat))) s := by
  rw [halUsbCdcWrite_eq]
  by_cases hnull : data = 0 ∧ length ≠ 0
  · rw [if_pos hnull]
    have hlate : host ≠ .prompt :=
      (hdata.resolve_left fun hne => hne hnull.1).resolve_left hnull.2
    exact sends_error HalStatus.noConfusion hlate h
  rw [if_neg hnull]
  refine sends_act Free.stable (fun s => ⟨_, rfl⟩) (fun s set hs hset => ?_) h
  cases set with
  | true =>
    have hsmall : ∀ len ∈ writeTransfers length, len ≤ txChunk := fun _ => writeTransfers_small
    rw [← packetsAt_writeTransfers]
    exact sends_sendAll _ hsmall hs
  | false =>
    refine sends_error HalStatus.noConfusion (fun hprompt => ?_) hs
    exact of_decide_eq_false hset.symm (hs.1.ready hprompt).1

end

/-! ## Runs in which the host does nothing -/

section

variable {host : Host} {mem : Nat → UInt8} {src : Nat} {len : UInt16} {s : BusState}

/-- What `fifoLoop` leaves. -/
def fifoFill (mem : Nat → UInt8) (src : Nat) (len : UInt16) : Nat → UInt16 → Endpoint → Endpoint
  | 0, _, ep => ep
  | rounds + 1, i, ep =>
    if i < len then fifoFill mem src len rounds (i + 4) (ep.push (wordLoop mem src len i 0 4 0))
    else ep

/-- A transfer is armed, and none of it collected. -/
def BusState.armed (mem : Nat → UInt8) (src : Nat) (len : UInt16) (s : BusState) : BusState :=
  let tsiz := usbEptsizPktcnt (packetCount len) ||| usbEptsizXfrsiz len.toUInt32
  { s with
    usb := { s.usb with epInBusy := true }
    ep := fifoFill mem src len len.toNat 0 { s.ep with tsiz := tsiz }.enable }

/-- One access, before the host does anything. -/
theorem runs_act {α : Type} {i : CdcAccess} {next : Answer i → CdcProgram α} {a : α} {t : BusState}
    (b : Answer i) (hans : Answered host s i b)
    (h : Access.Runs (BusStep host) (accessed host) (next b) (effect s i) a t) :
    Access.Runs (BusStep host) (accessed host) (.access i next) s a t :=
  .access_step ⟨hans, rfl⟩ h

theorem runs_fifoLoop (rounds : Nat) (i : UInt16) :
    Access.Runs (BusStep host) (accessed host) (fifoLoop mem src len rounds i) s ()
      { s with ep := fifoFill mem src len rounds i s.ep } := by
  induction rounds generalizing s i with
  | zero => exact .done _ _
  | succ rounds ih =>
    rw [fifoLoop, fifoFill]
    split
    · exact runs_act () trivial (ih (i + 4))
    · exact .done _ _

theorem runs_fill :
    Access.Runs (BusStep host) (accessed host) (fill mem src len) s ()
      { s with ep := fifoFill mem src len len.toNat 0 s.ep } := by
  unfold fill
  by_cases hzero : len = 0
  · rw [if_neg fun hne => hne hzero, hzero]
    exact .done _ _
  · rw [if_pos hzero]
    exact runs_fifoLoop len.toNat 0

theorem runs_armAndFill :
    Access.Runs (BusStep host) (accessed host) (armAndFill mem src len) s ()
      (s.armed mem src len) := by
  refine runs_act s.masked rfl ?_
  refine runs_act () trivial (runs_act () trivial (runs_act () trivial ?_))
  change Access.Runs _ _ (fill mem src len >>= fun _ => enableGlobal s.masked) _ _ _
  exact Access.Runs.seq runs_fill (runs_act () trivial (.done _ _))

theorem runs_epInTransfer (hidle : s.usb.epInBusy = false) :
    Access.Runs (BusStep host) (accessed host) (epInTransfer mem src len) s .ok
      (s.armed mem src len) := by
  have hwait : Access.Runs (BusStep host) (accessed host) (waitIdle (1999999 + 1)) s .ok s :=
    runs_act false ⟨hidle.symm, fun _ => Bool.noConfusion⟩ (.done _ _)
  refine Access.Runs.seq hwait ?_
  rw [if_pos rfl]
  exact Access.Runs.seq runs_armAndFill (.done _ _)

/-- A write of one transfer. -/
theorem runs_write {data : Nat} {length : UInt16} (hdata : data ≠ 0)
    (hconf : s.usb.usbConfigured ≠ 0) (hidle : s.usb.epInBusy = false)
    (hone : writeTransfers length = [length.toNat]) :
    Access.Runs (BusStep host) (accessed host) (halUsbCdcWrite mem data length) s .ok
      (s.armed mem data length) := by
  have hsrc : data + length.toNat - [length.toNat].sum = data :=
    Nat.add_sub_cancel data length.toNat
  rw [halUsbCdcWrite_eq, if_neg fun hnull => hdata hnull.1, hone]
  refine runs_act true (decide_eq_true hconf).symm ?_
  change Access.Runs _ _ (sendAll mem (data + length.toNat) [length.toNat]) _ _ _
  rw [sendAll, hsrc, UInt16.ofNat_toNat]
  refine Access.Runs.seq (runs_epInTransfer hidle) ?_
  rw [if_pos rfl]
  exact .done _ _

end

/-! ## The first configuration, and the next -/

/-- A bus reset, and SET_CONFIGURATION. -/
def enumerated (kept : Bool) (s : BusState) : BusState :=
  (s.serve kept .busReset).serve kept
    (.setup { bmRequestType := 0x00, bRequest := reqSetConfiguration, wValue := 1 })

theorem Reached.enumerated {host : Host} {s : BusState} (h : Reached host s) (kept : Bool)
    (hon : s.masked = false) (hmay : host = .any ∨ host = .orderly ∧ s.ep.enabled = false) :
    Reached host (enumerated kept s) := by
  have hreset : host.MaySend s .busReset := by
    rcases hmay with rfl | ⟨rfl, hoff⟩
    · trivial
    · exact fun _ => hoff
  have hset : host.MaySend (s.serve kept .busReset)
      (.setup { bmRequestType := 0x00, bRequest := reqSetConfiguration, wValue := 1 }) := by
    rcases hmay with rfl | ⟨rfl, hoff⟩
    · trivial
    · exact fun _ => Bool.and_eq_false_imp.mpr fun hon => absurd hon (Bool.eq_false_iff.mp hoff)
  have hcontrol : IsControl .busReset := trivial
  exact (h.step (.request kept hon hcontrol hreset)).step (.request kept hon trivial hset)

def firstConfiguration : BusState := enumerated true broughtUp

/-- Four bytes are written, and the host resets the bus and configures the device again before
it has collected them. -/
def configuredAgain (kept : Bool) : BusState :=
  enumerated kept (firstConfiguration.armed UInt8.ofNat 0x20000000 4)

theorem writeTransfers_four : writeTransfers 4 = [4] := by
  have hone : chunks 4 = [4] := by
    rw [chunks_cons (by decide)]
    exact congrArg _ chunks_zero
  exact congrArg (· ++ []) hone

/-! ## Every write -/

section

variable {sizes : List Nat} {total : List (List UInt8)} {s : BusState}

/-- Whatever an orderly host does, the flag stands for the transfer in the FIFO. -/
theorem Reached.free (h : Reached .orderly s) : ∃ sizes total, Free .orderly sizes total s := by
  have hready : ∀ {t}, Host.orderly = .prompt → Ready t := Host.noConfusion
  induction h with
  | start =>
    exact ⟨[], [], ⟨Host.noConfusion, hready, rfl, Bool.noConfusion, rfl, Nat.le_refl 0,
      Nat.zero_le _, ⟨[], rfl, rfl, rfl⟩, rfl, rfl, rfl⟩, rfl⟩
  | step _ hstep ih =>
    obtain ⟨sizes, total, hfree⟩ := ih
    exact ⟨sizes, total, Free.stable _ _ hfree hstep⟩
  | wrote _ hruns ih =>
    obtain ⟨sizes, total, hfree⟩ := ih
    have hsent := (sends_write (Or.inr (Or.inr Host.noConfusion)) hfree).ensures _ _ hruns
    unfold Sent at hsent
    split at hsent
    · exact ⟨_, _, hsent⟩
    · exact hsent.2
  | deinit _ ih =>
    obtain ⟨sizes, total, hflight, hmask⟩ := ih
    exact ⟨sizes, total, ⟨hflight.tame, hready, hflight.busy, hflight.once, hflight.counting,
      hflight.enough, hflight.small, hflight.rest, hflight.transfers, hflight.overlaps,
      hflight.lost⟩, hmask⟩
  | @init s _ hidle ih =>
    obtain ⟨sizes, total, hflight, hmask⟩ := ih
    obtain ⟨hoff, hdone⟩ := hidle.resolve_left Host.noConfusion
    have hclear : s.usb.epInBusy = false := by
      rw [hflight.busy, hoff, hdone]
      rfl
    exact ⟨sizes, s.ep.packets, ⟨hflight.tame, hready, hclear, Bool.noConfusion, rfl,
      Nat.le_refl 0, Nat.zero_le _, ⟨[], rfl, rfl, List.append_nil _⟩, hflight.transfers,
      hflight.overlaps, hflight.lost⟩, hmask⟩

/-- From here on the host is prompt. -/
theorem Free.prompt (h : Free .orderly sizes total s) (hready : Ready s) :
    Free .prompt sizes total s :=
  ⟨⟨Host.noConfusion, fun _ => hready, h.1.busy, h.1.once, h.1.counting, h.1.enough, h.1.small,
    h.1.rest, h.1.transfers, h.1.overlaps, h.1.lost⟩, h.2⟩

/-- The packets that are collected when what is armed is complete. -/
theorem Free.pending {host : Host} (h : Free host sizes total s) :
    s.ep.packets ++ s.ep.pending = total := by
  unfold Endpoint.pending
  by_cases hon : s.ep.enabled = true
  · obtain ⟨rest, hfifo, hlen, htotal⟩ := h.1.rest
    have hwords : rest.length ≤ 4 * s.ep.fifo.length := by
      rw [List.append_nil] at hfifo
      rw [hfifo, pack_length]
      omega
    rw [if_pos hon, ← hlen, take_unpack hfifo hwords (Nat.le_refl _), List.take_length]
    exact htotal
  · rw [if_neg hon, List.append_nil]
    exact (h.1.complete (Bool.eq_false_iff.mpr hon)).2.2

end

/-- How a write that began in `s` ends. -/
structure Written (mem : Nat → UInt8) (data : Nat) (length : UInt16) (s : BusState)
    (status : HalStatus) (s' : BusState) : Prop where
  ok : status = .ok
  /-- No transfer is armed before the one before it is complete, and all fit the FIFO. -/
  transfers : s'.ep.transfers = s.ep.transfers ++ writeTransfers length
  ordered : s'.ep.overlaps = 0
  fits : ∀ size ∈ writeTransfers length, words size ≤ fifoTx1Words
  kept : s'.ep.lost = 0
  /-- The host collects the data in packets after what was armed before, and nothing else. -/
  packets : ∃ pkts, Framing (bytesAt mem data length.toNat) pkts ∧
    s'.ep.packets ++ s'.ep.pending = s.ep.packets ++ s.ep.pending ++ pkts
  /-- The transfer that is still on its way comes to its end. -/
  drains : ∃ t, ReflTransGen (BusStep .prompt) s' t ∧ t.ep.enabled = false ∧
    t.ep.packets = s'.ep.packets ++ s'.ep.pending

theorem writeTransfers_fit {length : UInt16} {size : Nat} (h : size ∈ writeTransfers length) :
    words size ≤ fifoTx1Words := by
  have hsmall := writeTransfers_small h
  unfold txChunk at hsmall
  unfold words fifoTx1Words
  omega

/-- Every write to a prompt host on a configured device, if nothing so far has disturbed the
endpoint with a transfer on its way. -/
theorem write_frames {s : BusState} (hs : Reached .orderly s) (hready : Ready s)
    (mem : Nat → UInt8) (data : Nat) (length : UInt16) (hdata : data ≠ 0 ∨ length = 0) :
    Delivers (BusStep .prompt) (accessed .prompt) (halUsbCdcWrite mem data length)
      (Written mem data length s) s := by
  obtain ⟨sizes, total, horderly⟩ := hs.free
  have hfree := horderly.prompt hready
  refine (sends_write (hdata.imp_right Or.inl) hfree).mono fun status s' hsent => ?_
  unfold Sent at hsent
  by_cases hok : status = .ok
  · rw [if_pos hok] at hsent
    obtain ⟨t, hpath, -, hoff⟩ := hsent.1.drains hsent.2
    have hend : Free .prompt (sizes ++ writeTransfers length)
        (total ++ writePackets (bytesAt mem data length.toNat)) t := hsent.path hpath
    refine ⟨hok, ?_, hsent.1.overlaps, fun size => writeTransfers_fit, hsent.1.lost,
      ⟨_, framing_writePackets _, ?_⟩, t, hpath, hoff, ?_⟩
    · rw [hsent.1.transfers, hfree.1.transfers]
    · rw [hsent.pending, hfree.pending]
    · rw [(hend.1.complete hoff).2.2, hsent.pending]
  · rw [if_neg hok] at hsent
    exact absurd rfl hsent.1

/-- Four packets in one transfer, and an empty one after them. -/
theorem write_frames_chunk :
    Delivers (BusStep .prompt) (accessed .prompt) (halUsbCdcWrite UInt8.ofNat 0x20000000 256)
      (Written UInt8.ofNat 0x20000000 256 firstConfiguration) firstConfiguration :=
  write_frames (Reached.start.enumerated true rfl (Or.inr ⟨rfl, rfl⟩)) ⟨by decide, rfl⟩
    UInt8.ofNat 0x20000000 256 (Or.inl (by decide))

/-- The next four bytes go behind those that were left. -/
theorem stale_words (kept : Bool) :
    ¬ Delivers (BusStep .prompt) (accessed .prompt) (halUsbCdcWrite UInt8.ofNat 0x20000004 4)
      (Written UInt8.ofNat 0x20000004 4 (configuredAgain kept)) (configuredAgain kept) := by
  intro h
  have hconf : (configuredAgain kept).usb.usbConfigured ≠ 0 := by cases kept <;> decide
  have hidle : (configuredAgain kept).usb.epInBusy = false := by cases kept <;> rfl
  have hruns : Access.Runs (BusStep .prompt) (accessed .prompt)
      (halUsbCdcWrite UInt8.ofNat 0x20000004 4) (configuredAgain kept) .ok
      ((configuredAgain kept).armed UInt8.ofNat 0x20000004 4) :=
    runs_write (by decide) hconf hidle writeTransfers_four
  obtain ⟨pkts, hframing, hsent⟩ := (h.ensures _ _ hruns).packets
  have hstale : pkts.flatten ≠ bytesAt UInt8.ofNat 0x20000004 4 := by
    cases kept with
    | true =>
      have hnone : pkts = [] := by
        change [[0, 1, 2, 3]] = [[0, 1, 2, 3]] ++ pkts at hsent
        exact List.self_eq_append_right.mp hsent
      rw [hnone]
      decide
    | false =>
      have hold : pkts = [[0, 1, 2, 3]] := hsent.symm
      rw [hold]
      decide
  exact hstale hframing.flatten

theorem stale_words_sent :
    Reached .any (configuredAgain false) ∧ Ready (configuredAgain false) ∧
      ¬ Delivers (BusStep .prompt) (accessed .prompt) (halUsbCdcWrite UInt8.ofNat 0x20000004 4)
        (Written UInt8.ofNat 0x20000004 4 (configuredAgain false)) (configuredAgain false) := by
  have hfirst : Reached .any firstConfiguration := Reached.start.enumerated true rfl (Or.inl rfl)
  have hwritten : Reached .any (firstConfiguration.armed UInt8.ofNat 0x20000000 4) :=
    hfirst.wrote (runs_write (by decide) (by decide) rfl writeTransfers_four)
  exact ⟨hwritten.enumerated false rfl (Or.inl rfl), ⟨by decide, rfl⟩, stale_words false⟩

end NavHAL.Usb.BulkIn
