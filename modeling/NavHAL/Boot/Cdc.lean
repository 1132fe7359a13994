import NavHAL.Lib.Ring

/-!
# The CDC transports of the loaders

`cdc_rx` and `cdc_get` of stage-1 and stage-2.  The driver's callback hands
each bulk OUT packet over whole; `cdc_get` returns the oldest byte, and times
out while the ring stays empty.

* `cdc_lossless_iff` : with the ring empty at every packet, nothing is lost exactly
  when no packet has more than 63 bytes.
-/

namespace NavHAL.Boot

/-- The two images with a CDC transport of their own. -/
inductive Loader
  | stage1
  | stage2

/-- `sizeof cdc_rx_buf` of stage-1, `sizeof cdc_buf` of stage-2. -/
def Loader.cdcBufSize : Loader → Nat
  | .stage1 => 64
  | .stage2 => 64

/-- `HAL_USB_CDC_PACKET_SIZE` -/
def halUsbCdcPacketSize : Nat := 64

abbrev CdcRing (loader : Loader) := Ring UInt8 loader.cdcBufSize

/-- `cdc_rx`: bytes until the ring is full, the rest of the packet dropped. -/
def cdcRx {loader : Loader} (r : CdcRing loader) : List UInt8 → CdcRing loader
  | [] => r
  | b :: data =>
    match r.push b with
    | none => r
    | some r => cdcRx r data

/-- `cdc_get` -/
def cdcGet {loader : Loader} (r : CdcRing loader) : Option UInt8 × CdcRing loader :=
  match r.pop with
  | none => (none, r)
  | some (b, r) => (some b, r)

/-- A bulk OUT packet with data. -/
structure OutPacket where
  bytes : List UInt8
  size_pos : 0 < bytes.length
  size_le : bytes.length ≤ halUsbCdcPacketSize

inductive CdcAction
  | packet (p : OutPacket)
  | get

/-- The bytes the gets return, and the ring they leave. -/
def cdcRun {loader : Loader} (r : CdcRing loader) : List CdcAction → List UInt8 × CdcRing loader
  | [] => ([], r)
  | .packet p :: actions => cdcRun (cdcRx r p.bytes) actions
  | .get :: actions =>
    match cdcGet r with
    | (none, r) => cdcRun r actions
    | (some b, r) =>
      let rest := cdcRun r actions
      (b :: rest.1, rest.2)

/-- The ring is empty whenever a packet arrives. -/
def EmptyAtPackets {loader : Loader} (r : CdcRing loader) : List CdcAction → Prop
  | [] => True
  | .packet p :: actions => r.tail = r.head ∧ EmptyAtPackets (cdcRx r p.bytes) actions
  | .get :: actions => EmptyAtPackets (cdcGet r).2 actions

def packets : List CdcAction → List OutPacket
  | [] => []
  | .packet p :: actions => p :: packets actions
  | .get :: actions => packets actions

/-! ## What gets through -/

section Run

variable {loader : Loader} {r : CdcRing loader} {xs : List UInt8}

/-- The ring keeps as much of a packet as it has room for. -/
theorem cdcRx_holds (data : List UInt8) :
    ∀ {r : CdcRing loader} {xs : List UInt8}, r.Holds xs →
      (cdcRx r data).Holds (xs ++ data.take (loader.cdcBufSize - 1 - xs.length)) := by
  induction data with
  | nil =>
    intro r xs h
    rwa [List.take_nil, List.append_nil]
  | cons b data ih =>
    intro r xs h
    have hlt := h.length_lt
    by_cases hroom : xs.length + 1 < loader.cdcBufSize
    · obtain ⟨r', hpush, h'⟩ := h.push b hroom
      have hrest := ih h'
      rw [List.length_append, List.length_singleton, List.append_assoc, List.singleton_append,
        ← List.take_succ_cons] at hrest
      rw [cdcRx, hpush]
      rwa [show loader.cdcBufSize - 1 - xs.length =
        loader.cdcBufSize - 1 - (xs.length + 1) + 1 by omega]
    · rw [cdcRx, h.push_full b (by omega),
        show loader.cdcBufSize - 1 - xs.length = 0 by omega, List.take_zero, List.append_nil]
      exact h

/-- What is returned and what still waits are the packets, each cut to the
capacity of the ring. -/
theorem cdcRun_bytes (actions : List CdcAction) :
    ∀ {r : CdcRing loader} {xs : List UInt8}, r.Holds xs → EmptyAtPackets r actions →
      (cdcRun r actions).1 ++ (cdcRun r actions).2.contents =
        xs ++ (packets actions).flatMap fun p => p.bytes.take (loader.cdcBufSize - 1) := by
  induction actions with
  | nil =>
    intro r xs h _
    rw [cdcRun, packets, List.flatMap_nil, List.append_nil, h.contents_eq]
    rfl
  | cons action actions ih =>
    intro r xs h hempty
    cases action with
    | packet p =>
      obtain ⟨hnow, hrest⟩ := hempty
      obtain rfl := h.empty_iff.mp hnow
      have hrx := cdcRx_holds p.bytes h
      have hlater := ih hrx hrest
      rw [cdcRun, hlater, packets, List.flatMap_cons]
      rfl
    | get =>
      rw [EmptyAtPackets] at hempty
      cases xs with
      | nil =>
        have hget : cdcGet r = (none, r) := by rw [cdcGet, h.pop_nil]
        rw [hget] at hempty
        rw [cdcRun, hget]
        exact ih h hempty
      | cons x xs =>
        obtain ⟨r', hpop, h'⟩ := h.pop_cons
        have hget : cdcGet r = (some x, r') := by rw [cdcGet, hpop]
        rw [hget] at hempty
        rw [cdcRun, hget]
        have hlater := ih h' hempty
        dsimp only
        rw [List.cons_append, hlater, packets, List.cons_append]

end Run

theorem cut_packets_iff (n : Nat) (ps : List OutPacket) :
    (ps.flatMap fun p => p.bytes.take n) = ps.flatMap OutPacket.bytes ↔
      ∀ p ∈ ps, p.bytes.length ≤ n := by
  constructor
  · intro heq
    have hle : ∀ ps : List OutPacket,
        (ps.flatMap fun p => p.bytes.take n).length ≤ (ps.flatMap OutPacket.bytes).length := by
      intro ps
      induction ps with
      | nil => exact Nat.le_refl _
      | cons p ps ih =>
        rw [List.flatMap_cons, List.flatMap_cons, List.length_append, List.length_append,
          List.length_take]
        omega
    induction ps with
    | nil => simp
    | cons p ps ih =>
      rw [List.flatMap_cons, List.flatMap_cons] at heq
      have hlen := congrArg List.length heq
      have hrest := hle ps
      rw [List.length_append, List.length_append, List.length_take] at hlen
      have hp : p.bytes.length ≤ n := by omega
      rw [List.take_of_length_le hp] at heq
      intro q hq
      rcases List.mem_cons.mp hq with rfl | hmem
      · exact hp
      · exact ih (List.append_cancel_left heq) q hmem
  · intro hall
    induction ps with
    | nil => rfl
    | cons p ps ih =>
      rw [List.flatMap_cons, List.flatMap_cons,
        List.take_of_length_le (hall p List.mem_cons_self),
        ih fun q hq => hall q (List.mem_cons_of_mem _ hq)]

/-- **What the transport loses.**  In either loader, with the ring empty at
the start and at every packet, the bytes returned and still waiting are the
packets exactly when none of them has more than 63 bytes. -/
theorem cdc_lossless_iff (loader : Loader) (r : CdcRing loader) (actions : List CdcAction)
    (hstart : r.tail = r.head) (hempty : EmptyAtPackets r actions) :
    (cdcRun r actions).1 ++ (cdcRun r actions).2.contents =
        (packets actions).flatMap OutPacket.bytes ↔
      ∀ p ∈ packets actions, p.bytes.length ≤ 63 := by
  have hcap : loader.cdcBufSize - 1 = 63 := by
    cases loader with
    | stage1 => rfl
    | stage2 => rfl
  rw [cdcRun_bytes actions (Ring.holds_empty hstart) hempty, List.nil_append, hcap]
  exact cut_packets_iff 63 _

def emptyCdcRing (loader : Loader) : CdcRing loader where
  buf := fun _ => 0
  head := 0
  tail := 0
  head_lt := by
    cases loader with
    | stage1 => decide
    | stage2 => decide
  tail_lt := by
    cases loader with
    | stage1 => decide
    | stage2 => decide

/-- A packet of `k + 1` bytes. -/
def packetOf (k : Fin 64) : OutPacket where
  bytes := List.replicate (k + 1) 0x55
  size_pos := by rw [List.length_replicate]; exact Nat.succ_pos _
  size_le := by rw [List.length_replicate]; exact k.isLt

/-- Two short packets, the first read to the end and past it. -/
def shortPacketRun : List CdcAction :=
  [.packet (packetOf 1), .get, .get, .get, .packet (packetOf 2), .get]

theorem short_packets_lossless :
    (cdcRun (emptyCdcRing .stage2) shortPacketRun).1 ++
        (cdcRun (emptyCdcRing .stage2) shortPacketRun).2.contents =
      (packets shortPacketRun).flatMap OutPacket.bytes := by
  apply (cdc_lossless_iff .stage2 (emptyCdcRing .stage2) shortPacketRun rfl
    ⟨rfl, rfl, trivial⟩).mpr
  intro p hp
  simp only [shortPacketRun, packets, List.mem_cons, List.not_mem_nil, or_false] at hp
  rcases hp with rfl | rfl
  · exact Nat.le_of_ble_eq_true rfl
  · exact Nat.le_of_ble_eq_true rfl

/-- A packet of 64 bytes and 64 reads. -/
def fullPacketRun : List CdcAction := .packet (packetOf 63) :: List.replicate 64 .get

/-- A full packet loses its last byte in both loaders. -/
theorem full_packet_loses_byte :
    (cdcRun (emptyCdcRing .stage1) fullPacketRun).1 ≠
        (packets fullPacketRun).flatMap OutPacket.bytes ∧
      (cdcRun (emptyCdcRing .stage2) fullPacketRun).1 ≠
        (packets fullPacketRun).flatMap OutPacket.bytes := by
  constructor
  · decide +kernel
  · decide +kernel

end NavHAL.Boot
