import Mathlib.Algebra.Group.Int.Defs
import NetReactor.Proofs.Frame.Chunking
import NetReactor.Proofs.Frame.Cut

/-!
# Decoding undoes encoding

What a layout can say about a frame is a `Message`: octets before the field, octets behind it, and a length
that the field can hold and the maximum allows. Encoded one behind the other, messages are a stream whose
reference parse is just their frames, with nothing open behind the last (`parse_frames`). **An assembler
that is fed the stream in any pieces gives them back** (`feedAll_frames`); all it needs is room for a
header, not for a frame.
-/

namespace NetReactor

/-- What can be encoded in a layout. -/
structure Message (p : LengthField) where
  lead : Bytes
  body : Bytes
  lead_length : lead.length = p.start
  allowed : p.headerLength + body.length ≤ p.maxFrame.toNat
  /-- What the field holds is not negative. -/
  value_nonneg : 0 ≤ (p.headerLength + body.length : Int) - p.adjustment.toInt
  /-- What the field holds fits into its octets. -/
  value_lt : (p.headerLength + body.length : Int) - p.adjustment.toInt < 256 ^ p.width.toNat

namespace Message

variable {p : LengthField} {c : Nat}

def total (m : Message p) : Nat := p.headerLength + m.body.length

def frame (m : Message p) : Bytes := p.encode m.lead m.body

/-- What is delivered of the frame. -/
def packet (m : Message p) : Bytes := m.frame.drop (min p.strip.toNat m.total)

/-- What the field holds. -/
def value (m : Message p) : Nat := ((m.total : Int) - p.adjustment.toInt).toNat

theorem frame_eq (m : Message p) : m.frame = m.lead ++ (Bytes.ofNat p.width.toNat m.value ++ m.body) := by
  rw [frame, LengthField.encode, List.append_assoc]
  rfl

theorem length_frame (m : Message p) : m.frame.length = m.total := by
  rw [frame_eq, List.length_append, List.length_append, Bytes.length_ofNat, m.lead_length, total,
    LengthField.headerLength, Nat.add_assoc]

theorem headerLength_le_total (m : Message p) : p.headerLength ≤ m.total := Nat.le_add_right _ _

/-- The header says how long the frame is, whatever stands behind it. -/
theorem announced_frame (m : Message p) (more : Bytes) : p.announced (m.frame ++ more) = m.total := by
  have hnonneg : 0 ≤ (m.total : Int) - p.adjustment.toInt := m.value_nonneg
  have hlt : (m.total : Int) - p.adjustment.toInt < 256 ^ p.width.toNat := m.value_lt
  have hvalue : (m.value : Int) = m.total - p.adjustment.toInt := Int.toNat_of_nonneg hnonneg
  have hfits : m.value < Nat.pow 256 p.width.toNat := by
    have hcast : ((Nat.pow 256 p.width.toNat : Nat) : Int) = 256 ^ p.width.toNat :=
      Int.natCast_pow 256 p.width.toNat
    omega
  have hfield : ((m.frame ++ more).drop p.start).take p.width.toNat =
      Bytes.ofNat p.width.toNat m.value := by
    rw [frame_eq, List.append_assoc, List.drop_left' m.lead_length, List.append_assoc,
      List.take_left' (Bytes.length_ofNat _ _)]
  rw [LengthField.announced, hfield, Bytes.bigEndian_ofNat _ _ hfits]
  omega

/-- The size of a frame shows as soon as its header is there. -/
theorem frameSize_frame (h : p.Sound) (hoff : 0 ≤ p.offset) (hc : p.headerLength ≤ c) (m : Message p)
    (more : Bytes) : (Framing.mk p none).frameSize ((m.frame ++ more).take c) = .ok (some m.total) := by
  have hheader := m.headerLength_le_total
  refine LengthField.frameSize_of_announced h hoff ?_ ?_ hheader m.allowed
  · rw [List.length_take, List.length_append, length_frame]
    omega
  · rw [LengthField.announced_take hc, announced_frame]

/-- **The reference parse of frames is their packets**, with nothing open. -/
theorem parse_frames (h : p.Sound) (hoff : 0 ≤ p.offset) (hc : p.headerLength ≤ c) (ms : List (Message p)) :
    (Framing.mk p none).parse c (ms.map frame).flatten = ⟨ms.map packet, .waiting none [] []⟩ := by
  induction ms with
  | nil => exact Framing.parse_nil _ c
  | cons m ms ih =>
    have hlen := m.length_frame
    have hne : m.frame ++ (ms.map frame).flatten ≠ [] := by
      have hpos := LengthField.headerLength_pos h
      have hheader := m.headerLength_le_total
      exact List.append_ne_nil_of_left_ne_nil (List.ne_nil_of_length_pos (by omega)) _
    have hwhole : ¬ (m.frame ++ (ms.map frame).flatten).length < m.total := by
      rw [List.length_append]
      omega
    rw [List.map_cons, List.flatten_cons, Framing.parse_of_some hne (frameSize_frame h hoff hc m _),
      if_neg hwhole, List.drop_left' hlen, List.take_left' hlen, ih]
    rfl

end Message

namespace Assembler

/-! ## An assembler that holds nothing -/

/-- As new, or as `reset` leaves it: nothing is buffered and no size is expected. -/
structure Fresh (a : Assembler) : Prop where
  filled : a.filled = 0
  frame : a.frame = #[]
  expected : a.expected = none

theorem fresh_withCapacity (c : Nat) : (withCapacity c).Fresh := ⟨rfl, rfl, rfl⟩

theorem fresh_reset (a : Assembler) : a.reset.Fresh := ⟨rfl, rfl, rfl⟩

theorem Fresh.buffered_eq_nil {a : Assembler} (ha : a.Fresh) : a.buffered = [] := by
  rw [buffered, ha.filled]
  simp

theorem Fresh.outcome {a : Assembler} (ha : a.Fresh) :
    (⟨a, #[], none⟩ : Receipt).outcome = ⟨[], .waiting none [] []⟩ := by
  rw [Receipt.outcome]
  simp only [ha.frame, ha.expected, ha.buffered_eq_nil]

section
variable {f : Framing}

theorem capacity_commit (f : Framing) (n : Nat) (a : Assembler) :
    (a.commit f n).assembler.capacity = a.capacity := by
  obtain ⟨buffer, filled, frame, expected⟩ := a
  simp only [commit, capacity]
  split
  · rfl
  · exact size_moved buffer _ _

theorem capacity_feed (f : Framing) (data : Bytes) (a : Assembler) :
    (a.feed f data).assembler.capacity = a.capacity := by
  have hfull (a : Assembler) := capacity_commit f 0 a
  have hpiece (piece : Bytes) (a : Assembler) :
      ((a.write piece).commit f piece.length).assembler.capacity = a.capacity :=
    (capacity_commit f piece.length (a.write piece)).trans (size_overlay piece a.buffer a.filled)
  fun_induction feed f data a with
  | case1 a => rfl
  | case2 a b tail _ a' packets e hcommit => simpa only [hcommit] using hfull a
  | case3 a b tail _ a' packets hcommit => simpa only [hcommit] using hfull a
  | case4 a b tail _ a' packets hcommit _ later ih =>
    refine ih.trans ?_
    simpa only [hcommit] using hfull a
  | case5 a b tail room _ piece a' packets e hcommit => simpa only [hcommit] using hpiece piece a
  | case6 a b tail room _ piece a' packets hcommit later ih =>
    refine ih.trans ?_
    simpa only [hcommit] using hpiece piece a

theorem capacity_feedNext (f : Framing) (r : Receipt) (piece : Bytes) :
    (feedNext f r piece).assembler.capacity = r.assembler.capacity := by
  obtain ⟨a, packets, failure⟩ := r
  cases failure with
  | some e => rfl
  | none => exact capacity_feed f piece a

theorem capacity_feedAll (f : Framing) (pieces : List Bytes) (a : Assembler) :
    (a.feedAll f pieces).assembler.capacity = a.capacity := by
  have hfold : ∀ (pieces : List Bytes) (r : Receipt),
      (pieces.foldl (feedNext f) r).assembler.capacity = r.assembler.capacity := by
    intro pieces
    induction pieces with
    | nil => exact fun _ => rfl
    | cons piece rest ih => exact fun r => (ih (feedNext f r piece)).trans (capacity_feedNext f r piece)
  exact hfold pieces ⟨a, #[], none⟩

/-- Where nothing stays open, the assembler is fresh. -/
theorem fresh_of_outcome {r : Receipt} {packets : List Bytes} (hcap : 0 < r.assembler.capacity)
    (h : r.outcome = ⟨packets, .waiting none [] []⟩) :
    r.failure = none ∧ r.packets.toList = packets ∧ r.assembler.Fresh := by
  obtain ⟨a, delivered, failure⟩ := r
  cases failure with
  | some e => exact absurd (congrArg Parsed.standing h) Standing.noConfusion
  | none =>
    simp only [Receipt.outcome, Parsed.mk.injEq, Standing.waiting.injEq] at h
    obtain ⟨hpackets, hexpected, hframe, hbuffered⟩ := h
    have hlen := a.length_buffered
    rw [hbuffered, List.length_nil] at hlen
    have hfilled : a.filled = 0 := by
      simp only at hcap
      omega
    exact ⟨rfl, hpackets, hfilled, Array.toList_eq_nil_iff.1 hframe, hexpected⟩

end

variable {p : LengthField}

/-- **However the frames of messages are cut into receives, an assembler with room for a header gives the
messages back**, one packet each, and is then as it was. -/
theorem feedAll_frames (hvalid : p.isValid) (hoff : 0 ≤ p.offset) (ms : List (Message p)) {a : Assembler}
    (ha : a.Fresh) (hroom : p.headerLength ≤ a.capacity) {pieces : List Bytes}
    (hpieces : pieces.flatten = (ms.map Message.frame).flatten) :
    (a.feedAll ⟨p, none⟩ pieces).failure = none ∧
      (a.feedAll ⟨p, none⟩ pieces).packets.toList = ms.map Message.packet ∧
      (a.feedAll ⟨p, none⟩ pieces).assembler.Fresh := by
  have hsound := LengthField.sound_of_isValid hvalid hoff
  have hstable := Framing.prefixStable_of_layout hoff
  have hpos := LengthField.headerLength_pos hsound
  have hcap : 0 < (a.feedAll ⟨p, none⟩ pieces).assembler.capacity := by
    rw [capacity_feedAll]
    omega
  have hempty : (⟨a, #[], none⟩ : Receipt).outcome = (Framing.mk p none).parse a.capacity [] := by
    rw [ha.outcome, Framing.parse_nil]
  have houtcome := outcome_foldl_feedNext hstable (by omega) pieces hempty rfl
  rw [List.nil_append, hpieces, Message.parse_frames hsound hoff hroom ms] at houtcome
  exact fresh_of_outcome hcap houtcome

/-- A frame without a body, whose field holds 0, and one that is as long as allowed, through a buffer that
has room for a header and no more. -/
theorem feedAll_frames_through_header :
    let p : LengthField := ⟨8, 1, 1, 2, 3⟩
    let empty : Message p := ⟨[7], [], by decide, by decide, by decide, by decide⟩
    let longest : Message p := ⟨[9], [1, 2, 3, 4, 5, 6], by decide, by decide, by decide, by decide⟩
    let pieces : List Bytes := [[7], [], [0, 9, 6, 1], [2, 3, 4, 5, 6]]
    p.isValid ∧ 0 ≤ p.offset ∧ (withCapacity 2).Fresh ∧ p.headerLength ≤ (withCapacity 2).capacity ∧
      pieces.flatten = ([empty, longest].map Message.frame).flatten ∧
      ((withCapacity 2).feedAll ⟨p, none⟩ pieces).failure = none ∧
      ((withCapacity 2).feedAll ⟨p, none⟩ pieces).packets.toList = [[], [2, 3, 4, 5, 6]] ∧
      ((withCapacity 2).feedAll ⟨p, none⟩ pieces).assembler.Fresh := by
  intro p empty longest pieces
  have hvalid : p.isValid := by decide
  have hfresh := fresh_withCapacity 2
  exact ⟨hvalid, by decide, hfresh, by decide, by decide,
    feedAll_frames hvalid (by decide) [empty, longest] hfresh (by decide) (by decide)⟩

end Assembler

end NetReactor
