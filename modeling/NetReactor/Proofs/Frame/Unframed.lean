import Mathlib.Data.List.TakeWhile
import NetReactor.Proofs.Frame.RoundTrip

/-!
# Without framing

With a negative offset a layout frames nothing: whatever has arrived is one frame. **But the longest
frame allowed still holds for it**, so an assembler gives back every receive up to the first that is
longer than that, and refuses this one (`takes_foldl`). It delivers them all just if none is longer
(`delivers_iff_allowed`).
-/

namespace NetReactor

/-! ## A receive as a frame -/

namespace LengthField

variable {p : LengthField}

/-- Whatever has arrived is a frame as long as it is. -/
theorem toInt_frameLength_of_unframed (hoff : p.offset < 0) {data : Bytes}
    (hlen : data.length ≤ receiveRoom) : (p.frameLength data).toInt = data.length := by
  have hroom : data.length ≤ 65536 := hlen
  rw [frameLength, if_pos hoff, Nat.min_eq_left (by omega)]
  exact Int32.toInt_ofNat_of_lt (by omega)

theorem frameSize_of_unframed (hoff : p.offset < 0) {data : Bytes} (hne : data ≠ [])
    (hlen : data.length ≤ receiveRoom) :
    (Framing.mk p none).frameSize data =
      if data.length ≤ p.maxFrame.toNat then .ok (some data.length)
      else .error (.invalidPacket data.length p.maxFrame.toNat) := by
  have hpos := List.length_pos_iff.2 hne
  have hsize : ((Framing.mk p none).announced data).toInt = data.length :=
    toInt_frameLength_of_unframed hoff hlen
  simp only [Framing.frameSize, hsize]
  rw [if_neg (by omega)]
  by_cases hle : data.length ≤ p.maxFrame.toNat
  · rw [if_neg (by omega), if_pos hle, Int.toNat_natCast]
  · rw [if_pos (by omega), if_neg hle]

end LengthField

namespace Assembler

/-! ## Receives -/

/-- Takes one more receive into account, unless one was refused before. -/
def receiveNext (f : Framing) : Receipt → (data : Bytes) → Receipt
  | ⟨a, packets, some e⟩, _ => ⟨a, packets, some e⟩
  | ⟨a, packets, none⟩, data =>
    let later := (a.write data).commit f data.length
    { later with packets := packets ++ later.packets }

/-- Takes receives into account one after the other, up to the first refusal. -/
def receiveAll (f : Framing) (receives : List Bytes) (a : Assembler) : Receipt :=
  receives.foldl (receiveNext f) ⟨a, #[], none⟩

theorem receiveNext_of_failure {f : Framing} {r : Receipt} {e : Failure} (hr : r.failure = some e)
    (data : Bytes) : receiveNext f r data = r := by
  obtain ⟨a, packets, failure⟩ := r
  subst hr
  rfl

theorem foldl_receiveNext_of_failure {f : Framing} {r : Receipt} {e : Failure}
    (hr : r.failure = some e) (receives : List Bytes) : receives.foldl (receiveNext f) r = r := by
  induction receives with
  | nil => rfl
  | cons data rest ih => rw [List.foldl_cons, receiveNext_of_failure hr, ih]

theorem capacity_receiveNext (f : Framing) (r : Receipt) (data : Bytes) :
    (receiveNext f r data).assembler.capacity = r.assembler.capacity := by
  obtain ⟨a, packets, failure⟩ := r
  cases failure with
  | some e => rfl
  | none => exact (capacity_commit f data.length _).trans (size_overlay data a.buffer a.filled)

/-- A fresh assembler runs over just what is received. -/
theorem Fresh.outcome_commit {a : Assembler} (ha : a.Fresh) (f : Framing) {data : Bytes}
    (hroom : data.length ≤ a.capacity) : ∃ full,
    ((a.write data).commit f data.length).outcome = (scan f full none #[] #[] data).outcome := by
  have hfits : a.filled + data.length ≤ a.capacity := by rw [ha.filled]; omega
  have htaken := take_write hfits
  rw [ha.filled, ha.buffered_eq_nil, Nat.zero_add, List.nil_append] at htaken
  have hcap : (a.write data).capacity = a.capacity := size_overlay data a.buffer a.filled
  have hstop : min ((a.write data).filled + data.length) (a.write data).capacity = data.length := by
    rw [hcap, show (a.write data).filled = 0 from ha.filled]
    omega
  refine ⟨decide (data.length = (a.write data).capacity), ?_⟩
  rw [(Assembler.outcome_commit f hstop decide_eq_true_iff).1, htaken,
    show (a.write data).expected = none from ha.expected,
    show (a.write data).frame = #[] from ha.frame]

section
variable {p : LengthField}

/-- What is delivered of a receive. -/
def stripped (p : LengthField) (data : Bytes) : Bytes := data.drop (min p.strip.toNat data.length)

/-- **A receive is one packet, unless it is longer than a frame may be.** -/
theorem outcome_receive (hoff : p.offset < 0) {a : Assembler} (ha : a.Fresh) {data : Bytes}
    (hne : data ≠ []) (hlen : data.length ≤ receiveRoom) (hroom : data.length ≤ a.capacity) :
    ((a.write data).commit ⟨p, none⟩ data.length).outcome =
      if data.length ≤ p.maxFrame.toNat then ⟨[stripped p data], .waiting none [] []⟩
      else ⟨[], .refused (.invalidPacket data.length p.maxFrame.toNat)⟩ := by
  obtain ⟨full, hout⟩ := ha.outcome_commit ⟨p, none⟩ hroom
  have hsize := LengthField.frameSize_of_unframed hoff hne hlen
  have hpos := List.length_pos_iff.2 hne
  rw [hout]
  by_cases hle : data.length ≤ p.maxFrame.toNat
  · rw [if_pos hle] at hsize ⊢
    rw [scan_of_frameSize hne hsize, scan_some hne (by simpa using hpos)]
    simp only [List.size_toArray, List.length_nil, Nat.sub_zero, Nat.lt_irrefl, if_false,
      List.drop_length, List.take_length]
    rw [scan.eq_def]
    simp [Scan.outcome, payload_eq, stripped]
  · rw [if_neg hle] at hsize ⊢
    obtain ⟨b, tail, rfl⟩ := List.exists_cons_of_ne_nil hne
    rw [scan.eq_def]
    simp [hsize, Scan.outcome]

/-- A receive that is not too long adds its packet and leaves nothing open. -/
theorem receiveNext_of_allowed (hoff : p.offset < 0) {r : Receipt} (hok : r.failure = none)
    (ha : r.assembler.Fresh) {data : Bytes} (hne : data ≠ []) (hlen : data.length ≤ receiveRoom)
    (hroom : data.length ≤ r.assembler.capacity) (hle : data.length ≤ p.maxFrame.toNat) :
    (receiveNext ⟨p, none⟩ r data).failure = none ∧
      (receiveNext ⟨p, none⟩ r data).packets.toList = r.packets.toList ++ [stripped p data] ∧
      (receiveNext ⟨p, none⟩ r data).assembler.Fresh := by
  obtain ⟨a, packets, failure⟩ := r
  subst hok
  have hpos := List.length_pos_iff.2 hne
  have hout := outcome_receive hoff ha hne hlen hroom
  rw [if_pos hle] at hout
  have hcap : 0 < ((a.write data).commit ⟨p, none⟩ data.length).assembler.capacity := by
    rw [capacity_commit, show (a.write data).capacity = a.capacity from size_overlay data a.buffer _]
    exact Nat.lt_of_lt_of_le hpos hroom
  obtain ⟨hnext, hpackets, hfresh⟩ := fresh_of_outcome hcap hout
  refine ⟨hnext, ?_, hfresh⟩
  simp only [receiveNext, Array.toList_append, hpackets]

/-- A receive that is too long is refused, and adds nothing. -/
theorem receiveNext_of_too_long (hoff : p.offset < 0) {r : Receipt} (hok : r.failure = none)
    (ha : r.assembler.Fresh) {data : Bytes} (hne : data ≠ []) (hlen : data.length ≤ receiveRoom)
    (hroom : data.length ≤ r.assembler.capacity) (hlt : p.maxFrame.toNat < data.length) :
    (receiveNext ⟨p, none⟩ r data).failure = some (.invalidPacket data.length p.maxFrame.toNat) ∧
      (receiveNext ⟨p, none⟩ r data).packets.toList = r.packets.toList := by
  obtain ⟨a, packets, failure⟩ := r
  subst hok
  have hout := outcome_receive hoff ha hne hlen hroom
  rw [if_neg (Nat.not_le.2 hlt)] at hout
  simp only [receiveNext]
  generalize (a.write data).commit ⟨p, none⟩ data.length = later at hout ⊢
  obtain ⟨a', cut, failure⟩ := later
  cases failure with
  | none => exact absurd (congrArg Parsed.standing hout) Standing.noConfusion
  | some e =>
    simp only [Receipt.outcome, Parsed.mk.injEq, Standing.refused.injEq] at hout
    simp [hout]

/-- What becomes of receives: those before the first that is too long are packets, and that one is
refused. -/
structure Takes (p : LengthField) (receives : List Bytes) (before : List Bytes) (r : Receipt) : Prop where
  packets : r.packets.toList =
    before ++ (receives.takeWhile fun data => data.length ≤ p.maxFrame.toNat).map (stripped p)
  failure : r.failure = (receives.find? fun data => p.maxFrame.toNat < data.length).map
    fun data => .invalidPacket data.length p.maxFrame.toNat
  fresh : r.failure = none → r.assembler.Fresh

theorem takes_foldl (hoff : p.offset < 0) {receives : List Bytes}
    (hreceives : ∀ data ∈ receives, 1 ≤ data.length ∧ data.length ≤ receiveRoom) {r : Receipt}
    (hok : r.failure = none) (ha : r.assembler.Fresh) (hroom : r.assembler.capacity = receiveRoom) :
    Takes p receives r.packets.toList (receives.foldl (receiveNext ⟨p, none⟩) r) := by
  induction receives generalizing r with
  | nil => exact ⟨by simp, by simpa using hok, fun _ => ha⟩
  | cons data rest ih =>
    obtain ⟨hpos, hlen⟩ := hreceives data List.mem_cons_self
    have hne : data ≠ [] := List.ne_nil_of_length_pos hpos
    rw [List.foldl_cons]
    by_cases hle : data.length ≤ p.maxFrame.toNat
    · obtain ⟨hok', hpackets, ha'⟩ := receiveNext_of_allowed hoff hok ha hne hlen (hroom ▸ hlen) hle
      have hroom' := (capacity_receiveNext ⟨p, none⟩ r data).trans hroom
      obtain ⟨hpackets', hfailure, hfresh⟩ :=
        ih (fun x hx => hreceives x (List.mem_cons_of_mem data hx)) hok' ha' hroom'
      refine ⟨?_, ?_, hfresh⟩
      · rw [hpackets', hpackets]
        simp [hle]
      · rw [hfailure]
        simp [Nat.not_lt.2 hle]
    · have hlt := Nat.lt_of_not_le hle
      obtain ⟨hfail, hpackets⟩ := receiveNext_of_too_long hoff hok ha hne hlen (hroom ▸ hlen) hlt
      rw [foldl_receiveNext_of_failure hfail]
      refine ⟨?_, ?_, fun hnone => ?_⟩
      · rw [hpackets]
        simp [hle]
      · rw [hfail]
        simp [hlt]
      · simp [hfail] at hnone

/-- Every receive is a packet of its own, in order, and nothing stays open. -/
structure Delivers (p : LengthField) (receives : List Bytes) (r : Receipt) : Prop where
  ok : r.failure = none
  packets : r.packets.toList = receives.map (stripped p)
  fresh : r.assembler.Fresh

theorem Takes.delivers_iff {receives : List Bytes} {r : Receipt} (h : Takes p receives [] r) :
    Delivers p receives r ↔ ∀ data ∈ receives, data.length ≤ p.maxFrame.toNat := by
  constructor
  · intro hall data hdata
    have hnone := h.failure.symm.trans hall.ok
    rw [Option.map_eq_none_iff, List.find?_eq_none] at hnone
    simpa using hnone data hdata
  · intro hall
    have hok : r.failure = none := by
      rw [h.failure, Option.map_eq_none_iff, List.find?_eq_none]
      intro data hdata
      simpa using hall data hdata
    refine ⟨hok, ?_, h.fresh hok⟩
    rw [h.packets, List.nil_append, List.takeWhile_eq_self_iff.2]
    simpa using hall

theorem takes_receiveAll (hoff : p.offset < 0) {receives : List Bytes}
    (hreceives : ∀ data ∈ receives, 1 ≤ data.length ∧ data.length ≤ receiveRoom) :
    Takes p receives [] (new.receiveAll ⟨p, none⟩ receives) := by
  have hroom : new.capacity = receiveRoom := by simp [new, withCapacity, capacity, receiveRoom]
  exact takes_foldl (r := ⟨new, #[], none⟩) hoff hreceives rfl (fresh_withCapacity receiveRoom) hroom

/-- **Without framing a new assembler delivers each receive as one packet up to the first that is longer
than a frame may be, and refuses that one.** So it delivers them all just if none is longer. -/
theorem delivers_iff_allowed (hoff : p.offset < 0) {receives : List Bytes}
    (hreceives : ∀ data ∈ receives, 1 ≤ data.length ∧ data.length ≤ receiveRoom) :
    Takes p receives [] (new.receiveAll ⟨p, none⟩ receives) ∧
      (Delivers p receives (new.receiveAll ⟨p, none⟩ receives) ↔
        ∀ data ∈ receives, data.length ≤ p.maxFrame.toNat) :=
  ⟨takes_receiveAll hoff hreceives, (takes_receiveAll hoff hreceives).delivers_iff⟩

end

/-- A receive as long as a frame may be goes through, the next is one octet longer. -/
theorem delivers_up_to_fifth_octet :
    let p : LengthField := ⟨4, -1, 4, 0, 1⟩
    let receives : List Bytes := [[1, 2, 3, 4], [5], [1, 2, 3, 4, 5], [6, 7]]
    p.offset < 0 ∧ (∀ data ∈ receives, 1 ≤ data.length ∧ data.length ≤ receiveRoom) ∧
      (new.receiveAll ⟨p, none⟩ receives).packets.toList = [[2, 3, 4], []] ∧
      (new.receiveAll ⟨p, none⟩ receives).failure = some (.invalidPacket 5 4) ∧
      ¬ Delivers p receives (new.receiveAll ⟨p, none⟩ receives) := by
  intro p receives
  have hoff : p.offset < 0 := by decide
  have hreceives : ∀ data ∈ receives, 1 ≤ data.length ∧ data.length ≤ receiveRoom := by decide
  obtain ⟨htakes, hiff⟩ := delivers_iff_allowed hoff hreceives
  exact ⟨hoff, hreceives, htakes.packets, htakes.failure, fun h => absurd (hiff.1 h) (by decide)⟩

/-- **Not every receive is delivered**: one octet more than a frame may have, and it is refused. -/
theorem refused_without_framing : ¬ ∀ (p : LengthField) (receives : List Bytes), p.isValid →
    p.offset < 0 → (∀ data ∈ receives, 1 ≤ data.length ∧ data.length ≤ receiveRoom) →
    Delivers p receives (new.receiveAll ⟨p, none⟩ receives) := by
  intro hall
  have hdelivers := hall ⟨4, -1, 4, 0, 0⟩ [[1, 2, 3, 4, 5]] (by decide) (by decide) (by decide)
  exact absurd ((takes_receiveAll (by decide) (by decide)).delivers_iff.1 hdelivers) (by decide)

end Assembler

end NetReactor
