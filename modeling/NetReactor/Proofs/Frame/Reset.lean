import NetReactor.Proofs.Frame.RoundTrip

/-!
# A reset forgets

`reset` takes the counters back and leaves the buffer as it was, with all the octets of before. **None of
them is looked at again**: whatever is fed, or written and committed, after a reset, a new assembler of
the same room shows the same (`views_reset`), and what it delivers is made of octets given since.

Two assemblers are `Alike` when they agree on everything but the octets behind a mark: those buffered,
and as many in the spare room as were written there, come before it. A write moves the mark on, a commit
looks no further than the mark and leaves less than that behind, and a feed writes what it commits.
-/

namespace NetReactor

/-- What is done with an assembler. -/
inductive Use
  | write (data : Bytes)
  | commit (f : Framing) (n : Nat)
  | feed (f : Framing) (data : Bytes)

/-- What is seen of an assembler after a use. -/
structure View where
  packets : Array Bytes
  failure : Option Failure
  buffered : Nat
  expected : Option Nat
deriving DecidableEq

def Receipt.view (r : Receipt) : View := ⟨r.packets, r.failure, r.assembler.filled, r.assembler.expected⟩

namespace Use

/-- The octets that a use gives to the assembler. -/
def octets : Use → Bytes
  | write data => data
  | commit _ _ => []
  | feed _ data => data

/-- How many octets of the spare room were written after a use, if it was `k` before. -/
def written (k : Nat) : Use → Nat
  | write data => max k data.length
  | commit _ n => k - n
  | feed _ _ => 0

/-- No commit takes more than was written. -/
def Covered : (written : Nat) → List Use → Prop
  | _, [] => True
  | k, u :: rest => (∀ f n, u = commit f n → n ≤ k) ∧ Covered (u.written k) rest

end Use

namespace Assembler

def use : Use → Assembler → Receipt
  | .write data, a => ⟨a.write data, #[], none⟩
  | .commit f n, a => a.commit f n
  | .feed f data, a => a.feed f data

/-- What is seen of an assembler along some uses, refusals among them. -/
def views : List Use → Assembler → List View
  | [], _ => []
  | u :: rest, a => (a.use u).view :: views rest (a.use u).assembler

/-! ## Buffers up to a mark -/

/-- Two buffers hold the same octets up to a mark, all of one kind. -/
structure SameUpTo (P : UInt8 → Prop) (mark : Nat) (x y : Array UInt8) : Prop where
  size : x.size = y.size
  same : ∀ j < mark, x[j]? = y[j]?
  given : ∀ j < mark, ∀ b ∈ x[j]?, P b

theorem getElem?_overlay (data : Bytes) : ∀ (x : Array UInt8) (i j : Nat), (overlay x i data)[j]? =
    if i ≤ j ∧ j < i + data.length ∧ j < x.size then data[j - i]? else x[j]? := by
  induction data with
  | nil =>
    intro x i j
    rw [if_neg (by simp only [List.length_nil]; omega)]
    rfl
  | cons b rest ih =>
    intro x i j
    rw [overlay, ih, Array.size_setIfInBounds, Array.getElem?_setIfInBounds, List.length_cons]
    by_cases hj : j = i
    · subst hj
      by_cases hin : j < x.size
      · rw [if_neg (by omega), if_pos rfl, if_pos hin, if_pos (by omega), Nat.sub_self]
        rfl
      · rw [if_neg (by omega), if_pos rfl, if_neg hin, if_neg (by omega)]
        exact (Array.getElem?_eq_none (by omega)).symm
    · rw [if_neg (Ne.symm hj)]
      by_cases hin : i + 1 ≤ j ∧ j < i + 1 + rest.length ∧ j < x.size
      · obtain ⟨n, hn⟩ : ∃ n, j - i = n + 1 := ⟨j - i - 1, by omega⟩
        rw [if_pos hin, if_pos (by omega), hn, show j - (i + 1) = n by omega]
        rfl
      · rw [if_neg hin, if_neg (by omega)]

namespace SameUpTo

variable {P : UInt8 → Prop} {mark : Nat} {x y : Array UInt8}

theorem mono {mark' : Nat} (h : SameUpTo P mark x y) (hle : mark' ≤ mark) : SameUpTo P mark' x y where
  size := h.size
  same j hj := h.same j (by omega)
  given j hj := h.given j (by omega)

/-- What is written over both moves the mark on, if it begins before it. -/
theorem overlay (h : SameUpTo P mark x y) {i : Nat} (hi : i ≤ mark) {data : Bytes}
    (hdata : ∀ b ∈ data, P b) :
    SameUpTo P (max mark (i + data.length)) (overlay x i data) (overlay y i data) where
  size := by rw [size_overlay, size_overlay, h.size]
  same j hj := by
    rw [getElem?_overlay, getElem?_overlay, ← h.size]
    split
    · rfl
    · rename_i hout
      by_cases hmark : j < mark
      · exact h.same j hmark
      · -- what does not fit into the buffers is lost in both
        have hx : x.size ≤ j := by omega
        rw [Array.getElem?_eq_none hx, Array.getElem?_eq_none (h.size ▸ hx)]
  given j hj b hb := by
    rw [getElem?_overlay] at hb
    split at hb
    · exact hdata b (List.mem_of_getElem? hb)
    · rename_i hout
      by_cases hmark : j < mark
      · exact h.given j hmark b hb
      · rw [Array.getElem?_eq_none (by omega)] at hb
        simp at hb

theorem toList_take_eq (h : SameUpTo P mark x y) {n : Nat} (hn : n ≤ mark) :
    (x.take n).toList = (y.take n).toList := by
  rw [toList_take, toList_take]
  refine List.ext_getElem? fun j => ?_
  rw [List.getElem?_take, List.getElem?_take, Array.getElem?_toList, Array.getElem?_toList]
  split
  · exact h.same j (by omega)
  · rfl

theorem forall_take (h : SameUpTo P mark x y) {n : Nat} (hn : n ≤ mark) :
    ∀ b ∈ (x.take n).toList, P b := by
  intro b hb
  rw [toList_take] at hb
  obtain ⟨j, hj⟩ := List.mem_iff_getElem?.1 hb
  rw [List.getElem?_take, Array.getElem?_toList] at hj
  split at hj
  · exact h.given j (by omega) b hj
  · simp at hj

end SameUpTo

/-! ## Assemblers that cannot be told apart -/

/-- Alike but for the octets that lie further behind what is buffered than `k`. -/
structure Alike (P : UInt8 → Prop) (k : Nat) (a b : Assembler) : Prop where
  filled : a.filled = b.filled
  frame : a.frame = b.frame
  expected : a.expected = b.expected
  buffer : SameUpTo P (a.filled + k) a.buffer b.buffer
  begun : ∀ x ∈ a.frame, P x

/-- The same packets, of octets of one kind, and the same refusal. -/
structure SameReceipt (P : UInt8 → Prop) (k : Nat) (r s : Receipt) : Prop where
  assembler : r.assembler.Alike P k s.assembler
  packets : r.packets = s.packets
  failure : r.failure = s.failure
  given : ∀ packet ∈ r.packets, ∀ x ∈ packet, P x

section
variable {P : UInt8 → Prop} {k : Nat} {f : Framing}

/-- Packets and the frame in progress are made of what was there before. -/
theorem forall_scan (f : Framing) (full : Bool) (expected : Option Nat) {frame : Array UInt8}
    {packets : Array Bytes} {rest : Bytes} (hframe : ∀ x ∈ frame, P x) (hpackets : ∀ packet ∈ packets, ∀ x ∈ packet, P x)
    (hrest : ∀ x ∈ rest, P x) :
    (∀ x ∈ (scan f full expected frame packets rest).frame, P x) ∧
      ∀ packet ∈ (scan f full expected frame packets rest).packets, ∀ x ∈ packet, P x := by
  induction hn : rest.length using Nat.strongRecOn
    generalizing full expected frame packets rest with
  | ind n ih =>
    cases rest with
    | nil =>
      rw [scan.eq_def]
      exact ⟨hframe, hpackets⟩
    | cons b tail =>
      rw [scan.eq_def]
      simp only
      split
      · exact ⟨hframe, hpackets⟩
      · exact ⟨hframe, hpackets⟩
      · split
        · exact ⟨hframe, hpackets⟩
        · rename_i missing _
          rw [foldl_push_take]
          have hgrown : ∀ x ∈ frame ++ ((b :: tail).take (missing + 1)).toArray, P x := by
            intro x hx
            rcases Array.mem_append.1 hx with hx | hx
            · exact hframe x hx
            · exact hrest x (List.mem_of_mem_take (List.mem_toArray.1 hx))
          split
          · have hlt : (tail.drop missing).length < n := by simp at hn ⊢; omega
            refine ih _ hlt _ _ (by simp) (fun packet hp x hx => ?_)
              (fun x hx => hrest x (List.mem_cons_of_mem b (List.mem_of_mem_drop hx))) rfl
            rcases Array.mem_push.1 hp with hp | rfl
            · exact hpackets packet hp x hx
            · exact hgrown x (Array.mem_toList_iff.1 (List.mem_of_mem_drop hx))
          · exact ⟨hgrown, hpackets⟩

namespace Alike

variable {a b : Assembler}

theorem mono (h : Alike P k a b) {k' : Nat} (hle : k' ≤ k) : Alike P k' a b :=
  { h with buffer := h.buffer.mono (by omega) }

theorem spare (h : Alike P k a b) : a.spare = b.spare := by
  rw [Assembler.spare, Assembler.spare, capacity, capacity, h.buffer.size, h.filled]

theorem write (h : Alike P k a b) {data : Bytes} (hdata : ∀ x ∈ data, P x) :
    Alike P (max k data.length) (a.write data) (b.write data) where
  filled := h.filled
  frame := h.frame
  expected := h.expected
  buffer := by
    have hbuffer := h.buffer.overlay (Nat.le_add_right a.filled k) hdata
    have hmark : a.filled + max k data.length ≤ max (a.filled + k) (a.filled + data.length) := by omega
    have hwritten : (b.write data).buffer = Assembler.overlay b.buffer a.filled data := by
      rw [h.filled]
      rfl
    rw [hwritten]
    exact hbuffer.mono hmark
  begun := h.begun

/-- **A commit of no more than was written looks at nothing else.** -/
theorem commit (h : Alike P k a b) {n : Nat} (hn : n ≤ k) :
    SameReceipt P (k - n) (a.commit f n) (b.commit f n) := by
  obtain ⟨x, filled, frame, expected⟩ := a
  obtain ⟨y, filled', frame', expected'⟩ := b
  obtain ⟨hfilled, hframe, hexpected, hbuffer, hbegun⟩ := h
  simp only at hfilled hframe hexpected hbuffer hbegun
  subst hfilled hframe hexpected
  have hstop : min (filled + n) x.size ≤ filled + n := Nat.min_le_left _ _
  have htake := hbuffer.toList_take_eq (n := min (filled + n) x.size) (by omega)
  have hgiven := hbuffer.forall_take (n := min (filled + n) x.size) (by omega)
  have hlen : (x.take (min (filled + n) x.size)).toList.length = min (filled + n) x.size := by simp
  simp only [Assembler.commit, ← hbuffer.size, ← htake]
  generalize min (filled + n) x.size = stop at hstop hgiven hlen ⊢
  have hsuffix := rest_scan_suffix f (decide (stop = x.size)) expected frame #[] (x.take stop).toList
  obtain ⟨hbegun', hpackets⟩ :=
    forall_scan f (decide (stop = x.size)) expected hbegun (Array.forall_mem_empty _) hgiven
  generalize scan f (decide (stop = x.size)) expected frame #[] (x.take stop).toList = s
    at hsuffix hbegun' hpackets ⊢
  have hleft : s.rest.length ≤ stop := hlen ▸ hsuffix.length_le
  cases hfail : s.failure with
  | some e => exact ⟨⟨rfl, rfl, rfl, hbuffer.mono (by simp only; omega), hbegun'⟩, rfl, rfl, hpackets⟩
  | none =>
    refine ⟨⟨rfl, rfl, rfl, ?_, hbegun'⟩, rfl, rfl, hpackets⟩
    simp only
    split
    · exact hbuffer.mono (by omega)
    · exact (hbuffer.overlay (Nat.zero_le _) fun o ho => hgiven o (hsuffix.subset ho)).mono (by omega)

end Alike

theorem SameReceipt.mono {r s : Receipt} (h : SameReceipt P k r s) {k' : Nat} (hle : k' ≤ k) :
    SameReceipt P k' r s :=
  { h with assembler := h.assembler.mono hle }

/-- A piece more leaves receipts the same, if it is fed at all and its feeds are. -/
theorem SameReceipt.feedNext {r s : Receipt} (h : SameReceipt P 0 r s) {piece : Bytes}
    (hfeed : r.failure = none →
      SameReceipt P 0 (r.assembler.feed f piece) (s.assembler.feed f piece)) :
    SameReceipt P 0 (feedNext f r piece) (feedNext f s piece) := by
  obtain ⟨a, packets, failure⟩ := r
  obtain ⟨b, packets', failure'⟩ := s
  obtain ⟨halike, hpackets, hfailure, hgiven⟩ := h
  simp only at hpackets hfailure
  subst hpackets hfailure
  cases failure with
  | some e => exact ⟨halike, rfl, rfl, hgiven⟩
  | none =>
    obtain ⟨halike', hpackets, hfailure, hgiven'⟩ := hfeed rfl
    refine ⟨halike', congrArg (packets ++ ·) hpackets, hfailure, fun packet hp => ?_⟩
    rcases Array.mem_append.1 hp with hp | hp
    · exact hgiven packet hp
    · exact hgiven' packet hp

/-- **A feed looks at what was buffered and at what it is given.** -/
theorem Alike.feed {a b : Assembler} (h : Alike P 0 a b) (f : Framing) {data : Bytes}
    (hdata : ∀ x ∈ data, P x) : SameReceipt P 0 (a.feed f data) (b.feed f data) := by
  induction hn : 2 * data.length + (1 - a.spare) using Nat.strongRecOn generalizing data a b with
  | ind n ih =>
    by_cases hne : data = []
    · subst hne
      rw [Assembler.feed, Assembler.feed]
      exact ⟨h, rfl, rfl, by simp⟩
    have hpos := List.length_pos_iff.2 hne
    rcases Nat.eq_zero_or_pos a.spare with hfull | hspare
    · have hcommit := h.commit (f := f) (Nat.le_refl 0)
      rw [feed_of_full hne hfull, feed_of_full hne (h.spare ▸ hfull), ← hcommit.failure,
        ← hcommit.assembler.spare]
      split
      · exact hcommit
      · rename_i hroom
        refine hcommit.feedNext fun hok => ?_
        have hspare : (a.commit f 0).assembler.spare ≠ 0 := fun hzero => hroom ⟨hok, hzero⟩
        exact ih _ (by omega) hcommit.assembler hdata rfl
    · have htake : ∀ x ∈ data.take a.spare, P x := fun x hx => hdata x (List.mem_of_mem_take hx)
      have hdrop : ∀ x ∈ data.drop a.spare, P x := fun x hx => hdata x (List.mem_of_mem_drop hx)
      have hcommit := ((h.write htake).commit (f := f) (Nat.le_max_right _ _)).mono (Nat.zero_le _)
      have hlen : (data.drop a.spare).length = data.length - a.spare := List.length_drop
      rw [feed_of_spare hne hspare, feed_of_spare hne (h.spare ▸ hspare), ← h.spare]
      exact hcommit.feedNext fun _ => ih _ (by omega) hcommit.assembler hdrop rfl

/-! ## Along some uses -/

theorem Alike.use {a b : Assembler} (h : Alike P k a b) {u : Use}
    (hcovered : ∀ f n, u = .commit f n → n ≤ k) (hgiven : ∀ x ∈ u.octets, P x) :
    SameReceipt P (u.written k) (a.use u) (b.use u) := by
  cases u with
  | write data => exact ⟨h.write hgiven, rfl, rfl, by simp [Assembler.use]⟩
  | commit f n => exact h.commit (hcovered f n rfl)
  | feed f data => exact (h.mono (Nat.zero_le k)).feed f hgiven

theorem SameReceipt.view_eq {r s : Receipt} (h : SameReceipt P k r s) : r.view = s.view := by
  rw [Receipt.view, Receipt.view, h.packets, h.failure, h.assembler.filled, h.assembler.expected]

/-- **Assemblers that are alike show the same**, and what they deliver is of the one kind. -/
theorem Alike.views {a b : Assembler} (h : Alike P k a b) {uses : List Use}
    (hcovered : Use.Covered k uses) (hgiven : ∀ x ∈ uses.flatMap Use.octets, P x) :
    a.views uses = b.views uses ∧
      ∀ v ∈ a.views uses, ∀ packet ∈ v.packets, ∀ x ∈ packet, P x := by
  induction uses generalizing k a b with
  | nil => exact ⟨rfl, by simp [Assembler.views]⟩
  | cons u rest ih =>
    obtain ⟨hu, hrest⟩ := hcovered
    rw [List.flatMap_cons] at hgiven
    have hsame := h.use hu fun x hx => hgiven x (List.mem_append_left _ hx)
    obtain ⟨heq, hpackets⟩ :=
      ih hsame.assembler hrest fun x hx => hgiven x (List.mem_append_right _ hx)
    refine ⟨?_, fun v hv => ?_⟩
    · rw [Assembler.views, Assembler.views, hsame.view_eq, heq]
    · rcases List.mem_cons.1 hv with rfl | hv
      · exact hsame.given
      · exact hpackets v hv

end

/-- Fresh assemblers of one room are alike, whatever their buffers hold. -/
theorem Fresh.alike (P : UInt8 → Prop) {a b : Assembler} (ha : a.Fresh) (hb : b.Fresh)
    (hroom : a.capacity = b.capacity) : Alike P 0 a b where
  filled := ha.filled.trans hb.filled.symm
  frame := ha.frame.trans hb.frame.symm
  expected := ha.expected.trans hb.expected.symm
  buffer := ⟨hroom, by simp [ha.filled], by simp [ha.filled]⟩
  begun := by simp [ha.frame]

/-- **After a reset an assembler shows what a new one of the same room shows, whatever state it was in
and whatever is done with it**; so no octet from before the reset is part of a packet. -/
theorem views_reset (a : Assembler) (ha : 0 < a.capacity) (uses : List Use)
    (hcovered : Use.Covered 0 uses) :
    a.reset.views uses = (withCapacity a.capacity).views uses ∧
      ∀ v ∈ a.reset.views uses, ∀ packet ∈ v.packets, ∀ x ∈ packet, x ∈ uses.flatMap Use.octets := by
  have hroom : a.reset.capacity = (withCapacity a.capacity).capacity := by
    simp only [withCapacity, capacity, Array.size_replicate]
    exact (Nat.max_eq_left ha).symm
  have halike := (fresh_reset a).alike (· ∈ uses.flatMap Use.octets) (fresh_withCapacity a.capacity) hroom
  exact halike.views hcovered fun _ hx => hx

/-- A refusal has left octets all over the buffer. Feeds, a commit of less than was written and another
refusal show nothing of them behind the reset. -/
theorem views_reset_of_refused :
    let f : Framing := ⟨.standard, none⟩
    let a := ((withCapacity 8).feed f [0, 0, 0, 2, 7, 7, 7, 7]).assembler
    let uses : List Use := [.feed f [0, 0], .write [0, 5, 9, 1], .commit f 3,
      .feed ⟨.standard, some (FrameDecoder.fixed 2)⟩ [3, 4], .feed f [0, 0, 0, 1]]
    a.filled = 8 ∧ 0 < a.capacity ∧ Use.Covered 0 uses ∧
      a.reset.views uses = [⟨#[], none, 2, none⟩, ⟨#[], none, 2, none⟩, ⟨#[[0, 0, 0, 5, 9]], none, 0, none⟩,
        ⟨#[[3, 4]], none, 0, none⟩, ⟨#[], some (.invalidPacket (-1) 10485760), 4, none⟩] := by
  intro f a uses
  have hroom : 0 < a.capacity := by decide +kernel
  have hcovered : Use.Covered 0 uses := by simp [uses, Use.Covered, Use.written]
  refine ⟨by decide +kernel, hroom, hcovered, ?_⟩
  rw [(views_reset a hroom uses hcovered).1]
  decide +kernel

end Assembler

end NetReactor
