import NetReactor.Frame.Assembler
import NetReactor.Proofs.Frame.Parse

/-!
# Cutting a stream into receives changes nothing

An assembler that is fed a stream piece by piece delivers the packets of the reference parse of the
whole stream, is refused where the parse is, and otherwise holds exactly what the parse leaves open.
**Between two receives an assembler holds what a parse can leave open** (`Ready`), which a commit, and
with it a feed, parses together with the octets that are new (`Ready.outcome_commit`).
-/

namespace NetReactor

/-- What a run has cut off and what it leaves open. -/
def Scan.outcome (s : Scan) : Parsed where
  packets := s.packets.toList
  standing := match s.failure with
    | some e => .refused e
    | none => .waiting s.expected s.frame.toList s.rest

/-- What a receipt delivers and what it leaves open. -/
def Receipt.outcome (r : Receipt) : Parsed where
  packets := r.packets.toList
  standing := match r.failure with
    | some e => .refused e
    | none => .waiting r.assembler.expected r.assembler.frame.toList r.assembler.buffered

namespace Assembler

/-! ## The buffer -/

theorem toList_take (a : Array UInt8) (n : Nat) : (a.take n).toList = a.toList.take n := by
  simp [Array.take_eq_extract]

theorem length_buffered (a : Assembler) : a.buffered.length = min a.filled a.capacity := by
  simp [buffered, capacity]

theorem size_overlay (data : Bytes) :
    ∀ (a : Array UInt8) (i : Nat), (overlay a i data).size = a.size := by
  induction data with
  | nil => intro a i; rfl
  | cons b rest ih => intro a i; simp [overlay, ih]

theorem toList_overlay (data : Bytes) : ∀ (a : Array UInt8) (i : Nat), i + data.length ≤ a.size →
    (overlay a i data).toList = a.toList.take i ++ data ++ a.toList.drop (i + data.length) := by
  induction data with
  | nil => intro a i _; simp [overlay]
  | cons b rest ih =>
    intro a i h
    simp only [List.length_cons] at h
    rw [overlay, ih _ _ (by simp; omega)]
    have hi : i < a.toList.length := by simp; omega
    simp only [Array.toList_setIfInBounds, List.length_cons]
    rw [List.take_add_one, List.getElem?_set_self hi, List.take_set,
      List.set_eq_of_length_le (List.length_take_le i a.toList), List.drop_set]
    simp [Nat.add_assoc, Nat.add_comm 1]

/-- What is written stands behind what was buffered. -/
theorem take_write {a : Assembler} {data : Bytes} (h : a.filled + data.length ≤ a.capacity) :
    ((a.write data).buffer.take (a.filled + data.length)).toList = a.buffered ++ data := by
  obtain ⟨buffer, filled, frame, expected⟩ := a
  simp only [capacity] at h
  simp only [write, buffered, toList_take, toList_overlay data buffer filled h]
  have hfilled : (buffer.toList.take filled).length = filled := by simp; omega
  have hlen : (buffer.toList.take filled ++ data).length = filled + data.length := by
    rw [List.length_append, hfilled]
  rw [List.take_append_of_le_length (Nat.le_of_eq hlen.symm),
    List.take_of_length_le (Nat.le_of_eq hlen)]

theorem size_moved (buffer : Array UInt8) (n : Nat) (rest : Bytes) :
    (if rest.length = n then buffer else overlay buffer 0 rest).size = buffer.size := by
  split
  · rfl
  · exact size_overlay _ _ _

/-- Unread octets that come to the front of the buffer are what is buffered. -/
theorem buffered_of_moved {buffer : Array UInt8} {n : Nat} {rest : Bytes} {frame : Array UInt8}
    {expected : Option Nat} (hle : rest.length ≤ buffer.size)
    (hsame : rest.length = n → rest = (buffer.take n).toList) :
    Assembler.buffered ⟨if rest.length = n then buffer else overlay buffer 0 rest, rest.length, frame,
      expected⟩ = rest := by
  unfold buffered
  split
  · rename_i hlen
    rw [hsame hlen, toList_take]
    simp
  · rw [toList_take, toList_overlay _ _ _ (by omega)]
    simp

/-! ## One run over the unread octets -/

/-- Once the size is found, the run goes on as with a frame of known size. -/
theorem scan_of_frameSize {f : Framing} {full : Bool} {frame : Array UInt8} {packets : Array Bytes}
    {rest : Bytes} {e : Nat} (hrest : rest ≠ []) (hs : f.frameSize rest = .ok (some e)) :
    scan f full none frame packets rest = scan f full (some e) frame packets rest := by
  obtain ⟨b, tail, rfl⟩ := List.exists_cons_of_ne_nil hrest
  rw [scan.eq_def, scan.eq_def f full (some e)]
  simp only [hs]

theorem foldl_push_take (frame : Array UInt8) (b : UInt8) (tail : Bytes) (n : Nat) :
    (tail.take n).foldl Array.push (frame.push b) = frame ++ ((b :: tail).take (n + 1)).toArray := by
  simp

/-- A frame is complete with the octets it misses, if there are so many. -/
theorem size_append_take {frame : Array UInt8} {rest : Bytes} {e n : Nat} (hn : e - frame.size = n + 1) :
    (frame ++ (rest.take (n + 1)).toArray).size = e ↔ ¬ rest.length < n + 1 := by
  simp only [Array.size_append, List.size_toArray, List.length_take]
  omega

/-- The octets of a frame of known size are taken, and the run goes on behind a complete one. -/
theorem scan_some {f : Framing} {full : Bool} {frame : Array UInt8} {packets : Array Bytes}
    {rest : Bytes} {e : Nat} (hrest : rest ≠ []) (hlt : frame.size < e) :
    scan f full (some e) frame packets rest =
      if rest.length < e - frame.size then ⟨some e, frame ++ rest.toArray, [], packets, none⟩
      else
        scan f false none #[]
          (packets.push (f.payload (frame.toList ++ rest.take (e - frame.size))))
          (rest.drop (e - frame.size)) := by
  obtain ⟨b, tail, rfl⟩ := List.exists_cons_of_ne_nil hrest
  obtain ⟨n, hn⟩ : ∃ n, e - frame.size = n + 1 := ⟨e - frame.size - 1, by omega⟩
  rw [scan.eq_def]
  simp only [hn, foldl_push_take, size_append_take hn]
  by_cases hshort : (b :: tail).length < n + 1
  · rw [if_neg (not_not_intro hshort), if_pos hshort, List.take_of_length_le (Nat.le_of_lt hshort)]
  · rw [if_pos hshort, if_neg hshort, Array.toList_append, List.drop_succ_cons]

/-- A run leaves a tail of what it was given. -/
theorem rest_scan_suffix (f : Framing) (full : Bool) (expected : Option Nat) (frame : Array UInt8)
    (packets : Array Bytes) (rest : Bytes) :
    (scan f full expected frame packets rest).rest <:+ rest := by
  induction hn : rest.length using Nat.strongRecOn
    generalizing full expected frame packets rest with
  | ind n ih =>
    cases rest with
    | nil => simp [scan.eq_def]
    | cons b tail =>
      rw [scan.eq_def]
      simp only
      split
      · exact List.suffix_rfl
      · exact List.suffix_rfl
      · split
        · exact List.suffix_rfl
        · rename_i missing _
          split
          · have hlt : (tail.drop missing).length < n := by simp at hn ⊢; omega
            exact (ih _ hlt _ _ _ _ _ rfl).trans
              ((List.drop_suffix missing tail).trans (List.suffix_cons b tail))
          · exact List.nil_suffix

theorem payload_eq (f : Framing) (frame : Bytes) :
    f.payload frame = frame.drop (min f.layout.strip.toNat frame.length) :=
  List.drop_eq_drop_min

/-- **A run that begins between two frames parses what is unread.** -/
theorem outcome_scan_none {f : Framing} {c : Nat} {rest : Bytes} (h : rest.length ≤ c)
    (packets : Array Bytes) :
    (scan f (rest.length = c) none #[] packets rest).outcome =
      (f.parse c rest).after packets.toList := by
  induction hn : rest.length using Nat.strongRecOn generalizing rest packets with
  | ind n ih =>
    by_cases hr : rest = []
    · subst hr
      rw [scan.eq_def]
      simp [Scan.outcome, Parsed.after]
    have htake : rest.take c = rest := List.take_of_length_le h
    cases hs : f.frameSize rest with
    | error e =>
      obtain ⟨b, tail, rfl⟩ := List.exists_cons_of_ne_nil hr
      rw [Framing.parse_of_error hr (by rw [htake, hs]), scan.eq_def]
      simp [hs, Scan.outcome, Parsed.after]
    | ok size =>
      cases size with
      | none =>
        rw [Framing.parse_of_none hr (by rw [htake, hs])]
        obtain ⟨b, tail, rfl⟩ := List.exists_cons_of_ne_nil hr
        rw [scan.eq_def]
        by_cases hfull : n = c
        · simp [hs, hn, hfull, Scan.outcome, Parsed.after]
        · simp [hs, hn, hfull, show ¬ c ≤ n by omega, Scan.outcome, Parsed.after]
      | some e =>
        have hpos := Framing.frameSize_pos hs
        rw [Framing.parse_of_some hr (by rw [htake, hs]), scan_of_frameSize hr hs,
          scan_some hr (by simpa using hpos)]
        by_cases hshort : rest.length < e
        · simp [hshort, Scan.outcome, Parsed.after]
        · have hlt : (rest.drop e).length < rest.length := by simp; omega
          -- behind a frame the buffer is not full any more
          have hnext := ih (rest.drop e).length (by omega) (by omega)
            (packets.push (f.payload (rest.take e))) rfl
          simp only [show ¬ (rest.drop e).length = c by omega, decide_false] at hnext
          have hlen : (rest.take e).length = e := by simp; omega
          simp only [List.size_toArray, List.length_nil, Nat.sub_zero, hshort, if_false,
            List.nil_append, hnext]
          rw [Parsed.after_after, payload_eq, hlen]
          simp

/-- A run that begins inside a frame parses the frame's octets with what is unread. -/
theorem outcome_scan_some {f : Framing} {c : Nat} {frame rest : Bytes} {e : Nat} {full : Bool}
    (h : rest.length ≤ c) (begun : frame ≠ [])
    (known : f.frameSize ((frame ++ rest).take c) = .ok (some e)) (short : frame.length < e)
    (packets : Array Bytes) :
    (scan f full (some e) frame.toArray packets rest).outcome =
      (f.parse c (frame ++ rest)).after packets.toList := by
  by_cases hr : rest = []
  · subst hr
    rw [Framing.parse_of_some (by simpa using begun) known, scan.eq_def]
    simp [short, Scan.outcome, Parsed.after]
  rw [Framing.parse_of_some (by simp [begun]) known, scan_some hr (by simpa using short)]
  by_cases hshort : rest.length < e - frame.length
  · simp [hshort, show frame.length + rest.length < e by omega, Scan.outcome, Parsed.after]
  · have hdrop : (frame ++ rest).drop e = rest.drop (e - frame.length) := by
      rw [List.drop_append, List.drop_of_length_le (by omega), List.nil_append]
    have htake : (frame ++ rest).take e = frame ++ rest.take (e - frame.length) := by
      rw [List.take_append, List.take_of_length_le (by omega)]
    have hlen : ((frame ++ rest).take e).length = e := by simp; omega
    have hpos : 0 < rest.length := List.length_pos_iff.2 hr
    have hlt : (rest.drop (e - frame.length)).length < c := by simp; omega
    have hnext := outcome_scan_none (f := f) (Nat.le_of_lt hlt)
      (packets.push (f.payload ((frame ++ rest).take e)))
    simp only [Nat.ne_of_lt hlt, decide_false] at hnext
    simp only [List.size_toArray, hshort, if_false, List.length_append,
      show ¬ frame.length + rest.length < e by omega, hdrop]
    rw [← htake, hnext, Parsed.after_after, payload_eq, hlen]
    simp

/-! ## Receives -/

/-- A commit hands on what its run found; what is unread comes to the front of the buffer. -/
theorem outcome_commit (f : Framing) {a : Assembler} {n m : Nat} {full : Bool}
    (hm : min (a.filled + n) a.capacity = m) (hfull : full = true ↔ m = a.capacity) :
    (a.commit f n).outcome =
      (scan f full a.expected a.frame #[] (a.buffer.take m).toList).outcome ∧
    (a.commit f n).assembler.capacity = a.capacity := by
  obtain ⟨buffer, filled, frame, expected⟩ := a
  simp only [capacity] at hm hfull
  have hdec : decide (m = buffer.size) = full := by
    rw [Bool.eq_iff_iff, hfull, decide_eq_true_iff]
  have hsuffix := rest_scan_suffix f full expected frame #[] (buffer.take m).toList
  simp only [commit, capacity, hm, hdec]
  generalize scan f full expected frame #[] (buffer.take m).toList = s at hsuffix ⊢
  have hlen : (buffer.take m).toList.length = m := by simp; omega
  have hle : s.rest.length ≤ m := hlen ▸ hsuffix.length_le
  cases hfail : s.failure with
  | some e => simp [Receipt.outcome, Scan.outcome, hfail]
  | none =>
    have hbuffered : ∀ frame expected, buffered ⟨if s.rest.length = m then buffer else
        overlay buffer 0 s.rest, s.rest.length, frame, expected⟩ = s.rest := fun _ _ =>
      buffered_of_moved (Nat.le_trans hle (by omega)) fun hall =>
        hsuffix.eq_of_length (hall.trans hlen.symm)
    refine ⟨?_, size_moved buffer m s.rest⟩
    simp only [Receipt.outcome, Scan.outcome, hfail, hbuffered]

/-- The octets received that are not part of a packet yet. -/
def pending (a : Assembler) : Bytes := a.frame.toList ++ a.buffered

theorem buffered_withCapacity (capacity : Nat) : (withCapacity capacity).buffered = [] := by
  simp [buffered, withCapacity]

theorem pending_withCapacity (capacity : Nat) : (withCapacity capacity).pending = [] := by
  rw [pending, buffered_withCapacity]
  rfl

/-- An assembler of room `c` between two receives that went well. -/
structure Ready (f : Framing) (c : Nat) (a : Assembler) : Prop where
  capacity : a.capacity = c
  isOpen : Framing.Open f c a.expected a.frame.toList a.buffered

section
variable {f : Framing} {c : Nat}

theorem Ready.withCapacity (hc : 1 ≤ c) : (withCapacity c).Ready f c where
  capacity := by simp [Assembler.withCapacity, Assembler.capacity]; omega
  isOpen := .header (by simp [buffered, Assembler.withCapacity]; omega)
    (by simp [buffered, Assembler.withCapacity])

theorem Ready.filled_lt (hc : 1 ≤ c) {a : Assembler} (ha : a.Ready f c) : a.filled < c := by
  have h := ha.isOpen.room hc
  rw [length_buffered, ha.capacity] at h
  omega

/-- Where a parse went well, the assembler that agrees with it is ready. -/
theorem Ready.of_outcome (hc : 1 ≤ c) {r : Receipt} {octets : Bytes} (hfail : r.failure = none)
    (h : r.outcome = f.parse c octets) (hcap : r.assembler.capacity = c) :
    r.assembler.Ready f c := by
  have hopen : f.parse c octets = ⟨r.packets.toList,
      .waiting r.assembler.expected r.assembler.frame.toList r.assembler.buffered⟩ := by
    rw [← h, Receipt.outcome, hfail]
  exact ⟨hcap, Framing.open_of_parse hc hopen⟩

/-- **What is committed is parsed behind what is still open.** -/
theorem Ready.outcome_commit (hf : f.PrefixStable) {a : Assembler} (ha : a.Ready f c) {data : Bytes}
    (h : a.filled + data.length ≤ c) :
    ((a.write data).commit f data.length).outcome = f.parse c (a.pending ++ data) ∧
      ((a.write data).commit f data.length).assembler.capacity = c := by
  obtain ⟨hcap, hopen⟩ := ha
  have hwcap : (a.write data).capacity = c := (size_overlay data a.buffer a.filled).trans hcap
  have hrest := take_write (a := a) (hcap ▸ h)
  have hlen : (a.buffered ++ data).length = a.filled + data.length := by
    rw [List.length_append, length_buffered]
    omega
  obtain ⟨hout, hcap'⟩ := Assembler.outcome_commit f (a := a.write data) (n := data.length)
    (m := a.filled + data.length) (by rw [hwcap]; exact Nat.min_eq_left h)
    (show decide ((a.buffered ++ data).length = c) = true ↔ _ by
      rw [hwcap, hlen, decide_eq_true_iff])
  refine ⟨?_, hcap'.trans hwcap⟩
  rw [hout, hrest, pending, List.append_assoc]
  change (scan f _ a.expected a.frame #[] (a.buffered ++ data)).outcome = _
  generalize a.expected = expected at hopen ⊢
  generalize hframe : a.frame.toList = frame at hopen ⊢
  rw [show a.frame = frame.toArray by simp [← hframe]]
  generalize a.buffered = buffered at hopen hlen ⊢
  cases hopen with
  | header room unknown => exact outcome_scan_none (by omega) #[]
  | body begun known short =>
    refine outcome_scan_some (by omega) begun ?_ short #[]
    rw [List.take_append, hf.frameSize_append (by simp [known]), known]

/-- A feed commits as much as there is room for and then receives the rest. -/
theorem feed_of_spare {a : Assembler} {data : Bytes} (hdata : data ≠ []) (hspare : 0 < a.spare) :
    a.feed f data = feedNext f ((a.write (data.take a.spare)).commit f (data.take a.spare).length)
      (data.drop a.spare) := by
  obtain ⟨b, tail, rfl⟩ := List.exists_cons_of_ne_nil hdata
  obtain ⟨room, hroom⟩ : ∃ room, a.spare = room + 1 := ⟨a.spare - 1, by omega⟩
  rw [feed]
  split
  · omega
  · rename_i room' hroom'
    obtain rfl : room' = room := by omega
    simp only [hroom, List.take_succ_cons, List.drop_succ_cons]
    generalize (a.write (b :: tail.take room')).commit f (b :: tail.take room').length = r
    obtain ⟨a', packets, failure⟩ := r
    cases failure <;> rfl

/-- A feed into a full buffer commits that first, and receives what it was given once there is room. -/
theorem feed_of_full {a : Assembler} {data : Bytes} (hdata : data ≠ []) (hfull : a.spare = 0) :
    a.feed f data = if (a.commit f 0).failure = none ∧ (a.commit f 0).assembler.spare = 0 then
      a.commit f 0 else feedNext f (a.commit f 0) data := by
  obtain ⟨b, tail, rfl⟩ := List.exists_cons_of_ne_nil hdata
  rw [feed]
  split
  · generalize a.commit f 0 = r
    obtain ⟨a', packets, failure⟩ := r
    cases failure with
    | some e => rfl
    | none => simp [feedNext]
  · omega

/-- One more piece is parsed behind the octets that came before, if its feed is. -/
theorem outcome_feedNext (hf : f.PrefixStable) {r : Receipt} {octets piece : Bytes}
    (h : r.outcome = f.parse c octets) (hcap : r.assembler.capacity = c)
    (hfeed : r.failure = none →
      (r.assembler.feed f piece).outcome = f.parse c (r.assembler.pending ++ piece) ∧
        (r.assembler.feed f piece).assembler.capacity = c) :
    (feedNext f r piece).outcome = f.parse c (octets ++ piece) ∧
      (feedNext f r piece).assembler.capacity = c := by
  obtain ⟨a, packets, failure⟩ := r
  rw [Framing.parse_append hf, ← h]
  cases failure with
  | some e => exact ⟨rfl, hcap⟩
  | none =>
    obtain ⟨hfed, hcap'⟩ := hfeed rfl
    refine ⟨?_, hcap'⟩
    simp only [Framing.resume, Receipt.outcome]
    rw [← pending, ← hfed]
    simp [feedNext, Receipt.outcome, Parsed.after]

/-- **What is fed is parsed behind what is still open.** -/
theorem Ready.outcome_feed (hf : f.PrefixStable) (hc : 1 ≤ c) {a : Assembler} (ha : a.Ready f c)
    (data : Bytes) :
    (a.feed f data).outcome = f.parse c (a.pending ++ data) ∧
      (a.feed f data).assembler.capacity = c := by
  induction hn : data.length using Nat.strongRecOn generalizing a data with
  | ind n ih =>
    by_cases hdata : data = []
    · subst hdata
      rw [feed, List.append_nil, pending, Framing.parse_of_open ha.isOpen]
      exact ⟨rfl, ha.capacity⟩
    have hlt := ha.filled_lt hc
    have hcap := ha.capacity
    have hspare : 0 < a.spare := by simp only [spare]; omega
    have hroom : a.filled + (data.take a.spare).length ≤ c := by
      simp only [List.length_take, spare]
      omega
    obtain ⟨hout, hcap'⟩ := ha.outcome_commit hf hroom
    have hpos := List.length_pos_iff.2 hdata
    have hsplit : a.pending ++ data = a.pending ++ data.take a.spare ++ data.drop a.spare := by
      rw [List.append_assoc, List.take_append_drop]
    rw [feed_of_spare hdata hspare, hsplit]
    refine outcome_feedNext hf hout hcap' fun hfail => ?_
    exact ih _ (by simp; omega) (Ready.of_outcome hc hfail hout hcap') _ rfl

/-- **Pieces are parsed as the stream that they make up.** -/
theorem outcome_foldl_feedNext (hf : f.PrefixStable) (hc : 1 ≤ c) (pieces : List Bytes)
    {r : Receipt} {octets : Bytes} (h : r.outcome = f.parse c octets)
    (hcap : r.assembler.capacity = c) :
    (pieces.foldl (feedNext f) r).outcome = f.parse c (octets ++ pieces.flatten) := by
  induction pieces generalizing r octets with
  | nil => simpa using h
  | cons piece rest ih =>
    obtain ⟨hnext, hcap'⟩ := outcome_feedNext hf h hcap fun hfail =>
      (Ready.of_outcome hc hfail h hcap).outcome_feed hf hc piece
    rw [List.foldl_cons, ih hnext hcap', List.flatten_cons, List.append_assoc]

end

/-- **However a stream is cut into receives, an assembler gives the reference parse of the whole**, for
every framing whose announced lengths do not change with more octets; a length field is one. -/
theorem feedAll_eq_parse :
    (∀ f : Framing, f.PrefixStable → ∀ c, 1 ≤ c → ∀ pieces : List Bytes,
      ((withCapacity c).feedAll f pieces).outcome = f.parse c pieces.flatten) ∧
    ∀ p : LengthField, p.isValid → 0 ≤ p.offset → Framing.PrefixStable ⟨p, none⟩ := by
  refine ⟨fun f hf c hc pieces => ?_, fun p _ hp => Framing.prefixStable_of_layout hp⟩
  have hready := Ready.withCapacity (f := f) hc
  have hempty : (⟨withCapacity c, #[], none⟩ : Receipt).outcome = f.parse c [] := by
    simp [Receipt.outcome, Assembler.withCapacity, buffered]
  simpa [feedAll] using outcome_foldl_feedNext hf hc pieces hempty hready.capacity

/-- A frame that is longer than the buffer, and the front of the next, in four pieces. -/
theorem feedAll_six_octets_through_five :
    LengthField.standard.isValid ∧ 0 ≤ LengthField.standard.offset ∧ 1 ≤ 5 ∧
      Framing.PrefixStable ⟨.standard, none⟩ ∧
      ((withCapacity 5).feedAll ⟨.standard, none⟩
        [[0, 0], [0, 6, 1], [2, 0, 0, 0], [8, 9]]).outcome =
      ⟨[[0, 0, 0, 6, 1, 2]], .waiting (some 8) [0, 0, 0, 8, 9] []⟩ := by
  have hstable := feedAll_eq_parse.2 .standard (by decide) (by decide)
  refine ⟨by decide, by decide, by decide, hstable, ?_⟩
  rw [feedAll_eq_parse.1 _ hstable 5 (by decide)]
  have hfirst : Framing.frameSize ⟨.standard, none⟩ [0, 0, 0, 6, 1] = .ok (some 6) := rfl
  have hsecond : Framing.parse ⟨.standard, none⟩ 5 [0, 0, 0, 8, 9] =
      ⟨[], .waiting (some 8) [0, 0, 0, 8, 9] []⟩ := by
    have hsize : Framing.frameSize ⟨.standard, none⟩ ([0, 0, 0, 8, 9].take 5) = .ok (some 8) := rfl
    rw [Framing.parse_of_some (by simp) hsize]
    rfl
  rw [Framing.parse_of_some (by simp) hfirst, if_neg (by decide)]
  change (Framing.parse ⟨.standard, none⟩ 5 [0, 0, 0, 8, 9]).after [[0, 0, 0, 6, 1, 2]] = _
  rw [hsecond]
  rfl

end Assembler

end NetReactor
