import NetReactor.Proofs.Frame.Chunking

/-!
# No octet is lost

Whatever a decoder answers, and whichever framing each call brings along, **the packets delivered, the
frame in progress and the unread octets are together just what was received** (`Kept.run`), as long
as nothing is stripped and nothing was refused. The size of a frame in progress was allowed when it was
found, so that no packet is longer than the largest maximum.

A decoder may contradict itself from one call to the next, and within a call. So it is taken here as the
sequence of its answers (`FickleFraming`); one that never changes its mind is the assembler's own
(`commitBy_steady`, `feedBy_steady`).
-/

namespace NetReactor

/-- A framing whose decoder answers as it likes: as `decoder k` when it is asked for the `k`-th time
within a call. -/
structure FickleFraming where
  layout : LengthField
  decoder : Option (Nat → FrameDecoder)

namespace FickleFraming

/-- How the framing stands when its decoder was asked `k` times. -/
def after (w : FickleFraming) (k : Nat) : Framing := ⟨w.layout, w.decoder.map (· k)⟩

/-- A framing that sticks to what it says. -/
def steady (f : Framing) : FickleFraming := ⟨f.layout, f.decoder.map fun decode _ => decode⟩

theorem after_steady (f : Framing) (k : Nat) : (steady f).after k = f := by
  obtain ⟨layout, decoder⟩ := f
  cases decoder <;> rfl

end FickleFraming

theorem Framing.frameSize_le {f : Framing} {buf : Bytes} {e : Nat}
    (h : f.frameSize buf = .ok (some e)) : e ≤ f.layout.maxFrame.toNat := by
  simp only [frameSize] at h
  split at h
  · simp at h
  · split at h
    · simp at h
    · simp only [Except.ok.injEq, Option.some.injEq] at h
      omega

namespace Assembler

/-! ## Calls with a decoder that may change its mind -/

/-- `scan` under a decoder that was asked `k` times, and how often it was asked then. -/
def scanBy (w : FickleFraming) (k : Nat) (full : Bool) (expected : Option Nat) (frame : Array UInt8)
    (packets : Array Bytes) (rest : Bytes) : Scan × Nat :=
  match rest with
  | [] => (⟨expected, frame, [], packets, none⟩, k)
  | b :: tail =>
    let (size, k) : Except Failure (Option Nat) × Nat := match expected with
      | some e => (.ok (some e), k)
      | none => ((w.after k).frameSize (b :: tail), k + 1)
    match size with
    | .error e => (⟨none, frame, b :: tail, packets, some e⟩, k)
    | .ok none =>
      let failure := if full then some (Failure.invalidPacket 0 w.layout.maxFrame.toNat) else none
      (⟨none, frame, b :: tail, packets, failure⟩, k)
    | .ok (some e) =>
      match e - frame.size with
      | 0 => (⟨some e, frame, b :: tail, packets, none⟩, k)
      | missing + 1 =>
        let frame := (tail.take missing).foldl Array.push (frame.push b)
        if frame.size = e then
          let packet := (w.after k).payload frame.toList
          scanBy w k false none #[] (packets.push packet) (tail.drop missing)
        else (⟨some e, frame, [], packets, none⟩, k)
termination_by rest.length
decreasing_by
  simp only [List.length_drop, List.length_cons]
  omega

def commitBy (w : FickleFraming) (k n : Nat) : Assembler → Receipt × Nat
  | ⟨buffer, filled, frame, expected⟩ =>
    let filled := min (filled + n) buffer.size
    let (s, k) :=
      scanBy w k (filled = buffer.size) expected frame #[] (buffer.take filled).toList
    match s.failure with
    | some e => (⟨⟨buffer, filled, s.frame, s.expected⟩, s.packets, some e⟩, k)
    | none =>
      let left := s.rest.length
      let buffer := if left = filled then buffer else overlay buffer 0 s.rest
      (⟨⟨buffer, left, s.frame, s.expected⟩, s.packets, none⟩, k)

def feedBy (w : FickleFraming) (k : Nat) (data : Bytes) (a : Assembler) : Receipt × Nat :=
  match data with
  | [] => (⟨a, #[], none⟩, k)
  | b :: tail =>
    match _ : a.spare with
    | 0 =>
      match a.commitBy w k 0 with
      | (⟨a', packets, some e⟩, k) => (⟨a', packets, some e⟩, k)
      | (⟨a', packets, none⟩, k) =>
        if a'.spare = 0 then (⟨a', packets, none⟩, k)
        else
          let (later, k) := feedBy w k (b :: tail) a'
          ({ later with packets := packets ++ later.packets }, k)
    | room + 1 =>
      let piece := b :: tail.take room
      match (a.write piece).commitBy w k piece.length with
      | (⟨a, packets, some e⟩, k) => (⟨a, packets, some e⟩, k)
      | (⟨a, packets, none⟩, k) =>
        let (later, k) := feedBy w k (tail.drop room) a
        ({ later with packets := packets ++ later.packets }, k)
termination_by 2 * data.length + (1 - a.spare)
decreasing_by
  · simp only [List.length_cons]
    omega
  · simp only [List.length_drop, List.length_cons]
    omega

/-- Once the size is found, the run goes on as with a frame of known size. -/
theorem scanBy_of_frameSize {w : FickleFraming} {k : Nat} {full : Bool} {frame : Array UInt8}
    {packets : Array Bytes} {rest : Bytes} {e : Nat} (hrest : rest ≠ [])
    (hs : (w.after k).frameSize rest = .ok (some e)) :
    scanBy w k full none frame packets rest = scanBy w (k + 1) full (some e) frame packets rest := by
  obtain ⟨b, tail, rfl⟩ := List.exists_cons_of_ne_nil hrest
  rw [scanBy.eq_def, scanBy.eq_def w (k + 1) full (some e)]
  simp only [hs]

theorem scanBy_steady (f : Framing) (k : Nat) (full : Bool) (expected : Option Nat)
    (frame : Array UInt8) (packets : Array Bytes) (rest : Bytes) :
    (scanBy (.steady f) k full expected frame packets rest).1 =
      scan f full expected frame packets rest := by
  induction hn : rest.length using Nat.strongRecOn
    generalizing k full expected frame packets rest with
  | ind n ih =>
    cases rest with
    | nil => rw [scanBy.eq_def, scan.eq_def]
    | cons b tail =>
      have hlater : ∀ k missing packets,
          (scanBy (.steady f) k false none #[] packets (tail.drop missing)).1 =
            scan f false none #[] packets (tail.drop missing) := fun k missing packets =>
        ih _ (by simp at hn ⊢; omega) _ _ _ _ _ _ rfl
      have hknown : ∀ k e,
          (scanBy (.steady f) k full (some e) frame packets (b :: tail)).1 =
            scan f full (some e) frame packets (b :: tail) := by
        intro k e
        rw [scanBy.eq_def, scan.eq_def]
        simp only [FickleFraming.after_steady]
        cases e - frame.size with
        | zero => rfl
        | succ missing =>
          simp only
          split
          · exact hlater _ _ _
          · rfl
      cases expected with
      | some e => exact hknown k e
      | none =>
        cases hsize : f.frameSize (b :: tail) with
        | error e =>
          rw [scanBy.eq_def, scan.eq_def]
          simp only [FickleFraming.after_steady, hsize]
        | ok size =>
          cases size with
          | none =>
            rw [scanBy.eq_def, scan.eq_def]
            simp only [FickleFraming.after_steady, hsize]
            rfl
          | some e =>
            have hlook := (congrArg (·.frameSize (b :: tail)) (FickleFraming.after_steady f k)).trans hsize
            rw [scan_of_frameSize (List.cons_ne_nil b tail) hsize, ← hknown (k + 1) e,
              scanBy_of_frameSize (List.cons_ne_nil b tail) hlook]

/-- A decoder that does not change its mind is the assembler's own. -/
theorem commitBy_steady (f : Framing) (k n : Nat) (a : Assembler) :
    (a.commitBy (.steady f) k n).1 = a.commit f n := by
  obtain ⟨buffer, filled, frame, expected⟩ := a
  simp only [commitBy, commit, ← scanBy_steady f k]
  generalize scanBy (.steady f) k _ expected frame #[] _ = r
  obtain ⟨⟨expected', frame', rest, packets, failure⟩, k'⟩ := r
  cases failure <;> rfl

/-- A feed commits as much as there is room for and then receives the rest. -/
theorem feedBy_of_spare {w : FickleFraming} {a : Assembler} {data : Bytes} (hdata : data ≠ [])
    (hspare : 0 < a.spare) (k : Nat) : a.feedBy w k data =
      match (a.write (data.take a.spare)).commitBy w k (data.take a.spare).length with
      | (⟨a', packets, some e⟩, k) => (⟨a', packets, some e⟩, k)
      | (⟨a', packets, none⟩, k) =>
        let (later, k) := a'.feedBy w k (data.drop a.spare)
        ({ later with packets := packets ++ later.packets }, k) := by
  obtain ⟨b, tail, rfl⟩ := List.exists_cons_of_ne_nil hdata
  obtain ⟨room, hroom⟩ : ∃ room, a.spare = room + 1 := ⟨a.spare - 1, by omega⟩
  rw [feedBy]
  split
  · omega
  · rename_i room' hroom'
    obtain rfl : room' = room := by omega
    simp only [hroom, List.take_succ_cons, List.drop_succ_cons]

/-- A feed into a full buffer commits that first, and receives what it was given once there is room. -/
theorem feedBy_of_full {w : FickleFraming} {a : Assembler} {data : Bytes} (hdata : data ≠ [])
    (hfull : a.spare = 0) (k : Nat) : a.feedBy w k data =
      match a.commitBy w k 0 with
      | (⟨a', packets, some e⟩, k) => (⟨a', packets, some e⟩, k)
      | (⟨a', packets, none⟩, k) =>
        if a'.spare = 0 then (⟨a', packets, none⟩, k)
        else
          let (later, k) := a'.feedBy w k data
          ({ later with packets := packets ++ later.packets }, k) := by
  obtain ⟨b, tail, rfl⟩ := List.exists_cons_of_ne_nil hdata
  rw [feedBy]
  split
  · rfl
  · omega

theorem feedBy_steady (f : Framing) (k : Nat) (data : Bytes) (a : Assembler) :
    (a.feedBy (.steady f) k data).1 = a.feed f data := by
  induction hn : 2 * data.length + (1 - a.spare) using Nat.strongRecOn generalizing k data a with
  | ind n ih =>
    by_cases hdata : data = []
    · rw [hdata, feedBy, feed]
    rcases Nat.eq_zero_or_pos a.spare with hfull | hspare
    · rw [feedBy_of_full hdata hfull, feed_of_full hdata hfull, ← commitBy_steady f k]
      generalize a.commitBy (.steady f) k 0 = r
      obtain ⟨⟨a', packets, failure⟩, k'⟩ := r
      cases failure with
      | some e => rfl
      | none =>
        by_cases hroom : a'.spare = 0
        · simp [hroom]
        · have hlater := ih (2 * data.length + (1 - a'.spare)) (by omega) k' data a' rfl
          simp [hroom, feedNext, ← hlater]
    · have hpos := List.length_pos_iff.2 hdata
      rw [feedBy_of_spare hdata hspare, feed_of_spare hdata hspare, ← commitBy_steady f k]
      generalize (a.write (data.take a.spare)).commitBy (.steady f) k _ = r
      obtain ⟨⟨a', packets, failure⟩, k'⟩ := r
      cases failure with
      | some e => rfl
      | none =>
        have hlen : (data.drop a.spare).length = data.length - a.spare := List.length_drop
        have hlater := ih (2 * (data.drop a.spare).length + (1 - a'.spare)) (by omega) k' _ a' rfl
        simp only [feedNext, ← hlater]

/-! ## What a run over the unread octets keeps -/

/-- A frame in progress is short of its size, which the maximum `m` allows; where no size is known,
there is none. -/
def Begun (m : Nat) (expected : Option Nat) (frame : Array UInt8) : Prop :=
  match expected with
  | none => frame = #[]
  | some e => frame.size < e ∧ e ≤ m

/-- What a run began with is found again in what it leaves, unless it was refused. -/
structure Keeps (m : Nat) (full : Bool) (frame : Array UInt8) (packets : Array Bytes) (rest : Bytes)
    (s : Scan) : Prop where
  begun : Begun m s.expected s.frame
  octets : s.packets.toList.flatten ++ s.frame.toList ++ s.rest =
    packets.toList.flatten ++ frame.toList ++ rest
  packets : ∀ p ∈ s.packets, p ∈ packets ∨ p ≠ [] ∧ p.length ≤ m
  le : s.rest.length ≤ rest.length
  lt : full = true → rest ≠ [] → s.rest.length < rest.length

section
variable {w : FickleFraming} {m : Nat}

/-- The octets of a frame of known size are taken, and the run goes on behind a complete one. -/
theorem scanBy_some {k : Nat} {full : Bool} {frame : Array UInt8} {packets : Array Bytes}
    {rest : Bytes} {e : Nat} (hrest : rest ≠ []) (hlt : frame.size < e) :
    scanBy w k full (some e) frame packets rest =
      if rest.length < e - frame.size then (⟨some e, frame ++ rest.toArray, [], packets, none⟩, k)
      else
        scanBy w k false none #[]
          (packets.push ((w.after k).payload (frame.toList ++ rest.take (e - frame.size))))
          (rest.drop (e - frame.size)) := by
  obtain ⟨b, tail, rfl⟩ := List.exists_cons_of_ne_nil hrest
  obtain ⟨n, hn⟩ : ∃ n, e - frame.size = n + 1 := ⟨e - frame.size - 1, by omega⟩
  rw [scanBy.eq_def]
  simp only [hn, foldl_push_take, size_append_take hn]
  by_cases hshort : (b :: tail).length < n + 1
  · rw [if_neg (not_not_intro hshort), if_pos hshort, List.take_of_length_le (Nat.le_of_lt hshort)]
  · rw [if_pos hshort, if_neg hshort, Array.toList_append, List.drop_succ_cons]

theorem payload_of_unstripped {f : Framing} (hstrip : f.layout.strip = 0) (frame : Bytes) :
    f.payload frame = frame := by
  rw [Framing.payload, hstrip]
  rfl

/-- What is kept from behind a frame on is kept from within the frame on. -/
theorem Keeps.of_frame {full : Bool} {frame : Array UInt8} {packets : Array Bytes} {rest : Bytes}
    {e : Nat} {s : Scan} (hlt : frame.size < e) (hle : e ≤ m) (hlong : ¬ rest.length < e - frame.size)
    (h : Keeps m false #[] (packets.push (frame.toList ++ rest.take (e - frame.size)))
      (rest.drop (e - frame.size)) s) : Keeps m full frame packets rest s := by
  obtain ⟨hbegun, hoctets, hpackets, hshorter, -⟩ := h
  have hdrop : (rest.drop (e - frame.size)).length < rest.length := by
    rw [List.length_drop]
    omega
  have hshort := Nat.lt_of_le_of_lt hshorter hdrop
  refine ⟨hbegun, ?_, fun p hp => ?_, Nat.le_of_lt hshort, fun _ _ => hshort⟩
  · rw [hoctets]
    simp [List.append_assoc]
  · rcases hpackets p hp with hbefore | hnew
    · rcases Array.mem_push.1 hbefore with hbefore | hframe
      · exact .inl hbefore
      · have hlen : p.length = e := by
          rw [hframe, List.length_append, List.length_take, Array.length_toList]
          omega
        exact .inr ⟨List.ne_nil_of_length_pos (by omega), hlen ▸ hle⟩
    · exact .inr hnew

/-- **A run loses no octet**, and leaves less than it was given if that was all of a full buffer. -/
theorem keeps_scanBy (hstrip : w.layout.strip = 0) (hmax : w.layout.maxFrame.toNat ≤ m) {k : Nat}
    {full : Bool} {expected : Option Nat} {frame : Array UInt8} {packets : Array Bytes} {rest : Bytes}
    (hbegun : Begun m expected frame)
    (hok : (scanBy w k full expected frame packets rest).1.failure = none) :
    Keeps m full frame packets rest (scanBy w k full expected frame packets rest).1 := by
  induction hn : rest.length using Nat.strongRecOn
    generalizing k full expected frame packets rest with
  | ind n ih =>
    by_cases hr : rest = []
    · subst hr
      rw [scanBy.eq_def]
      exact ⟨hbegun, rfl, fun p hp => .inl hp, Nat.le_refl _, fun _ hne => absurd rfl hne⟩
    have hpos : 0 < rest.length := List.length_pos_iff.2 hr
    have hknown : ∀ k e, frame.size < e → e ≤ m →
        (scanBy w k full (some e) frame packets rest).1.failure = none →
        Keeps m full frame packets rest (scanBy w k full (some e) frame packets rest).1 := by
      intro k e hlt hle hok
      rw [scanBy_some hr hlt, payload_of_unstripped hstrip] at hok ⊢
      split
      · rename_i hshort
        refine ⟨⟨?_, hle⟩, by simp, fun p hp => .inl hp, Nat.zero_le _, fun _ _ => hpos⟩
        simp only [Array.size_append, List.size_toArray]
        omega
      · rename_i hlong
        rw [if_neg hlong] at hok
        refine .of_frame hlt hle hlong (ih _ ?_ rfl hok rfl)
        rw [List.length_drop]
        omega
    cases expected with
    | some e => exact hknown k e hbegun.1 hbegun.2 hok
    | none =>
      obtain rfl : frame = #[] := hbegun
      cases hs : (w.after k).frameSize rest with
      | ok size =>
        cases size with
        | none =>
          obtain ⟨b, tail, rfl⟩ := List.exists_cons_of_ne_nil hr
          rw [scanBy.eq_def] at hok ⊢
          simp only [hs] at hok ⊢
          refine ⟨rfl, rfl, fun p hp => .inl hp, Nat.le_refl _, fun hfull => ?_⟩
          simp [hfull] at hok
        | some e =>
          rw [scanBy_of_frameSize hr hs] at hok ⊢
          exact hknown (k + 1) e (Framing.frameSize_pos hs)
            (Nat.le_trans (Framing.frameSize_le hs) hmax) hok
      | error e =>
        obtain ⟨b, tail, rfl⟩ := List.exists_cons_of_ne_nil hr
        rw [scanBy.eq_def] at hok
        simp [hs] at hok

end

/-! ## What a call keeps -/

/-- The octets in the spare room, received or not. -/
def behind (a : Assembler) : Bytes := a.buffer.toList.drop a.filled

/-- There is room left, and the frame in progress is short of a size of at most `m`. -/
structure Begins (m : Nat) (a : Assembler) : Prop where
  begun : Begun m a.expected a.frame
  room : a.filled < a.capacity

/-- The packets of a call, with what it leaves open, are the octets it had. -/
structure Accounts (m : Nat) (octets : Bytes) (r : Receipt) : Prop where
  begins : r.assembler.Begins m
  octets : r.packets.toList.flatten ++ r.assembler.pending = octets
  packets : ∀ p ∈ r.packets, p ≠ [] ∧ p.length ≤ m

section
variable {w : FickleFraming} {m : Nat}

theorem take_min_size (a : Assembler) (n : Nat) :
    (a.buffer.take (min (a.filled + n) a.buffer.size)).toList = a.buffered ++ a.behind.take n := by
  rw [toList_take, ← Array.length_toList, ← List.take_eq_take_min, List.take_add, ← toList_take]
  rfl

/-- **A commit accounts for what was unread and for the octets it takes.** -/
theorem accounts_commitBy (hstrip : w.layout.strip = 0) (hmax : w.layout.maxFrame.toNat ≤ m)
    {a : Assembler} (ha : a.Begins m) {k n : Nat} (hok : (a.commitBy w k n).1.failure = none) :
    Accounts m (a.pending ++ a.behind.take n) (a.commitBy w k n).1 := by
  have htaken := take_min_size a n
  obtain ⟨buffer, filled, frame, expected⟩ := a
  obtain ⟨hbegun, hroom⟩ := ha
  simp only [capacity] at hbegun hroom htaken
  generalize hstop : min (filled + n) buffer.size = stop at htaken
  have hlen : (buffer.take stop).toList.length = stop := by
    simp
    omega
  simp only [commitBy, hstop] at hok ⊢
  generalize hscan : scanBy w k (decide (stop = buffer.size)) expected frame #[]
    (buffer.take stop).toList = r at hok ⊢
  have hkeeps : r.1.failure = none →
      Keeps m (decide (stop = buffer.size)) frame #[] (buffer.take stop).toList r.1 :=
    hscan ▸ keeps_scanBy hstrip hmax hbegun
  obtain ⟨s, k'⟩ := r
  simp only at hok hkeeps ⊢
  cases hfail : s.failure with
  | some e => simp [hfail] at hok
  | none =>
    obtain ⟨hbegun', hoctets, hpackets, hle, hlt⟩ := hkeeps hfail
    rw [hlen] at hle hlt
    have hsame : s.rest.length = stop → s.rest = (buffer.take stop).toList := fun heq =>
      List.append_inj_right' hoctets (heq.trans hlen.symm)
    have hbuffered : ∀ frame expected, buffered ⟨if s.rest.length = stop then buffer else
        overlay buffer 0 s.rest, s.rest.length, frame, expected⟩ = s.rest := fun _ _ =>
      buffered_of_moved (Nat.le_trans hle (by omega)) hsame
    refine ⟨⟨hbegun', ?_⟩, ?_, fun p hp => ?_⟩
    · simp only [capacity, size_moved]
      by_cases hfull : stop = buffer.size
      · have hne : (buffer.take stop).toList ≠ [] := List.ne_nil_of_length_pos (by omega)
        exact hfull ▸ hlt (decide_eq_true hfull) hne
      · omega
    · simp only [pending, hbuffered]
      rw [← List.append_assoc, hoctets, htaken]
      simp [List.append_assoc]
    · exact (hpackets p hp).resolve_left (by simp)

/-- What lies before the place is not written over. -/
theorem take_overlay (data : Bytes) : ∀ (buffer : Array UInt8) (i : Nat),
    (overlay buffer i data).toList.take i = buffer.toList.take i := by
  induction data with
  | nil => intro buffer i; rfl
  | cons b rest ih =>
    intro buffer i
    have hbefore := congrArg (List.take i) (ih (buffer.setIfInBounds i b) (i + 1))
    rw [List.take_take, List.take_take, Nat.min_eq_left (Nat.le_succ i)] at hbefore
    rw [overlay, hbefore, Array.toList_setIfInBounds, List.take_set,
      List.set_eq_of_length_le (List.length_take_le i buffer.toList)]

theorem pending_write (a : Assembler) (data : Bytes) : (a.write data).pending = a.pending := by
  obtain ⟨buffer, filled, frame, expected⟩ := a
  simp only [write, pending, buffered, toList_take, take_overlay]

theorem behind_write {a : Assembler} {data : Bytes} (h : a.filled + data.length ≤ a.capacity) :
    (a.write data).behind.take data.length = data := by
  obtain ⟨buffer, filled, frame, expected⟩ := a
  simp only [capacity] at h
  have hfilled : (buffer.toList.take filled).length = filled := by
    simp
    omega
  simp only [write, behind, toList_overlay data buffer filled h]
  rw [List.append_assoc, List.drop_append_of_le_length (Nat.le_of_eq hfilled.symm),
    List.drop_of_length_le (Nat.le_of_eq hfilled), List.nil_append, List.take_left]

theorem Begins.write {a : Assembler} (ha : a.Begins m) (data : Bytes) : (a.write data).Begins m := by
  obtain ⟨buffer, filled, frame, expected⟩ := a
  exact ⟨ha.begun, Nat.lt_of_lt_of_eq ha.room (size_overlay data buffer filled).symm⟩

theorem Accounts.trans {octets more : Bytes} {r later : Receipt} (hr : Accounts m octets r)
    (hlater : Accounts m (r.assembler.pending ++ more) later) :
    Accounts m (octets ++ more) { later with packets := r.packets ++ later.packets } := by
  refine ⟨hlater.begins, ?_, fun p hp => ?_⟩
  · rw [Array.toList_append, List.flatten_append, List.append_assoc, hlater.octets,
      ← List.append_assoc, hr.octets]
  · rcases Array.mem_append.1 hp with hbefore | hnew
    · exact hr.packets p hbefore
    · exact hlater.packets p hnew

/-- **A feed accounts for what was unread and for all of its data.** -/
theorem accounts_feedBy (hstrip : w.layout.strip = 0) (hmax : w.layout.maxFrame.toNat ≤ m)
    {a : Assembler} (ha : a.Begins m) {k : Nat} {data : Bytes}
    (hok : (a.feedBy w k data).1.failure = none) :
    Accounts m (a.pending ++ data) (a.feedBy w k data).1 := by
  induction hn : data.length using Nat.strongRecOn generalizing k data a with
  | ind n ih =>
    by_cases hdata : data = []
    · rw [hdata, feedBy]
      exact ⟨ha, (List.append_nil _).symm, fun p hp => absurd hp (Array.not_mem_empty p)⟩
    have hspare : 0 < a.spare := Nat.sub_pos_of_lt ha.room
    have hpos := List.length_pos_iff.2 hdata
    have hfits : a.filled + (data.take a.spare).length ≤ a.capacity := by
      simp only [spare] at hspare
      simp only [spare, List.length_take]
      omega
    have hlt : (data.drop a.spare).length < n := by
      rw [List.length_drop]
      omega
    have hpiece := accounts_commitBy hstrip hmax (ha.write (data.take a.spare)) (k := k)
      (n := (data.take a.spare).length)
    rw [behind_write hfits, pending_write] at hpiece
    rw [feedBy_of_spare hdata hspare] at hok ⊢
    generalize (a.write (data.take a.spare)).commitBy w k (data.take a.spare).length = r
      at hok hpiece ⊢
    obtain ⟨⟨a', packets, failure⟩, k'⟩ := r
    cases failure with
    | some e => exact absurd hok (Option.some_ne_none e)
    | none =>
      have hlater := ih _ hlt (hpiece rfl).begins hok rfl
      have htrans := (hpiece rfl).trans hlater
      rwa [List.append_assoc, List.take_append_drop] at htrans

end

end Assembler

/-! ## Runs -/

/-- What is done with an assembler: something is written into its spare room, and octets are taken from
there, or fed. Each call brings its framing along. -/
inductive Intake where
  | write (data : Bytes)
  | commit (w : FickleFraming) (n : Nat)
  | feed (w : FickleFraming) (data : Bytes)

/-- The layout a call brings along. -/
def Intake.layout? : Intake → Option LengthField
  | .write _ => none
  | .commit w _ | .feed w _ => some w.layout

/-- An assembler, the packets it delivered and the octets it received. -/
structure Tally where
  assembler : Assembler
  packets : Array Bytes
  received : Bytes

namespace Tally

def start (capacity : Nat) : Tally := ⟨.withCapacity capacity, #[], []⟩

/-- Books a call that went well. -/
def book (t : Tally) (octets : Bytes) : Receipt → Option Tally
  | ⟨_, _, some _⟩ => none
  | ⟨a, packets, none⟩ => some ⟨a, t.packets ++ packets, t.received ++ octets⟩

/-- A commit receives what lies at the front of the spare room, however much it asks for. -/
def take (t : Tally) : Intake → Option Tally
  | .write data => some { t with assembler := t.assembler.write data }
  | .commit w n => t.book (t.assembler.behind.take n) (t.assembler.commitBy w 0 n).1
  | .feed w data => t.book data (t.assembler.feedBy w 0 data).1

/-- The calls one after another, if all go well. -/
def run (t : Tally) (steps : List Intake) : Option Tally := steps.foldlM take t

/-- The packets, with what is still open, are what was received. -/
structure Kept (m : Nat) (t : Tally) : Prop where
  begins : t.assembler.Begins m
  octets : t.packets.toList.flatten ++ t.assembler.frame.toList ++ t.assembler.buffered = t.received
  packets : ∀ p ∈ t.packets, p ≠ [] ∧ p.length ≤ m

theorem Kept.accounts {m : Nat} {t : Tally} (ht : t.Kept m) :
    Assembler.Accounts m t.received ⟨t.assembler, t.packets, none⟩ :=
  ⟨ht.begins, (List.append_assoc _ _ _).symm.trans ht.octets, ht.packets⟩

theorem Kept.of_accounts {m : Nat} {t : Tally}
    (h : Assembler.Accounts m t.received ⟨t.assembler, t.packets, none⟩) : t.Kept m :=
  ⟨h.begins, (List.append_assoc _ _ _).trans h.octets, h.packets⟩

theorem kept_start (m capacity : Nat) : (start capacity).Kept m where
  begins := ⟨rfl, Nat.lt_of_lt_of_eq (Nat.lt_of_lt_of_le Nat.zero_lt_one (Nat.le_max_right capacity 1))
    Array.size_replicate.symm⟩
  octets := by simp [start, Assembler.withCapacity, Assembler.buffered]
  packets p hp := absurd hp (Array.not_mem_empty p)

theorem Kept.book {m : Nat} {t t' : Tally} (ht : t.Kept m) {octets : Bytes} {r : Receipt}
    (hr : r.failure = none → Assembler.Accounts m (t.assembler.pending ++ octets) r)
    (h : t.book octets r = some t') : t'.Kept m := by
  obtain ⟨a, packets, failure⟩ := r
  cases failure with
  | some e => exact absurd h.symm (Option.some_ne_none t')
  | none =>
    obtain rfl := Option.some.inj h
    exact .of_accounts (ht.accounts.trans (hr rfl))

/-- A call keeps the account, if it strips nothing and its maximum is at most `m`. -/
theorem Kept.take {m : Nat} {t t' : Tally} (ht : t.Kept m) {i : Intake}
    (hlayout : ∀ p ∈ i.layout?, p.strip = 0 ∧ p.maxFrame.toNat ≤ m) (h : t.take i = some t') :
    t'.Kept m := by
  cases i with
  | write data =>
    obtain rfl := Option.some.inj h
    have hpending := t.assembler.pending_write data
    refine .of_accounts ⟨ht.begins.write data, ?_, ht.packets⟩
    simp only [hpending]
    exact ht.accounts.octets
  | commit w n =>
    obtain ⟨hstrip, hmax⟩ := hlayout w.layout rfl
    exact ht.book (fun hok => Assembler.accounts_commitBy hstrip hmax ht.begins hok) h
  | feed w data =>
    obtain ⟨hstrip, hmax⟩ := hlayout w.layout rfl
    exact ht.book (fun hok => Assembler.accounts_feedBy hstrip hmax ht.begins hok) h

theorem Kept.run {m : Nat} {t t' : Tally} (ht : t.Kept m) {steps : List Intake}
    (hlayouts : ∀ p ∈ steps.filterMap Intake.layout?, p.strip = 0 ∧ p.maxFrame.toNat ≤ m)
    (h : t.run steps = some t') : t'.Kept m := by
  induction steps generalizing t with
  | nil =>
    obtain rfl := Option.some.inj h
    exact ht
  | cons i steps ih =>
    rw [Tally.run, List.foldlM_cons] at h
    obtain ⟨t₁, hi, hsteps⟩ := Option.bind_eq_some_iff.1 h
    refine ih (ht.take (fun p hp => hlayouts p ?_) hi) (fun p hp => hlayouts p ?_) hsteps
    · exact List.mem_filterMap.2 ⟨i, List.mem_cons_self, hp⟩
    · obtain ⟨j, hj, hp⟩ := List.mem_filterMap.1 hp
      exact List.mem_filterMap.2 ⟨j, List.mem_cons_of_mem i hj, hp⟩

/-- With a framing and a decoder that stay, the calls are the assembler's own. -/
theorem take_steady (t : Tally) (f : Framing) (n : Nat) (data : Bytes) :
    t.take (.commit (.steady f) n) = t.book (t.assembler.behind.take n) (t.assembler.commit f n) ∧
      t.take (.feed (.steady f) data) = t.book data (t.assembler.feed f data) := by
  rw [take, take, Assembler.commitBy_steady, Assembler.feedBy_steady]
  exact ⟨rfl, rfl⟩

end Tally

end NetReactor
