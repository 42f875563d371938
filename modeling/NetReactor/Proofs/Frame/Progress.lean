import NetReactor.Proofs.Frame.Conservation

/-!
# Every receive comes to an end

Here the loops of the assembler are taken at their word: they walk over the buffer by index, **every sum,
difference and slice is checked** (`Fault`), and nothing but their own conditions ends them, so that a
loop may as well go on for ever (`none`, however many turns it is given). Between two calls that went well
an assembler either knows no size, holds nothing of a frame and has room left, or it knows one, is short
of it and has an empty buffer (`Settled`). **From there both loops end without a fault, and as the
assembler's own `scan` and `feed` do** (`commit_of_settled`, `feed_of_settled`), whatever the decoder
answers.

The one path that would leave the buffer full, a header that shows no size, is refused; after that only
`reset` leads back.
-/

namespace NetReactor

/-! ## The loops by index -/

/-- A step that has no result. -/
inductive Fault
  /-- A sum of 64 bits or more. -/
  | overflow
  /-- A difference below 0. -/
  | underflow
  /-- A slice that ends before it begins, or behind the end. -/
  | range
deriving DecidableEq, Repr

namespace Checked

def sum (a b : Nat) : Except Fault Nat := if a + b < UInt64.size then .ok (a + b) else .error .overflow

def diff (a b : Nat) : Except Fault Nat := if b ≤ a then .ok (a - b) else .error .underflow

/-- The octets from `i` on and before `j`. -/
def slice (octets : Bytes) (i j : Nat) : Except Fault Bytes :=
  if i ≤ j ∧ j ≤ octets.length then .ok ((octets.take j).drop i) else .error .range

/-- Where a run over the buffer stands. -/
structure Cursor where
  head : Nat
  /-- How often the decoder was asked. -/
  asked : Nat
  expected : Option Nat
  frame : Array UInt8
  packets : Array Bytes

/-- What a turn leads to. -/
inductive Turn
  | again (c : Cursor)
  | over (c : Cursor) (failure : Option Failure)

/-- Moves octets to the frame of size `e` and hands it on once it is complete. -/
def gather (w : FickleFraming) (buffer : Array UInt8) (filled head asked : Nat) (frame : Array UInt8)
    (packets : Array Bytes) (e : Nat) : Except Fault Cursor := do
  let missing ← diff e frame.size
  let left ← diff filled head
  let stop ← sum head (min missing left)
  let octets ← slice buffer.toList head stop
  let frame := frame ++ octets.toArray
  if frame.size = e then do
    let packet ← slice frame.toList (min w.layout.strip.toNat frame.size) frame.size
    pure ⟨stop, asked, none, #[], packets.push packet⟩
  else pure ⟨stop, asked, some e, frame, packets⟩

def turn (w : FickleFraming) (buffer : Array UInt8) (filled : Nat) : Cursor → Except Fault Turn
  | ⟨head, asked, some e, frame, packets⟩ => do
    pure (.again (← gather w buffer filled head asked frame packets e))
  | ⟨head, asked, none, frame, packets⟩ => do
    let unread ← slice buffer.toList head filled
    match (w.after asked).frameSize unread with
    | .error e => pure (.over ⟨head, asked + 1, none, frame, packets⟩ (some e))
    | .ok none =>
      let failure := if head = 0 ∧ filled = buffer.size then
        some (Failure.invalidPacket 0 w.layout.maxFrame.toNat) else none
      pure (.over ⟨head, asked + 1, none, frame, packets⟩ failure)
    | .ok (some e) => pure (.again (← gather w buffer filled head (asked + 1) frame packets e))

/-- Turns as long as something is unread; `none` if `limit` of them are too few. -/
def turns (w : FickleFraming) (buffer : Array UInt8) (filled : Nat) :
    (limit : Nat) → Cursor → Except Fault (Option (Cursor × Option Failure))
  | 0, _ => pure none
  | limit + 1, c =>
    if c.head < filled then do
      match ← turn w buffer filled c with
      | .again c => turns w buffer filled limit c
      | .over c failure => pure (some (c, failure))
    else pure (some (c, none))

/-- `Assembler.commitBy` with at most `limit` turns. -/
def commit (w : FickleFraming) (limit k n : Nat) : Assembler → Except Fault (Option (Receipt × Nat))
  | ⟨buffer, filled, frame, expected⟩ => do
    let filled := min (← sum filled n) buffer.size
    match ← turns w buffer filled limit ⟨0, k, expected, frame, #[]⟩ with
    | none => pure none
    | some (c, some e) =>
      pure (some (⟨⟨buffer, filled, c.frame, c.expected⟩, c.packets, some e⟩, c.asked))
    | some (c, none) =>
      if 0 < c.head then do
        let rest ← slice buffer.toList c.head filled
        let left ← diff filled c.head
        let buffer := Assembler.overlay buffer 0 rest
        pure (some (⟨⟨buffer, left, c.frame, c.expected⟩, c.packets, none⟩, c.asked))
      else pure (some (⟨⟨buffer, filled, c.frame, c.expected⟩, c.packets, none⟩, c.asked))

/-- `Assembler.feedBy` with at most `rounds` commits of at most `limit` turns each. -/
def feed (w : FickleFraming) (limit : Nat) :
    (rounds k : Nat) → (data : Bytes) → Assembler → Except Fault (Option (Receipt × Nat))
  | 0, _, _, _ => pure none
  | rounds + 1, k, data, a =>
    if data.isEmpty then pure (some (⟨a, #[], none⟩, k))
    else do
      let spare ← slice a.buffer.toList a.filled a.buffer.size
      let n := min spare.length data.length
      let piece ← slice data 0 n
      let data ← slice data n data.length
      match ← commit w limit k n (a.write piece) with
      | none => pure none
      | some (⟨a, packets, some e⟩, k) => pure (some (⟨a, packets, some e⟩, k))
      | some (⟨a, packets, none⟩, k) => do
        match ← feed w limit rounds k data a with
        | none => pure none
        | some (later, k) => pure (some ({ later with packets := packets ++ later.packets }, k))

/-! ## Steps that have a result -/

theorem sum_of_lt {a b : Nat} (h : a + b < UInt64.size) : sum a b = .ok (a + b) := if_pos h

theorem diff_of_le {a b : Nat} (h : b ≤ a) : diff a b = .ok (a - b) := if_pos h

theorem slice_of_le {octets : Bytes} {i j : Nat} (hij : i ≤ j) (hj : j ≤ octets.length) :
    slice octets i j = .ok ((octets.take j).drop i) := if_pos ⟨hij, hj⟩

/-! ## The run over the buffer -/

section
variable {w : FickleFraming} {buffer : Array UInt8} {filled head asked : Nat} {frame : Array UInt8}
  {packets : Array Bytes}

/-- What stands before the head is done with. -/
def unread (buffer : Array UInt8) (filled head : Nat) : Bytes := (buffer.toList.take filled).drop head

theorem length_unread (hfilled : filled ≤ buffer.size) (head : Nat) :
    (unread buffer filled head).length = filled - head := by
  simp only [unread, List.length_drop, List.length_take, Array.length_toList]
  omega

/-- The next octets are the first unread ones. -/
theorem slice_unread (hfilled : filled ≤ buffer.size) {n : Nat} (hn : head + n ≤ filled) :
    slice buffer.toList head (head + n) = .ok ((unread buffer filled head).take n) := by
  have hlen : head + n ≤ buffer.toList.length := by
    rw [Array.length_toList]
    omega
  rw [slice_of_le (Nat.le_add_right head n) hlen, unread, List.take_drop, List.take_take,
    Nat.min_eq_left hn]

/-- A frame that stays short takes all that is unread. -/
theorem gather_of_part (hfilled : filled ≤ buffer.size) (hsize : buffer.size < UInt64.size)
    (hhead : head < filled) {e : Nat} (hpart : filled - head < e - frame.size) :
    gather w buffer filled head asked frame packets e =
      .ok ⟨filled, asked, some e, frame ++ (unread buffer filled head).toArray, packets⟩ := by
  have hunread := length_unread hfilled head
  have hmin : min (e - frame.size) (filled - head) = filled - head := by omega
  have hstop : head + (filled - head) = filled := by omega
  have hslice := slice_unread hfilled (Nat.le_of_eq hstop)
  rw [hstop, List.take_of_length_le (Nat.le_of_eq hunread)] at hslice
  have hshort : (frame ++ (unread buffer filled head).toArray).size ≠ e := by
    simp only [Array.size_append, List.size_toArray, hunread]
    omega
  rw [gather, diff_of_le (by omega), diff_of_le (Nat.le_of_lt hhead)]
  simp only [bind, Except.bind, hmin]
  rw [sum_of_lt (by omega), hstop]
  simp only [hslice, if_neg hshort]
  rfl

/-- A frame that is complete is handed on. -/
theorem gather_of_whole (hfilled : filled ≤ buffer.size) (hsize : buffer.size < UInt64.size) {e : Nat}
    (hshort : frame.size < e) (hwhole : e - frame.size ≤ filled - head) :
    gather w buffer filled head asked frame packets e =
      .ok ⟨head + (e - frame.size), asked, none, #[], packets.push ((w.after asked).payload
        (frame.toList ++ (unread buffer filled head).take (e - frame.size)))⟩ := by
  have hunread := length_unread hfilled head
  have hmin : min (e - frame.size) (filled - head) = e - frame.size := by omega
  have hstop : head + (e - frame.size) ≤ filled := by omega
  have hslice := slice_unread hfilled hstop
  obtain ⟨whole, heq⟩ : ∃ whole,
      frame ++ ((unread buffer filled head).take (e - frame.size)).toArray = whole := ⟨_, rfl⟩
  have hlist : frame.toList ++ (unread buffer filled head).take (e - frame.size) = whole.toList := by
    rw [← heq, Array.toList_append]
  have hfull : whole.size = e := by
    simp only [← heq, Array.size_append, List.size_toArray, List.length_take, hunread]
    omega
  have hstrip : slice whole.toList (min w.layout.strip.toNat whole.size) whole.size =
      .ok ((w.after asked).payload whole.toList) := by
    rw [slice_of_le (Nat.min_le_right _ _) (Nat.le_of_eq Array.length_toList.symm),
      List.take_of_length_le (Nat.le_of_eq Array.length_toList), Assembler.payload_eq]
    rfl
  rw [gather, diff_of_le (Nat.le_of_lt hshort), diff_of_le (by omega)]
  simp only [bind, Except.bind, hmin]
  rw [sum_of_lt (by omega)]
  simp only [hslice, heq, if_pos hfull, hstrip, hlist]
  rfl

theorem slice_rest (hle : head ≤ filled) (hfilled : filled ≤ buffer.size) :
    slice buffer.toList head filled = .ok (unread buffer filled head) :=
  slice_of_le hle (Nat.le_trans hfilled (Nat.le_of_eq Array.length_toList.symm))

/-! A turn without a known size shows the decoder what is unread. -/

theorem turn_of_error (hle : head ≤ filled) (hfilled : filled ≤ buffer.size) {e : Failure}
    (hs : (w.after asked).frameSize (unread buffer filled head) = .error e) :
    turn w buffer filled ⟨head, asked, none, frame, packets⟩ =
      .ok (.over ⟨head, asked + 1, none, frame, packets⟩ (some e)) := by
  simp only [turn, slice_rest hle hfilled, bind, Except.bind, hs]
  rfl

theorem turn_of_none (hle : head ≤ filled) (hfilled : filled ≤ buffer.size)
    (hs : (w.after asked).frameSize (unread buffer filled head) = .ok none) :
    turn w buffer filled ⟨head, asked, none, frame, packets⟩ =
      .ok (.over ⟨head, asked + 1, none, frame, packets⟩ (if head = 0 ∧ filled = buffer.size then
        some (Failure.invalidPacket 0 w.layout.maxFrame.toNat) else none)) := by
  simp only [turn, slice_rest hle hfilled, bind, Except.bind, hs]
  rfl

theorem turn_of_size (hle : head ≤ filled) (hfilled : filled ≤ buffer.size) {e : Nat}
    (hs : (w.after asked).frameSize (unread buffer filled head) = .ok (some e)) :
    turn w buffer filled ⟨head, asked, none, frame, packets⟩ =
      (gather w buffer filled head (asked + 1) frame packets e).map .again := by
  simp only [turn, slice_rest hle hfilled, bind, Except.bind, hs]
  rfl

variable {c : Cursor}

theorem turns_done (limit asked : Nat) (expected : Option Nat) (frame : Array UInt8)
    (packets : Array Bytes) :
    turns w buffer filled (limit + 1) ⟨filled, asked, expected, frame, packets⟩ =
      .ok (some (⟨filled, asked, expected, frame, packets⟩, none)) :=
  if_neg (Nat.lt_irrefl filled)

theorem turns_of_again (hhead : c.head < filled) {c' : Cursor}
    (h : turn w buffer filled c = .ok (.again c')) (limit : Nat) :
    turns w buffer filled (limit + 1) c = turns w buffer filled limit c' := by
  rw [turns, if_pos hhead, h]
  rfl

theorem turns_of_over (hhead : c.head < filled) {c' : Cursor} {failure : Option Failure}
    (h : turn w buffer filled c = .ok (.over c' failure)) (limit : Nat) :
    turns w buffer filled (limit + 1) c = .ok (some (c', failure)) := by
  rw [turns, if_pos hhead, h]
  rfl

/-- Where a run stands that left `s`, and how it ended. -/
def ended (filled : Nat) : Scan × Nat → Cursor × Option Failure
  | (s, k) => (⟨filled - s.rest.length, k, s.expected, s.frame, s.packets⟩, s.failure)

/-- The rest of a run that is at `head`, as a scan. -/
def scanFrom (w : FickleFraming) (buffer : Array UInt8) (filled : Nat) : Cursor → Scan × Nat
  | ⟨head, asked, expected, frame, packets⟩ =>
    Assembler.scanBy w asked (head = 0 ∧ filled = buffer.size) expected frame packets
      (unread buffer filled head)

/-- **Each turn takes an octet or is the last**, so that the turns end as a scan of what is unread. -/
theorem turns_eq (hfilled : filled ≤ buffer.size) (hsize : buffer.size < UInt64.size)
    (hle : c.head ≤ filled) {m : Nat} (hbegun : Assembler.Begun m c.expected c.frame) {limit : Nat}
    (hlimit : filled - c.head < limit) :
    turns w buffer filled limit c = .ok (some (ended filled (scanFrom w buffer filled c))) := by
  induction limit generalizing c with
  | zero => omega
  | succ limit ih =>
    obtain ⟨head, asked, expected, frame, packets⟩ := c
    simp only at hle hbegun hlimit
    have hlen := length_unread hfilled head
    by_cases hdone : head = filled
    · subst hdone
      have hnil : unread buffer head head = [] := List.eq_nil_of_length_eq_zero (by omega)
      rw [turns_done, scanFrom, hnil, Assembler.scanBy.eq_def]
      rfl
    have hhead : head < filled := by omega
    have hne : unread buffer filled head ≠ [] := List.ne_nil_of_length_pos (by omega)
    have hkeep : filled - (unread buffer filled head).length = head := by omega
    -- with a known size the next turn is behind the frame, or behind all that is unread
    have hknown : ∀ k e, frame.size < e →
        turn w buffer filled ⟨head, asked, expected, frame, packets⟩ =
          (gather w buffer filled head k frame packets e).map .again →
        turns w buffer filled (limit + 1) ⟨head, asked, expected, frame, packets⟩ =
          .ok (some (ended filled (scanFrom w buffer filled ⟨head, k, some e, frame, packets⟩))) := by
      intro k e hshort hturn
      rw [scanFrom, Assembler.scanBy_some hne hshort, hlen]
      by_cases hpart : filled - head < e - frame.size
      · rw [gather_of_part hfilled hsize hhead hpart] at hturn
        obtain ⟨limit, rfl⟩ : ∃ l, limit = l + 1 := ⟨limit - 1, by omega⟩
        rw [turns_of_again hhead hturn, turns_done, if_pos hpart]
        rfl
      · rw [gather_of_whole hfilled hsize hshort (Nat.le_of_not_lt hpart)] at hturn
        have hpast : ¬ (head + (e - frame.size) = 0 ∧ filled = buffer.size) := by omega
        rw [turns_of_again hhead hturn, if_neg hpart]
        refine (ih ?_ ?_ ?_).trans ?_
        · simp only
          omega
        · rfl
        · simp only
          omega
        · rw [scanFrom, decide_eq_false hpast, unread, unread, List.drop_drop]
    cases expected with
    | some e => exact hknown asked e hbegun.1 rfl
    | none =>
      obtain ⟨b, tail, hcons⟩ := List.exists_cons_of_ne_nil hne
      cases hs : (w.after asked).frameSize (unread buffer filled head) with
      | error e =>
        rw [turns_of_over hhead (turn_of_error hle hfilled hs), scanFrom, Assembler.scanBy.eq_def]
        simp only [hcons] at hs hkeep ⊢
        simp only [hs, ended, hkeep]
      | ok size =>
        cases size with
        | none =>
          rw [turns_of_over hhead (turn_of_none hle hfilled hs), scanFrom, Assembler.scanBy.eq_def]
          simp only [hcons] at hs hkeep ⊢
          simp only [hs, ended, hkeep, decide_eq_true_eq]
        | some e =>
          have hshort : frame.size < e := by
            obtain rfl : frame = #[] := hbegun
            exact Framing.frameSize_pos hs
          have hscan : scanFrom w buffer filled ⟨head, asked, none, frame, packets⟩ =
              scanFrom w buffer filled ⟨head, asked + 1, some e, frame, packets⟩ :=
            Assembler.scanBy_of_frameSize hne hs
          rw [hscan]
          exact hknown (asked + 1) e hshort (turn_of_size hle hfilled hs)

end

end Checked

/-! ## What a call leaves -/

namespace Assembler

/-- How an assembler stands between two calls that went well. -/
inductive Settled (a : Assembler) : Prop
  | header (unknown : a.expected = none) (fresh : a.frame = #[]) (room : a.filled < a.capacity)
  | body {e : Nat} (known : a.expected = some e) (short : a.frame.size < e) (empty : a.filled = 0)

/-- How a run stops that was not refused: between two frames, with less than a full buffer unread, or
within a frame that took all there was. -/
inductive Stops (full : Bool) (rest : Bytes) (s : Scan) : Prop
  | header (unknown : s.expected = none) (fresh : s.frame = #[])
      (room : full = true → rest ≠ [] → s.rest.length < rest.length)
  | body {e : Nat} (known : s.expected = some e) (short : s.frame.size < e) (empty : s.rest = [])

section
variable {w : FickleFraming} {m : Nat}

/-- A run leaves a tail of what it was given. -/
theorem rest_scanBy_suffix (w : FickleFraming) (k : Nat) (full : Bool) (expected : Option Nat)
    (frame : Array UInt8) (packets : Array Bytes) (rest : Bytes) :
    (scanBy w k full expected frame packets rest).1.rest <:+ rest := by
  induction hn : rest.length using Nat.strongRecOn
    generalizing k full expected frame packets rest with
  | ind n ih =>
    cases rest with
    | nil => simp [scanBy.eq_def]
    | cons b tail =>
      rw [scanBy.eq_def]
      simp only
      split
      · exact List.suffix_rfl
      · exact List.suffix_rfl
      · split
        · exact List.suffix_rfl
        · rename_i missing _
          split
          · have hlt : (tail.drop missing).length < n := by
              rw [← hn, List.length_drop, List.length_cons]
              omega
            exact (ih _ hlt _ _ _ _ _ _ rfl).trans
              ((List.drop_suffix missing tail).trans (List.suffix_cons b tail))
          · exact List.nil_suffix

/-- **A run that is not refused stops where the next call can go on.** -/
theorem stops_scanBy {k : Nat} {full : Bool} {expected : Option Nat} {frame : Array UInt8}
    {packets : Array Bytes} {rest : Bytes} (hbegun : Begun m expected frame) (hrest : rest ≠ [])
    (hok : (scanBy w k full expected frame packets rest).1.failure = none) :
    Stops full rest (scanBy w k full expected frame packets rest).1 := by
  induction hn : rest.length using Nat.strongRecOn
    generalizing k full expected frame packets rest with
  | ind n ih =>
    have hpos : 0 < rest.length := List.length_pos_iff.2 hrest
    have hknown : ∀ k e, frame.size < e →
        (scanBy w k full (some e) frame packets rest).1.failure = none →
        Stops full rest (scanBy w k full (some e) frame packets rest).1 := by
      intro k e hshort hok
      rw [scanBy_some hrest hshort] at hok ⊢
      split
      · refine .body rfl ?_ rfl
        simp only [Array.size_append, List.size_toArray]
        omega
      · rename_i hlong
        rw [if_neg hlong] at hok
        -- what stands behind the frame is less than there was
        have hlt : (rest.drop (e - frame.size)).length < rest.length := by
          rw [List.length_drop]
          omega
        have hle := (rest_scanBy_suffix w k false none #[] (packets.push ((w.after k).payload
          (frame.toList ++ rest.take (e - frame.size)))) (rest.drop (e - frame.size))).length_le
        by_cases hnil : rest.drop (e - frame.size) = []
        · rw [hnil, scanBy.eq_def]
          exact .header rfl rfl fun _ _ => hpos
        · have hfresh : Begun m none #[] := rfl
          cases ih _ (hn ▸ hlt) hfresh hnil hok rfl with
          | header unknown fresh room =>
            exact .header unknown fresh fun _ _ => Nat.lt_of_le_of_lt hle hlt
          | body known short empty => exact .body known short empty
    cases expected with
    | some e => exact hknown k e hbegun.1 hok
    | none =>
      obtain rfl : frame = #[] := hbegun
      cases hs : (w.after k).frameSize rest with
      | ok size =>
        cases size with
        | none =>
          obtain ⟨b, tail, rfl⟩ := List.exists_cons_of_ne_nil hrest
          rw [scanBy.eq_def] at hok ⊢
          simp only [hs] at hok ⊢
          refine .header rfl rfl fun hfull _ => ?_
          simp [hfull] at hok
        | some e =>
          rw [scanBy_of_frameSize hrest hs] at hok ⊢
          exact hknown (k + 1) e (Framing.frameSize_pos hs) hok
      | error e =>
        obtain ⟨b, tail, rfl⟩ := List.exists_cons_of_ne_nil hrest
        rw [scanBy.eq_def] at hok
        simp [hs] at hok

theorem Settled.begun {a : Assembler} (ha : a.Settled) : ∃ m, Begun m a.expected a.frame := by
  cases ha with
  | header unknown fresh room =>
    rw [unknown]
    exact ⟨0, fresh⟩
  | body known short empty =>
    rw [known]
    exact ⟨_, short, Nat.le_refl _⟩

theorem Settled.spare_pos {a : Assembler} (ha : a.Settled) (hcap : 0 < a.capacity) : 0 < a.spare := by
  cases ha with
  | header unknown fresh room => exact Nat.sub_pos_of_lt room
  | body known short empty =>
    rw [spare, empty]
    exact hcap

theorem Settled.write {a : Assembler} (ha : a.Settled) (data : Bytes) : (a.write data).Settled := by
  cases ha with
  | header unknown fresh room =>
    exact .header unknown fresh (Nat.lt_of_lt_of_eq room (size_overlay data a.buffer a.filled).symm)
  | body known short empty => exact .body known short empty

theorem capacity_write (a : Assembler) (data : Bytes) : (a.write data).capacity = a.capacity :=
  size_overlay data a.buffer a.filled

theorem capacity_commitBy (w : FickleFraming) (k n : Nat) (a : Assembler) :
    (a.commitBy w k n).1.assembler.capacity = a.capacity := by
  obtain ⟨buffer, filled, frame, expected⟩ := a
  simp only [commitBy, capacity]
  split
  · rfl
  · exact size_moved buffer _ _

/-- **A commit that is not refused leaves an assembler that can go on.** -/
theorem Settled.commitBy {a : Assembler} (ha : a.Settled) {k n : Nat}
    (hok : (a.commitBy w k n).1.failure = none) : (a.commitBy w k n).1.assembler.Settled := by
  obtain ⟨m, hbegun⟩ := ha.begun
  obtain ⟨buffer, filled, frame, expected⟩ := a
  simp only at hbegun
  obtain ⟨stop, hstop⟩ : ∃ stop, min (filled + n) buffer.size = stop := ⟨_, rfl⟩
  simp only [Assembler.commitBy, hstop] at hok ⊢
  have hlen : (buffer.take stop).toList.length = stop := by
    rw [toList_take, List.length_take, Array.length_toList]
    omega
  have hle := (rest_scanBy_suffix w k (decide (stop = buffer.size)) expected frame #[]
    (buffer.take stop).toList).length_le
  have hstops (hnil : (buffer.take stop).toList ≠ [])
      (hgood : (scanBy w k (decide (stop = buffer.size)) expected frame #[]
        (buffer.take stop).toList).1.failure = none) :=
    stops_scanBy hbegun hnil hgood
  -- where nothing is unread, nothing happens
  have hnothing : (buffer.take stop).toList = [] → scanBy w k (decide (stop = buffer.size)) expected
      frame #[] (buffer.take stop).toList = (⟨expected, frame, [], #[], none⟩, k) := by
    intro hnil
    rw [hnil, scanBy.eq_def]
  generalize scanBy w k (decide (stop = buffer.size)) expected frame #[]
    (buffer.take stop).toList = r at hok hle hstops hnothing ⊢
  obtain ⟨⟨expected', frame', rest, packets, failure⟩, k'⟩ := r
  simp only at hok hle hstops hnothing ⊢
  cases failure with
  | some e => exact absurd hok (Option.some_ne_none e)
  | none =>
    by_cases hnil : (buffer.take stop).toList = []
    · simp only [Prod.mk.injEq, Scan.mk.injEq] at hnothing
      obtain ⟨⟨rfl, rfl, rfl, -⟩, -⟩ := hnothing hnil
      cases ha with
      | header unknown fresh room =>
        refine .header unknown fresh ?_
        simp only [capacity, size_moved] at room ⊢
        exact Nat.lt_of_le_of_lt (Nat.zero_le filled) room
      | body known short empty => exact .body known short rfl
    · cases hstops hnil rfl with
      | header unknown fresh room =>
        refine .header unknown fresh ?_
        simp only [capacity, size_moved]
        by_cases hfull : stop = buffer.size
        · have := room (decide_eq_true hfull) hnil
          simp only at this
          omega
        · omega
      | body known short empty => exact .body known short (congrArg List.length empty)

theorem filled_write (a : Assembler) (data : Bytes) : (a.write data).filled = a.filled := rfl

/-- **A feed that is not refused leaves an assembler that can go on.** -/
theorem Settled.feedBy {a : Assembler} (ha : a.Settled) (hcap : 0 < a.capacity) {k : Nat} {data : Bytes}
    (hok : (a.feedBy w k data).1.failure = none) :
    (a.feedBy w k data).1.assembler.Settled ∧
      (a.feedBy w k data).1.assembler.capacity = a.capacity := by
  induction hn : data.length using Nat.strongRecOn generalizing k data a with
  | ind n ih =>
    by_cases hdata : data = []
    · rw [hdata, Assembler.feedBy]
      exact ⟨ha, rfl⟩
    have hspare := ha.spare_pos hcap
    have hlt : (data.drop a.spare).length < n := by
      have := List.length_pos_iff.2 hdata
      rw [List.length_drop]
      omega
    have hcommit := (ha.write (data.take a.spare)).commitBy (w := w) (k := k)
      (n := (data.take a.spare).length)
    have hsame := (capacity_commitBy w k (data.take a.spare).length (a.write (data.take a.spare))).trans
      (capacity_write a _)
    rw [feedBy_of_spare hdata hspare] at hok ⊢
    generalize (a.write (data.take a.spare)).commitBy w k (data.take a.spare).length = r
      at hok hcommit hsame ⊢
    obtain ⟨⟨a', packets, failure⟩, k'⟩ := r
    cases failure with
    | some e => exact absurd hok (Option.some_ne_none e)
    | none =>
      obtain ⟨hsettled, hcap'⟩ := ih _ hlt (hcommit rfl) (hsame ▸ hcap) hok rfl
      exact ⟨hsettled, hcap'.trans hsame⟩

end

end Assembler

/-! ## The loops end -/

namespace Checked

variable {w : FickleFraming} {a : Assembler} {limit : Nat}

/-- **A commit ends**, and as the assembler's own. -/
theorem commit_of_settled (ha : a.Settled) (hsize : a.capacity < UInt64.size) {k n : Nat}
    (hn : a.filled + n < UInt64.size) (hlimit : a.capacity < limit) :
    commit w limit k n a = .ok (some (a.commitBy w k n)) := by
  obtain ⟨m, hbegun⟩ := ha.begun
  obtain ⟨buffer, filled, frame, expected⟩ := a
  simp only [Assembler.capacity] at hbegun hsize hn hlimit
  obtain ⟨stop, hstop⟩ : ∃ stop, min (filled + n) buffer.size = stop := ⟨_, rfl⟩
  have hle : stop ≤ buffer.size := by omega
  have hturns : turns w buffer stop limit ⟨0, k, expected, frame, #[]⟩ = .ok (some (ended stop
      (Assembler.scanBy w k (decide (stop = buffer.size)) expected frame #[]
        (buffer.take stop).toList))) := by
    rw [turns_eq hle hsize (Nat.zero_le stop) hbegun (by simp only; omega), scanFrom, unread,
      Assembler.toList_take, List.drop_zero]
    simp only [true_and]
  have hlen : (buffer.take stop).toList.length = stop := by
    rw [Assembler.toList_take, List.length_take, Array.length_toList]
    omega
  have hsuffix := Assembler.rest_scanBy_suffix w k (decide (stop = buffer.size)) expected frame #[]
    (buffer.take stop).toList
  simp only [commit, Assembler.commitBy, sum_of_lt hn, bind, Except.bind, hstop, hturns]
  generalize Assembler.scanBy w k (decide (stop = buffer.size)) expected frame #[]
    (buffer.take stop).toList = r at hsuffix ⊢
  obtain ⟨⟨expected', frame', rest, packets, failure⟩, k'⟩ := r
  simp only at hsuffix
  have hshorter : rest.length ≤ stop := hlen ▸ hsuffix.length_le
  cases failure with
  | some e => rfl
  | none =>
    simp only [ended]
    by_cases hall : rest.length = stop
    · rw [if_neg (by omega), if_pos hall, hall]
      rfl
    · have hrest : (buffer.toList.take stop).drop (stop - rest.length) = rest := by
        have := List.suffix_iff_eq_drop.1 hsuffix
        rw [hlen, Assembler.toList_take] at this
        exact this.symm
      rw [if_pos (by omega), if_neg hall, slice_of_le (Nat.sub_le _ _) (by simpa using hle)]
      simp only [diff_of_le (Nat.sub_le stop rest.length), hrest, Nat.sub_sub_self hshorter]
      rfl

/-- **A feed ends**, and as the assembler's own. -/
theorem feed_of_settled (ha : a.Settled) (hcap : 0 < a.capacity) (hsize : a.capacity < UInt64.size)
    (hlimit : a.capacity < limit) {rounds k : Nat} {data : Bytes} (hrounds : data.length < rounds) :
    feed w limit rounds k data a = .ok (some (a.feedBy w k data)) := by
  induction rounds generalizing k data a with
  | zero => omega
  | succ rounds ih =>
    by_cases hdata : data = []
    · rw [hdata, feed, Assembler.feedBy]
      rfl
    have hpos := List.length_pos_iff.2 hdata
    have hspare := ha.spare_pos hcap
    have hfilled : a.filled < a.capacity := Nat.lt_of_sub_pos hspare
    have hpiece : (data.take a.spare).length = min a.spare data.length := List.length_take
    have hroom : slice a.buffer.toList a.filled a.buffer.size = .ok (a.buffer.toList.drop a.filled) := by
      have hle : a.filled ≤ a.buffer.size := Nat.le_of_lt hfilled
      rw [slice_of_le hle (Nat.le_of_eq Array.length_toList.symm),
        List.take_of_length_le (Nat.le_of_eq Array.length_toList)]
    have hlen : (a.buffer.toList.drop a.filled).length = a.spare := by
      rw [List.length_drop, Array.length_toList]
      rfl
    have htake : slice data 0 (min a.spare data.length) = .ok (data.take a.spare) := by
      rw [slice_of_le (Nat.zero_le _) (Nat.min_le_right _ _), ← List.take_eq_take_min]
      rfl
    have hdrop : slice data (min a.spare data.length) data.length = .ok (data.drop a.spare) := by
      rw [slice_of_le (Nat.min_le_right _ _) (Nat.le_refl _), List.take_length,
        ← List.drop_eq_drop_min]
    have hsame := a.capacity_write (data.take a.spare)
    have hcommit : commit w limit k (min a.spare data.length) (a.write (data.take a.spare)) =
        .ok (some ((a.write (data.take a.spare)).commitBy w k (data.take a.spare).length)) := by
      rw [← hpiece]
      refine commit_of_settled (ha.write _) (hsame ▸ hsize) ?_ (hsame ▸ hlimit)
      rw [a.filled_write, hpiece, Assembler.spare]
      omega
    have hnext := (ha.write (data.take a.spare)).commitBy (w := w) (k := k)
      (n := (data.take a.spare).length)
    have hcap' := (Assembler.capacity_commitBy w k (data.take a.spare).length
      (a.write (data.take a.spare))).trans hsame
    rw [feed, if_neg (by simpa using hdata), Assembler.feedBy_of_spare hdata hspare]
    simp only [bind, Except.bind, hroom, hlen, htake, hdrop, hcommit]
    generalize (a.write (data.take a.spare)).commitBy w k (data.take a.spare).length = r at hnext hcap' ⊢
    obtain ⟨⟨a', packets, failure⟩, k'⟩ := r
    cases failure with
    | some e => rfl
    | none =>
      simp only at hcap'
      have hfewer : (data.drop a.spare).length < rounds := by
        rw [List.length_drop]
        omega
      have hlater := ih (k := k') (hnext rfl) (hcap' ▸ hcap) (hcap' ▸ hsize) (hcap' ▸ hlimit) hfewer
      simp only [hlater]
      rfl

end Checked

/-! ## Every state that calls lead to -/

namespace Assembler

/-- What calls that went well make of a new assembler of room `c`, or of one that was reset. Each call
brings its framing and its decoder along; octets come into the spare room as they like. -/
inductive Reached (c : UInt64) : Assembler → Prop
  | new : Reached c (withCapacity c.toNat)
  | reset {a : Assembler} (room : a.capacity = max c.toNat 1) : Reached c a.reset
  | write {a : Assembler} (before : Reached c a) (data : Bytes) : Reached c (a.write data)
  | commit {a : Assembler} (before : Reached c a) (w : FickleFraming) {n : Nat} (fits : a.filled + n < UInt64.size)
      (well : (a.commitBy w 0 n).1.failure = none) : Reached c (a.commitBy w 0 n).1.assembler
  | feed {a : Assembler} (before : Reached c a) (w : FickleFraming) {data : Bytes}
      (well : (a.feedBy w 0 data).1.failure = none) : Reached c (a.feedBy w 0 data).1.assembler

/-- The next call ends without a fault, whatever it is given: a commit after as many turns as there is
room, a feed after as many commits as it has octets. -/
structure Proceeds (a : Assembler) : Prop where
  commit : ∀ (w : FickleFraming) (n : Nat), a.filled + n < UInt64.size → ∀ limit, a.capacity < limit →
    Checked.commit w limit 0 n a = .ok (some (a.commitBy w 0 n))
  feed : ∀ (w : FickleFraming) (data : Bytes) (limit rounds : Nat), a.capacity < limit → data.length < rounds →
    Checked.feed w limit rounds 0 data a = .ok (some (a.feedBy w 0 data))

theorem capacity_withCapacity (c : Nat) : (withCapacity c).capacity = max c 1 := Array.size_replicate

theorem settled_reset {a : Assembler} (hcap : 0 < a.capacity) : a.reset.Settled := .header rfl rfl hcap

/-- One call keeps the assembler settled, and its room. -/
theorem settled_of_reached {c : UInt64} {a : Assembler} (h : Reached c a) :
    a.Settled ∧ a.capacity = max c.toNat 1 := by
  have hroom : 0 < max c.toNat 1 := Nat.lt_of_lt_of_le Nat.zero_lt_one (Nat.le_max_right _ _)
  induction h with
  | new =>
    have hcap := capacity_withCapacity c.toNat
    exact ⟨.header rfl rfl (hcap ▸ hroom), hcap⟩
  | reset room => exact ⟨settled_reset (room ▸ hroom), room⟩
  | write before data ih =>
    obtain ⟨ha, hcap⟩ := ih
    exact ⟨ha.write data, (capacity_write _ data).trans hcap⟩
  | commit before w fits well ih =>
    obtain ⟨ha, hcap⟩ := ih
    exact ⟨ha.commitBy well, (capacity_commitBy w 0 _ _).trans hcap⟩
  | feed before w well ih =>
    obtain ⟨ha, hcap⟩ := ih
    obtain ⟨ha', hcap'⟩ := ha.feedBy (hcap ▸ hroom) well
    exact ⟨ha', hcap'.trans hcap⟩

/-- **Whatever decoders answer and however framings are replaced, an assembler never gets stuck**: after
calls that went well it is settled and has spare room, and the next call ends. -/
theorem proceeds_of_reached {c : UInt64} {a : Assembler} (h : Reached c a) :
    a.Settled ∧ 0 < a.spare ∧ a.Proceeds := by
  obtain ⟨ha, hcap⟩ := settled_of_reached h
  have hc := c.toNat_lt
  have hpos : 0 < a.capacity := by omega
  have hsize : a.capacity < UInt64.size := by
    rw [hcap]
    show _ < 2 ^ 64
    omega
  exact ⟨ha, ha.spare_pos hpos, fun w n hn limit hlimit => Checked.commit_of_settled ha hsize hn hlimit,
    fun w data limit rounds hlimit hrounds => Checked.feed_of_settled ha hpos hsize hlimit hrounds⟩

/-- A decoder that contradicts itself within a call, and one put in its place that wants a longer frame
than the buffer holds. -/
theorem proceeds_after_switch :
    let fickle : FickleFraming := ⟨.standard, some fun k b => if k = 1 ∨ b.length < 3 then 0 else 3⟩
    let greedy : FickleFraming := .steady ⟨.standard, some (.constant 9)⟩
    let first := ((withCapacity 4).feedBy fickle 0 [1, 2]).1.assembler
    let second := (first.feedBy fickle 0 [3, 4]).1.assembler
    let third := ((second.write [5, 6]).commitBy greedy 0 2).1.assembler
    Reached 4 third ∧ (first.filled, second.filled, third.filled) = (2, 1, 0) ∧
      third.expected = some 9 ∧ third.frame.toList = [4, 5, 6] ∧
      third.Settled ∧ 0 < third.spare ∧ third.Proceeds := by
  intro fickle greedy first second third
  have hfirst : Reached 4 first := .feed .new fickle (by decide +kernel)
  have hsecond : Reached 4 second := .feed hfirst fickle (by decide +kernel)
  have hthird : Reached 4 third :=
    .commit (hsecond.write [5, 6]) greedy (by decide +kernel) (by decide +kernel)
  exact ⟨hthird, by decide +kernel, by decide +kernel, by decide +kernel, proceeds_of_reached hthird⟩

end Assembler

end NetReactor
