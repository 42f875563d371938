import NetReactor.Frame.Framing

/-!
# The reference parse

What a whole stream of octets means to a framing, said without an assembler: look for the size of a
frame in the first octets of what remains, as many as a receive buffer holds, cut the frame off, and go
on behind it. **The parse is over where nothing remains**, where a size is refused or can never show,
and where the last frame is not complete.

A framing whose announcement of a length is not changed by more octets parses a stream in two parts as
it does in one (`parse_append`), so what is left open by the first part is all that has to be kept.
-/

namespace NetReactor

/-- How a stream ends once every whole frame has been cut off. -/
inductive Standing
  | refused (why : Failure)
  /-- The size of the frame in progress if it is known, what has arrived of it, and what is still to
  show a size. -/
  | waiting (expected : Option Nat) (frame buffered : Bytes)

structure Parsed where
  packets : List Bytes
  standing : Standing

namespace Parsed

/-- The same with packets that were cut off earlier. -/
def after (p : Parsed) (packets : List Bytes) : Parsed := ⟨packets ++ p.packets, p.standing⟩

@[simp] theorem after_nil (p : Parsed) : p.after [] = p := rfl

theorem after_after (p : Parsed) (xs ys : List Bytes) :
    (p.after ys).after xs = p.after (xs ++ ys) := by
  simp [after]

end Parsed

namespace Framing

/-- Once a length is announced, more octets do not change it. -/
def PrefixStable (f : Framing) : Prop :=
  ∀ b more, f.announced b ≠ 0 → f.announced (b ++ more) = f.announced b

/-- The parse of what remains, where a size is looked for in at most `c` octets. -/
def parse (f : Framing) (c : Nat) : Bytes → Parsed
  | [] => ⟨[], .waiting none [] []⟩
  | b :: tail =>
    match f.frameSize ((b :: tail).take c) with
    | .error e => ⟨[], .refused e⟩
    | .ok none =>
      if c ≤ (b :: tail).length then ⟨[], .refused (.invalidPacket 0 f.layout.maxFrame.toNat)⟩
      else ⟨[], .waiting none [] (b :: tail)⟩
    | .ok (some e) =>
      if (b :: tail).length < e then ⟨[], .waiting (some e) (b :: tail) []⟩
      else
        let packet := ((b :: tail).take e).drop (min f.layout.strip.toNat e)
        -- a size is never 0, so this drops `e` octets of the whole
        (parse f c (tail.drop (e - 1))).after [packet]
termination_by r => r.length

/-! ## Sizes -/

theorem frameSize_pos {f : Framing} {b : Bytes} {e : Nat} (h : f.frameSize b = .ok (some e)) :
    0 < e := by
  simp only [frameSize] at h
  split at h
  · simp at h
  · split at h
    · simp at h
    · simp only [Except.ok.injEq, Option.some.injEq] at h
      omega

/-- A size that is known, or a refusal, is not changed by more octets. -/
theorem PrefixStable.frameSize_append {f : Framing} (hf : f.PrefixStable) {b : Bytes}
    (h : f.frameSize b ≠ .ok none) (more : Bytes) : f.frameSize (b ++ more) = f.frameSize b := by
  have hb : f.announced b ≠ 0 := by
    intro h0
    exact h (by simp [frameSize, h0])
  simp only [frameSize, hf b more hb]

/-- A length field is read from the front alone. -/
theorem frameLength_append {p : LengthField} (hp : 0 ≤ p.offset) {b : Bytes}
    (h : p.frameLength b ≠ 0) (more : Bytes) : p.frameLength (b ++ more) = p.frameLength b := by
  have hoff : ¬ p.offset < 0 := Int32.not_lt.2 hp
  simp only [LengthField.frameLength, hoff, if_false] at h ⊢
  by_cases hlen : p.headerLength ≤ b.length
  · have hb : Bytes.atLeast p.headerLength b ≠ false := by simpa using hlen
    have hmore : Bytes.atLeast p.headerLength (b ++ more) ≠ false := by simp; omega
    have hfield : ((b ++ more).drop p.start).take p.width.toNat =
        (b.drop p.start).take p.width.toNat := by
      simp only [LengthField.headerLength] at hlen
      rw [List.drop_append_of_le_length (by omega), List.take_append_of_le_length (by simp; omega)]
    simp only [hb, hmore, hfield]
  · have hb : Bytes.atLeast p.headerLength b = false := Bool.eq_false_iff.2 (by simpa using hlen)
    simp [hb] at h

theorem prefixStable_of_layout {p : LengthField} (hp : 0 ≤ p.offset) : PrefixStable ⟨p, none⟩ :=
  fun _ more h => frameLength_append hp h more

/-! ## The cases of the parse -/

section
variable {f : Framing} {c : Nat} {r : Bytes}

@[simp] theorem parse_nil (f : Framing) (c : Nat) : f.parse c [] = ⟨[], .waiting none [] []⟩ := by
  rw [parse]

theorem parse_of_error {e : Failure} (hr : r ≠ []) (h : f.frameSize (r.take c) = .error e) :
    f.parse c r = ⟨[], .refused e⟩ := by
  obtain ⟨b, tail, rfl⟩ := List.exists_cons_of_ne_nil hr
  rw [parse, h]

theorem parse_of_none (hr : r ≠ []) (h : f.frameSize (r.take c) = .ok none) :
    f.parse c r = if c ≤ r.length then ⟨[], .refused (.invalidPacket 0 f.layout.maxFrame.toNat)⟩
      else ⟨[], .waiting none [] r⟩ := by
  obtain ⟨b, tail, rfl⟩ := List.exists_cons_of_ne_nil hr
  rw [parse, h]

theorem parse_of_some {e : Nat} (hr : r ≠ []) (h : f.frameSize (r.take c) = .ok (some e)) :
    f.parse c r = if r.length < e then ⟨[], .waiting (some e) r []⟩
      else (f.parse c (r.drop e)).after [(r.take e).drop (min f.layout.strip.toNat e)] := by
  obtain ⟨b, tail, rfl⟩ := List.exists_cons_of_ne_nil hr
  obtain ⟨n, rfl⟩ : ∃ n, e = n + 1 := ⟨e - 1, by have := frameSize_pos h; omega⟩
  rw [parse, h]
  simp

/-! ## Streams in two parts -/

/-- What more octets make of a parse: nothing after a refusal, else they are parsed behind what is
still open. -/
def resume (f : Framing) (c : Nat) (p : Parsed) (more : Bytes) : Parsed :=
  match p.standing with
  | .refused _ => p
  | .waiting _ frame buffered => (f.parse c (frame ++ buffered ++ more)).after p.packets

theorem resume_after (f : Framing) (c : Nat) (p : Parsed) (packets : List Bytes) (more : Bytes) :
    f.resume c (p.after packets) more = (f.resume c p more).after packets := by
  obtain ⟨ps, standing⟩ := p
  cases standing <;> simp [resume, Parsed.after]

/-- **A stream may be parsed in two parts.** -/
theorem parse_append (hf : f.PrefixStable) (p q : Bytes) :
    f.parse c (p ++ q) = f.resume c (f.parse c p) q := by
  induction hn : p.length using Nat.strongRecOn generalizing p with
  | ind n ih =>
    by_cases hp : p = []
    · simp [hp, resume]
    have hpq : p ++ q ≠ [] := by simp [hp]
    -- the first `c` octets may reach into `q`
    have htake : (p ++ q).take c = p.take c ++ q.take (c - p.length) := List.take_append
    cases hs : f.frameSize (p.take c) with
    | error e =>
      have hpq' : f.frameSize ((p ++ q).take c) = .error e := by
        rw [htake, hf.frameSize_append (by simp [hs]), hs]
      simp [parse_of_error hp hs, parse_of_error hpq hpq', resume]
    | ok size =>
      cases size with
      | none =>
        by_cases hfull : c ≤ p.length
        · have hpq' : f.frameSize ((p ++ q).take c) = .ok none := by
            rw [htake, show c - p.length = 0 by omega]
            simpa using hs
          have hfull' : c ≤ (p ++ q).length := by simp; omega
          simp only [parse_of_none hp hs, parse_of_none hpq hpq', hfull, hfull', if_true, resume]
        · simp [parse_of_none hp hs, hfull, resume]
      | some e =>
        have hpos := frameSize_pos hs
        by_cases hlt : p.length < e
        · simp [parse_of_some hp hs, hlt, resume]
        · have hpq' : f.frameSize ((p ++ q).take c) = .ok (some e) := by
            rw [htake, hf.frameSize_append (by simp [hs]), hs]
          have hlt' : ¬ (p ++ q).length < e := by simp; omega
          have hdrop : (p ++ q).drop e = p.drop e ++ q := List.drop_append_of_le_length (by omega)
          have htk : (p ++ q).take e = p.take e := List.take_append_of_le_length (by omega)
          simp only [parse_of_some hp hs, parse_of_some hpq hpq', hlt, hlt', if_false, hdrop, htk,
            resume_after]
          rw [ih (p.drop e).length (by simp; omega) _ rfl]

/-! ## What a parse leaves open -/

/-- What can stay open: octets that show no size and leave room for more, or a frame of known size that
is not complete. -/
inductive Open (f : Framing) (c : Nat) : Option Nat → Bytes → Bytes → Prop
  | header {buffered : Bytes} (room : buffered.length < c)
      (unknown : buffered ≠ [] → f.frameSize buffered = .ok none) : Open f c none [] buffered
  | body {e : Nat} {frame : Bytes} (begun : frame ≠ [])
      (known : f.frameSize (frame.take c) = .ok (some e)) (short : frame.length < e) :
      Open f c (some e) frame []

theorem Open.room (hc : 1 ≤ c) {expected : Option Nat} {frame buffered : Bytes}
    (h : Open f c expected frame buffered) : buffered.length < c := by
  cases h with
  | header room _ => exact room
  | body _ _ _ => exact hc

theorem open_of_parse (hc : 1 ≤ c) {packets : List Bytes} {expected : Option Nat}
    {frame buffered : Bytes} (h : f.parse c r = ⟨packets, .waiting expected frame buffered⟩) :
    Open f c expected frame buffered := by
  induction hn : r.length using Nat.strongRecOn generalizing r packets with
  | ind n ih =>
    by_cases hr : r = []
    · subst hr
      simp only [parse_nil, Parsed.mk.injEq, Standing.waiting.injEq] at h
      obtain ⟨-, rfl, rfl, rfl⟩ := h
      exact .header (by simp; omega) (by simp)
    cases hs : f.frameSize (r.take c) with
    | error e => simp [parse_of_error hr hs] at h
    | ok size =>
      cases size with
      | none =>
        rw [parse_of_none hr hs] at h
        split at h
        · simp at h
        · rename_i hroom
          simp only [Parsed.mk.injEq, Standing.waiting.injEq] at h
          obtain ⟨-, rfl, rfl, rfl⟩ := h
          rw [List.take_of_length_le (by omega)] at hs
          exact .header (by omega) fun _ => hs
      | some e =>
        have hpos := frameSize_pos hs
        rw [parse_of_some hr hs] at h
        split at h
        · rename_i hshort
          simp only [Parsed.mk.injEq, Standing.waiting.injEq] at h
          obtain ⟨-, rfl, rfl, rfl⟩ := h
          exact .body hr hs hshort
        · simp only [Parsed.after, Parsed.mk.injEq] at h
          have hlt : (r.drop e).length < n := by simp; omega
          have hrest : f.parse c (r.drop e) =
              ⟨(f.parse c (r.drop e)).packets, .waiting expected frame buffered⟩ := by
            rw [← h.2]
          exact ih _ hlt hrest rfl

/-- What is left open parses as itself. -/
theorem parse_of_open {expected : Option Nat} {frame buffered : Bytes}
    (h : Open f c expected frame buffered) :
    f.parse c (frame ++ buffered) = ⟨[], .waiting expected frame buffered⟩ := by
  cases h with
  | header room unknown =>
    by_cases hb : buffered = []
    · simp [hb]
    · have hs : f.frameSize (buffered.take c) = .ok none := by
        rw [List.take_of_length_le (by omega)]
        exact unknown hb
      simp [parse_of_none hb hs, show ¬ c ≤ buffered.length by omega]
  | body begun known short => simp [parse_of_some begun known, short]

end

end Framing

end NetReactor
