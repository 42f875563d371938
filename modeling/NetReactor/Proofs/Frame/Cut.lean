import NetReactor.Proofs.Frame.Length
import NetReactor.Proofs.Frame.Parse

/-!
# Streams cut into frames

What a length field makes of a stream, said without a parser: whole frames stand one behind the other,
each as long as its own header announces, and behind the last of them stands what cannot be one, either
a malformed header or the beginning of a frame. **A stream has at most one cut** (`Cut.unique`), and in
a valid layout the reference parse finds it (`exists_cut`).
-/

namespace NetReactor

namespace LengthField

variable (p : LengthField)

/-- A whole frame is as long as its header announces; that covers the header and is allowed. -/
structure IsFrame (b : Bytes) : Prop where
  header : p.headerLength ≤ b.length
  announced : p.announced b = b.length
  allowed : b.length ≤ p.maxFrame.toNat

/-- The header is complete and what it announces does not cover it or is not allowed. -/
def IsMalformed (b : Bytes) : Prop :=
  p.headerLength ≤ b.length ∧
    (p.announced b < p.headerLength ∨ (p.maxFrame.toNat : Int) < p.announced b)

/-- More octets are needed, for the header or for what it announces. -/
def IsPart (b : Bytes) : Prop :=
  b.length < p.headerLength ∨ (p.announced b ≤ p.maxFrame.toNat ∧ (b.length : Int) < p.announced b)

/-- Whole frames, and what stands behind the last of them. -/
structure Cut (stream : Bytes) (frames : List Bytes) (rest : Bytes) : Prop where
  stream_eq : stream = frames.flatten ++ rest
  whole : ∀ b ∈ frames, p.IsFrame b
  ends : p.IsMalformed rest ∨ p.IsPart rest

variable {p}

/-! ## What a header announces stands in its octets alone -/

theorem announced_take {n : Nat} (h : p.headerLength ≤ n) (b : Bytes) :
    p.announced (b.take n) = p.announced b := by
  simp only [headerLength] at h
  simp only [announced, List.drop_take, List.take_take, show min p.width.toNat (n - p.start) =
    p.width.toNat by omega]

theorem announced_append {b : Bytes} (h : p.headerLength ≤ b.length) (more : Bytes) :
    p.announced (b ++ more) = p.announced b := by
  rw [← announced_take h (b ++ more), List.take_left' rfl]

/-! ## A cut is unique -/

theorem IsPart.not_isMalformed {b : Bytes} (h : p.IsPart b) : ¬p.IsMalformed b := by
  rintro ⟨hlen, hlow | hhigh⟩
  · rcases h with hshort | ⟨-, hpart⟩ <;> omega
  · rcases h with hshort | ⟨hallowed, -⟩ <;> omega

theorem IsFrame.not_isMalformed_append {b : Bytes} (h : p.IsFrame b) (more : Bytes) :
    ¬p.IsMalformed (b ++ more) := by
  have hheader := h.header
  have hallowed := h.allowed
  rintro ⟨-, hbad⟩
  rw [announced_append hheader, h.announced] at hbad
  omega

theorem IsFrame.not_isPart_append {b : Bytes} (h : p.IsFrame b) (more : Bytes) :
    ¬p.IsPart (b ++ more) := by
  have hheader := h.header
  simp only [IsPart, announced_append hheader, h.announced, List.length_append]
  omega

/-- No frame begins where a cut ends. -/
theorem Cut.frames_ne_nil {b more rest : Bytes} {frames : List Bytes} (hb : p.IsFrame b)
    (h : p.Cut (b ++ more) frames rest) : frames ≠ [] := by
  rintro rfl
  have hrest : rest = b ++ more := by simpa using h.stream_eq.symm
  rcases h.ends with hbad | hpart
  · exact hb.not_isMalformed_append more (hrest ▸ hbad)
  · exact hb.not_isPart_append more (hrest ▸ hpart)

/-- **A stream has at most one cut.** -/
theorem Cut.unique {frames frames' : List Bytes} {stream rest rest' : Bytes}
    (h : p.Cut stream frames rest) (h' : p.Cut stream frames' rest') :
    frames = frames' ∧ rest = rest' := by
  induction frames generalizing stream frames' with
  | nil =>
    cases frames' with
    | nil => exact ⟨rfl, by simpa using h.stream_eq.symm.trans h'.stream_eq⟩
    | cons b tail =>
      have heq : stream = b ++ (tail.flatten ++ rest') := by simpa using h'.stream_eq
      exact absurd rfl (Cut.frames_ne_nil (h'.whole b (by simp)) (heq ▸ h))
  | cons b tail ih =>
    have heq : stream = b ++ (tail.flatten ++ rest) := by simpa using h.stream_eq
    have hb := h.whole b (by simp)
    cases frames' with
    | nil => exact absurd rfl (Cut.frames_ne_nil hb (heq ▸ h'))
    | cons b' tail' =>
      have heq' : stream = b' ++ (tail'.flatten ++ rest') := by simpa using h'.stream_eq
      have hb' := h'.whole b' (by simp)
      -- both frames are as long as the header of the stream announces
      have hlen : b.length = b'.length := by
        have hannounced := announced_append hb.header (tail.flatten ++ rest)
        have hannounced' := announced_append hb'.header (tail'.flatten ++ rest')
        rw [← heq, hb.announced] at hannounced
        rw [← heq', hb'.announced] at hannounced'
        omega
      obtain ⟨rfl, hrest⟩ := List.append_inj (heq.symm.trans heq') hlen
      have htail : p.Cut (tail.flatten ++ rest) tail rest :=
        ⟨rfl, fun c hc => h.whole c (List.mem_cons_of_mem b hc), h.ends⟩
      have htail' : p.Cut (tail.flatten ++ rest) tail' rest' :=
        ⟨hrest, fun c hc => h'.whole c (List.mem_cons_of_mem b hc), h'.ends⟩
      obtain ⟨rfl, rfl⟩ := ih htail htail'
      exact ⟨rfl, rfl⟩

/-! ## The reference parse finds the cut -/

section
variable {c : Nat} {r : Bytes}

theorem frameSize_of_short (hoff : 0 ≤ p.offset) (hlen : r.length < p.headerLength) :
    (Framing.mk p none).frameSize r = .ok none := by
  simp [Framing.frameSize, Framing.announced, frameLength_of_short hoff hlen]

theorem frameSize_of_isMalformed (h : p.Sound) (hoff : 0 ≤ p.offset) (hbad : p.IsMalformed r) :
    (Framing.mk p none).frameSize r = .error (.invalidPacket (-1) p.maxFrame.toNat) := by
  have hlength := toInt_frameLength h hoff hbad.1
  rw [if_pos hbad.2] at hlength
  simp [Framing.frameSize, Framing.announced, hlength]

theorem frameSize_of_announced (h : p.Sound) (hoff : 0 ≤ p.offset) {e : Nat}
    (hlen : p.headerLength ≤ r.length) (he : p.announced r = e) (hlow : p.headerLength ≤ e)
    (hhigh : e ≤ p.maxFrame.toNat) : (Framing.mk p none).frameSize r = .ok (some e) := by
  have hpos := headerLength_pos h
  have hlength := toInt_frameLength h hoff hlen
  rw [he, if_neg (by omega)] at hlength
  simp only [Framing.frameSize, Framing.announced, hlength]
  rw [if_neg (by omega), if_neg (by omega), Int.toNat_natCast]

/-- **The reference parse cuts a stream into its frames** and is refused where a header is malformed. -/
theorem exists_cut (h : p.Sound) (hoff : 0 ≤ p.offset) (hc : p.headerLength < c) (r : Bytes) :
    ∃ frames rest, p.Cut r frames rest ∧
      ((Framing.mk p none).parse c r).packets = frames.map (Framing.mk p none).payload ∧
      (p.IsMalformed rest → ((Framing.mk p none).parse c r).standing =
        .refused (.invalidPacket (-1) p.maxFrame.toNat)) ∧
      (p.IsPart rest → ∃ expected frame buffered,
        ((Framing.mk p none).parse c r).standing = .waiting expected frame buffered) := by
  induction hn : r.length using Nat.strongRecOn generalizing r with
  | ind n ih =>
    have hpos := headerLength_pos h
    by_cases hr : r = []
    · subst hr
      have hpart : p.IsPart [] := .inl (by simpa using hpos)
      exact ⟨[], [], ⟨rfl, by simp, .inr hpart⟩, by simp,
        fun hbad => absurd hbad hpart.not_isMalformed, by simp⟩
    by_cases hlen : r.length < p.headerLength
    · have hpart : p.IsPart r := .inl hlen
      have hsize := frameSize_of_short (r := r.take c) hoff (by simp; omega)
      rw [Framing.parse_of_none hr hsize, if_neg (by omega)]
      exact ⟨[], r, ⟨rfl, by simp, .inr hpart⟩, rfl,
        fun hbad => absurd hbad hpart.not_isMalformed, fun _ => ⟨_, _, _, rfl⟩⟩
    have hann := announced_take (p := p) (n := c) (by omega) r
    have htake : p.headerLength ≤ (r.take c).length := by simp; omega
    by_cases hbad : p.IsMalformed r
    · have hsize := frameSize_of_isMalformed h hoff (r := r.take c) ⟨htake, by rw [hann]; exact hbad.2⟩
      rw [Framing.parse_of_error hr hsize]
      exact ⟨[], r, ⟨rfl, by simp, .inl hbad⟩, rfl, fun _ => rfl,
        fun hpart => absurd hbad hpart.not_isMalformed⟩
    -- the header is good: it announces a size that covers it and is allowed
    have hgood : p.headerLength ≤ p.announced r ∧ p.announced r ≤ p.maxFrame.toNat := by
      simp only [IsMalformed] at hbad
      omega
    obtain ⟨e, he⟩ : ∃ e : Nat, p.announced r = e := ⟨(p.announced r).toNat, by omega⟩
    rw [he] at hgood
    have hsize := frameSize_of_announced h hoff htake (hann.trans he) (by omega) (by omega)
    by_cases hshort : r.length < e
    · have hpart : p.IsPart r := .inr ⟨by omega, by omega⟩
      rw [Framing.parse_of_some hr hsize, if_pos hshort]
      exact ⟨[], r, ⟨rfl, by simp, .inr hpart⟩, rfl, fun hbad' => absurd hbad' hbad,
        fun _ => ⟨_, _, _, rfl⟩⟩
    · obtain ⟨frames, rest, hcut, hpackets, hrefused, hwaiting⟩ :=
        ih (r.drop e).length (by simp; omega) (r.drop e) rfl
      have hlenTake : (r.take e).length = e := by simp; omega
      have hframe : p.IsFrame (r.take e) :=
        ⟨by omega, by rw [announced_take (by omega), he, hlenTake], by omega⟩
      rw [Framing.parse_of_some hr hsize, if_neg hshort]
      refine ⟨r.take e :: frames, rest, ⟨?_, ?_, hcut.ends⟩, ?_, hrefused, hwaiting⟩
      · rw [List.flatten_cons, List.append_assoc, ← hcut.stream_eq, List.take_append_drop]
      · simpa [hframe] using hcut.whole
      · have hstrip : (r.take e).drop p.strip.toNat = (r.take e).drop (min p.strip.toNat e) := by
          have := List.drop_eq_drop_min (i := p.strip.toNat) (l := r.take e)
          rwa [hlenTake] at this
        simp only [Parsed.after, hpackets, List.map_cons, Framing.payload, hstrip]
        rfl

end

end LengthField

end NetReactor
