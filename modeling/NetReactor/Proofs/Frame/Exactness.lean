import NetReactor.Proofs.Frame.Length
import NetReactor.Proofs.Frame.Progress

/-!
# A length field is read exactly

`LengthField.frameLength` computes in machine words of several kinds: it shifts octets into an unsigned
word of 64 bits, takes that as signed, adds the adjustment, compares with a header and a maximum that are
taken as signed as well, and narrows what is left to 32 bits. `Checked.frameLength` is the same computation
with **every one of these steps checked**. In a valid layout whose field has a place **all of them go
through, and the length read is the exact integer** (`exact_of_isValid`): 0 for a header that is
incomplete, -1 for an integer out of bounds, and nothing behind the header changes it.
-/

namespace NetReactor

/-! ## Machine words that lose nothing -/

namespace Checked

/-- One more octet at the end of an unsigned word. -/
def shiftIn (acc : UInt64) (b : UInt8) : Except Fault UInt64 :=
  if acc.toNat * 256 < UInt64.size then .ok (acc <<< 8 ||| b.toUInt64) else .error .overflow

/-- An integer as a signed word of 64 bits. -/
def signed (n : Int) : Except Fault Int64 :=
  if Int64.minValue.toInt ≤ n ∧ n ≤ Int64.maxValue.toInt then .ok (Int64.ofInt n) else .error .overflow

/-- A signed word of 64 bits as one of 32. -/
def narrow (n : Int64) : Except Fault Int32 :=
  if Int32.minValue.toInt ≤ n.toInt ∧ n.toInt ≤ Int32.maxValue.toInt then .ok n.toInt32
  else .error .overflow

/-- `LengthField.frameLength` with every step checked. -/
def frameLength (p : LengthField) (buf : Bytes) : Except Fault Int32 :=
  if p.offset < 0 then .ok (Int32.ofNat (min buf.length 2147483647))
  else do
    let stop ← sum p.start p.width.toNat
    if buf.length < stop then pure 0
    else do
      let field ← slice buf p.start stop
      let word ← field.foldlM shiftIn 0
      let value ← signed word.toNat
      let length ← signed (value.toInt + p.adjustment.toInt)
      let least ← signed stop
      let most ← signed p.maxFrame.toNat
      if length < least || most < length then pure (-1) else narrow length

/-- An integer that a word stands for loses nothing as a word. -/
theorem signed_eq {n : Int} {x : Int64} (h : x.toInt = n) : signed n = .ok x := by
  subst h
  rw [signed, if_pos ⟨x.minValue_le_toInt, x.toInt_le⟩, Int64.ofInt_toInt]

theorem narrow_of_le {n : Int64} (hlow : -2147483648 ≤ n.toInt) (hhigh : n.toInt ≤ 2147483647) :
    narrow n = .ok n.toInt32 := by
  refine if_pos ⟨?_, ?_⟩
  · rw [Int32.toInt_minValue]
    exact hlow
  · rw [Int32.toInt_maxValue]
    exact hhigh

/-- **Up to eight octets are shifted in without losing a bit.** -/
theorem foldlM_shiftIn {b : Bytes} (h : b.length ≤ 8) :
    b.foldlM shiftIn 0 = .ok (LengthField.fieldValue b) := by
  induction b using List.reverseRecOn with
  | nil => rfl
  | append_singleton b x ih =>
    simp only [List.length_append, List.length_singleton] at h
    have hbound : Bytes.bigEndian b < 256 ^ 7 :=
      Nat.lt_of_lt_of_le (Bytes.bigEndian_lt b) (Nat.pow_le_pow_right (by omega) (by omega))
    have hroom : (LengthField.fieldValue b).toNat * 256 < UInt64.size := by
      rw [LengthField.toNat_fieldValue (by omega)]
      simp only [UInt64.size]
      omega
    rw [List.foldlM_append, ih (by omega)]
    simp only [bind, Except.bind, List.foldlM_cons, List.foldlM_nil, shiftIn, if_pos hroom]
    simp [LengthField.fieldValue, pure, Except.pure]

end Checked

namespace LengthField

variable {p : LengthField} {buf : Bytes}

theorem headerLength_sub_start (p : LengthField) : p.headerLength - p.start = p.width.toNat :=
  Nat.add_sub_cancel_left _ _

/-- The field of a complete header is short enough for a word of 32 bits. -/
theorem bigEndian_field_lt (h : p.Sound) (buf : Bytes) :
    Bytes.bigEndian ((buf.drop p.start).take p.width.toNat) < 4294967296 := by
  have hfour : ((buf.drop p.start).take p.width.toNat).length ≤ 4 := by
    have := h.width_le
    rw [List.length_take]
    omega
  exact Nat.lt_of_lt_of_le (Bytes.bigEndian_lt _) (Nat.pow_le_pow_right (by omega) hfour)

/-- **Every step goes through**, and what is computed is what `frameLength` says. -/
theorem checked_frameLength (h : p.Sound) (hoff : 0 ≤ p.offset) (buf : Bytes) :
    Checked.frameLength p buf = .ok (p.frameLength buf) := by
  have hnot : ¬p.offset < 0 := Int32.not_lt.2 hoff
  have hheader := h.header_lt
  simp only [receiveRoom] at hheader
  have hstop : Checked.sum p.start p.width.toNat = .ok p.headerLength :=
    Checked.sum_of_lt (by
      simp only [UInt64.size]
      simp only [headerLength] at hheader
      omega)
  by_cases hlen : buf.length < p.headerLength
  · rw [frameLength_of_short hoff hlen, Checked.frameLength, if_neg hnot, hstop]
    simp only [bind, Except.bind, if_pos hlen]
    rfl
  have hleast : Bytes.atLeast p.headerLength buf = true := by simpa using hlen
  have hwidth := h.width_le
  have hmax := h.maxFrame_le
  have hadj := And.intro p.adjustment.le_toInt p.adjustment.toInt_lt
  have hslice : Checked.slice buf p.start p.headerLength =
      .ok ((buf.drop p.start).take p.width.toNat) := by
    have hle : p.start ≤ p.headerLength := Nat.le_add_right _ _
    rw [Checked.slice_of_le hle (Nat.le_of_not_lt hlen), List.drop_take, headerLength_sub_start]
  have hsmall := bigEndian_field_lt h buf
  have hfour : ((buf.drop p.start).take p.width.toNat).length ≤ 8 := by
    rw [List.length_take]
    omega
  simp only [Checked.frameLength, frameLength, hnot, hleast, hstop, hlen, hslice, if_false,
    Bool.true_eq_false, bind, Except.bind]
  generalize (buf.drop p.start).take p.width.toNat = field at hsmall hfour
  have hvalue := toNat_fieldValue hfour
  have hword : (fieldValue field).toInt64.toInt = (fieldValue field).toNat := toInt_toInt64 (by omega)
  have hsum : ((fieldValue field).toInt64 + p.adjustment.toInt64).toInt =
      (fieldValue field).toInt64.toInt + p.adjustment.toInt := by
    rw [Int64.toInt_add, Int32.toInt_toInt64]
    exact Int.bmod_eq_of_le_mul_two (by omega) (by omega)
  have hhead : (Int64.ofNat p.headerLength).toInt = p.headerLength :=
    Int64.toInt_ofNat_of_lt (by omega)
  have hmaxInt : p.maxFrame.toInt64.toInt = p.maxFrame.toNat := toInt_toInt64 (by omega)
  simp only [Checked.foldlM_shiftIn hfour, Checked.signed_eq hword, Checked.signed_eq hsum,
    Checked.signed_eq hhead, Checked.signed_eq hmaxInt]
  split
  · rfl
  · rename_i hin
    simp only [Bool.or_eq_true, decide_eq_true_eq, Int64.lt_iff_toInt_lt, hhead, hmaxInt] at hin
    exact Checked.narrow_of_le (by omega) (by omega)

/-! ## What the length depends on -/

theorem frameLength_eq_zero_iff (h : p.Sound) (hoff : 0 ≤ p.offset) :
    p.frameLength buf = 0 ↔ buf.length < p.headerLength := by
  refine ⟨fun hzero => ?_, frameLength_of_short hoff⟩
  by_contra hlen
  have hpos := headerLength_pos h
  have hlength := toInt_frameLength h hoff (Nat.le_of_not_lt hlen)
  rw [hzero, Int32.toInt_zero] at hlength
  split at hlength <;> omega

/-- **Only the header counts.** -/
theorem frameLength_take (p : LengthField) (hoff : 0 ≤ p.offset) (buf : Bytes) :
    p.frameLength (buf.take p.headerLength) = p.frameLength buf := by
  have hnot : ¬p.offset < 0 := Int32.not_lt.2 hoff
  have hleast : Bytes.atLeast p.headerLength (buf.take p.headerLength) =
      Bytes.atLeast p.headerLength buf := by
    rw [Bool.eq_iff_iff, Bytes.atLeast_iff, Bytes.atLeast_iff, List.length_take]
    omega
  have hfield : ((buf.take p.headerLength).drop p.start).take p.width.toNat =
      (buf.drop p.start).take p.width.toNat := by
    rw [List.drop_take, headerLength_sub_start, List.take_take, Nat.min_self]
  simp only [frameLength, hnot, hleast, hfield, if_false]

theorem frameLength_append (h : p.Sound) (hoff : 0 ≤ p.offset) (hne : p.frameLength buf ≠ 0)
    (more : Bytes) : p.frameLength (buf ++ more) = p.frameLength buf := by
  have hlen := Nat.le_of_not_lt (mt (frameLength_eq_zero_iff h hoff).2 hne)
  rw [← frameLength_take p hoff (buf ++ more), List.take_append_of_le_length hlen,
    frameLength_take p hoff buf]

/-! ## The size of the next frame -/

/-- A complete header reads as the integer it announces, within bounds. -/
theorem toInt_of_complete (h : p.Sound) (hoff : 0 ≤ p.offset) (hlen : p.headerLength ≤ buf.length) :
    (p.frameLength buf).toInt =
      if p.headerLength ≤ p.announced buf ∧ p.announced buf ≤ p.maxFrame.toNat then p.announced buf
      else -1 := by
  rw [toInt_frameLength h hoff hlen]
  by_cases hin : p.headerLength ≤ p.announced buf ∧ p.announced buf ≤ p.maxFrame.toNat
  · rw [if_pos hin, if_neg (by omega)]
  · rw [if_neg hin, if_pos (by omega)]

/-- The size that a framing without a decoder shows. -/
theorem frameSize_eq (h : p.Sound) (hoff : 0 ≤ p.offset) (buf : Bytes) :
    Framing.frameSize ⟨p, none⟩ buf =
      if buf.length < p.headerLength then .ok none
      else if p.headerLength ≤ p.announced buf ∧ p.announced buf ≤ p.maxFrame.toNat then
        .ok (some (p.announced buf).toNat)
      else .error (.invalidPacket (-1) p.maxFrame.toNat) := by
  have htold : Framing.announced ⟨p, none⟩ buf = p.frameLength buf := rfl
  simp only [Framing.frameSize, htold]
  by_cases hlen : buf.length < p.headerLength
  · rw [if_pos hlen, if_pos (by rw [frameLength_of_short hoff hlen, Int32.toInt_zero])]
  have hpos := headerLength_pos h
  have hread := toInt_of_complete h hoff (Nat.le_of_not_lt hlen)
  rw [if_neg hlen]
  by_cases hin : p.headerLength ≤ p.announced buf ∧ p.announced buf ≤ p.maxFrame.toNat
  · rw [if_pos hin] at hread ⊢
    rw [if_neg (by omega), if_neg (by omega), hread]
  · rw [if_neg hin] at hread ⊢
    rw [if_neg (by omega), if_pos (by omega), hread]

/-- What a layout reads off a buffer. -/
structure Exact (p : LengthField) (buf : Bytes) : Prop where
  /-- 0 says that the header is incomplete, and nothing else. -/
  zero_iff : p.frameLength buf = 0 ↔ buf.length < p.headerLength
  /-- A complete header reads as the integer it announces, within bounds. -/
  complete : p.headerLength ≤ buf.length → (p.frameLength buf).toInt =
    if p.headerLength ≤ p.announced buf ∧ p.announced buf ≤ p.maxFrame.toNat then p.announced buf else -1
  /-- No step on the way loses anything. -/
  checked : Checked.frameLength p buf = .ok (p.frameLength buf)
  /-- Buffers with the same header read the same. -/
  front : ∀ other : Bytes, other.take p.headerLength = buf.take p.headerLength →
    p.frameLength other = p.frameLength buf
  /-- A length that is known stays, whatever arrives behind. -/
  extended : p.frameLength buf ≠ 0 → ∀ more, p.frameLength (buf ++ more) = p.frameLength buf
  /-- The size shown without a decoder. -/
  size : Framing.frameSize ⟨p, none⟩ buf =
    if buf.length < p.headerLength then .ok none
    else if p.headerLength ≤ p.announced buf ∧ p.announced buf ≤ p.maxFrame.toNat then
      .ok (some (p.announced buf).toNat)
    else .error (.invalidPacket (-1) p.maxFrame.toNat)
  /-- A size is never 0 and never above the maximum, with a decoder as without. -/
  bounds : ∀ decoder n, Framing.frameSize ⟨p, decoder⟩ buf = .ok (some n) → 0 < n ∧ n ≤ p.maxFrame.toNat

/-- **A valid layout reads every buffer exactly**, whatever the adjustment and the octets are. -/
theorem exact_of_isValid (h : p.isValid) (hoff : 0 ≤ p.offset) (buf : Bytes) : p.Exact buf := by
  have hsound := sound_of_isValid h hoff
  refine ⟨frameLength_eq_zero_iff hsound hoff, toInt_of_complete hsound hoff,
    checked_frameLength hsound hoff buf, fun other hsame => ?_, frameLength_append hsound hoff,
    frameSize_eq hsound hoff buf, fun _ _ hn => ⟨Framing.frameSize_pos hn, Framing.frameSize_le hn⟩⟩
  rw [← frameLength_take p hoff other, hsame, frameLength_take p hoff buf]

/-- A field above the sign bit of 32 bits, brought back into the bounds by the least adjustment. -/
theorem exact_of_least_adjustment :
    let p : LengthField := ⟨2147483647, 1, 4, -2147483648, 0⟩
    let buf : Bytes := [7, 128, 0, 0, 10]
    p.isValid ∧ 0 ≤ p.offset ∧ p.announced buf = 10 ∧ p.frameLength buf = 10 ∧ p.Exact buf := by
  intro p buf
  exact ⟨by decide, by decide, by decide +kernel, by decide +kernel,
    exact_of_isValid (by decide) (by decide) buf⟩

end LengthField

end NetReactor
