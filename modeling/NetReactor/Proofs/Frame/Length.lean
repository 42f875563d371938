import Mathlib.Algebra.Group.Nat.Defs
import Mathlib.Data.List.Induction
import NetReactor.Frame.LengthField

/-!
# The length that a field announces

`LengthField.announced` is the length that a header stands for, as an exact integer: the octets of the
field as a number, plus the adjustment. **In a valid layout `frameLength` is that integer**, or 0 while
the header is incomplete, or -1 where the integer is out of bounds (`toInt_frameLength`): nothing
overflows on the way, since a field of four octets and a 32-bit adjustment are small in 64 bits.
-/

namespace NetReactor

namespace Bytes

theorem bigEndian_lt (b : Bytes) : bigEndian b < 256 ^ b.length := by
  induction b using List.reverseRecOn with
  | nil => simp [bigEndian]
  | append_singleton b x ih =>
    rw [bigEndian_append_singleton, List.length_append, List.length_singleton, Nat.pow_succ]
    have := x.toNat_lt
    omega

end Bytes

namespace LengthField

/-- Up to eight octets are read without loss. -/
theorem toNat_fieldValue {b : Bytes} (h : b.length ≤ 8) :
    (fieldValue b).toNat = Bytes.bigEndian b := by
  induction b using List.reverseRecOn with
  | nil => rfl
  | append_singleton b x ih =>
    simp only [List.length_append, List.length_singleton] at h
    have hvalue : fieldValue (b ++ [x]) = fieldValue b <<< 8 ||| x.toUInt64 := by
      simp [fieldValue]
    have hbound : Bytes.bigEndian b < 256 ^ 7 :=
      Nat.lt_of_lt_of_le (Bytes.bigEndian_lt b) (Nat.pow_le_pow_right (by omega) (by omega))
    have hshift : (fieldValue b <<< 8).toNat = Bytes.bigEndian b <<< 8 := by
      rw [UInt64.toNat_shiftLeft, ih (by omega)]
      refine Nat.mod_eq_of_lt ?_
      rw [Nat.shiftLeft_eq]
      simp
      omega
    rw [Bytes.bigEndian_append_singleton, hvalue, UInt64.toNat_or, hshift, UInt8.toNat_toUInt64,
      ← Nat.shiftLeft_add_eq_or_of_lt x.toNat_lt, Nat.shiftLeft_eq]

/-- An unsigned number below the sign bit is read as itself. -/
theorem toInt_toInt64 {x : UInt64} (h : x.toNat < 2 ^ 63) : x.toInt64.toInt = x.toNat := by
  show x.toBitVec.toInt = x.toBitVec.toNat
  exact BitVec.toInt_eq_toNat_of_lt (by show 2 * x.toNat < 2 ^ 64; omega)

/-- The length that a complete header announces. -/
def announced (p : LengthField) (buf : Bytes) : Int :=
  Bytes.bigEndian ((buf.drop p.start).take p.width.toNat) + p.adjustment.toInt

/-- The bounds that a valid layout keeps. -/
structure Sound (p : LengthField) : Prop where
  width_pos : 1 ≤ p.width.toNat
  width_le : p.width.toNat ≤ 4
  maxFrame_pos : 0 < p.maxFrame.toNat
  maxFrame_le : p.maxFrame.toNat ≤ 2147483647
  header_lt : p.headerLength < receiveRoom

theorem sound_of_isValid {p : LengthField} (h : p.isValid) (hoff : 0 ≤ p.offset) : p.Sound := by
  have hnot : ¬p.offset < 0 := Int32.not_lt.2 hoff
  simp only [isValid, Bool.and_eq_true, decide_eq_true_eq, Bool.or_eq_true, hnot, false_or] at h
  obtain ⟨⟨⟨⟨hpos, hle⟩, hmpos⟩, hmle⟩, hheader⟩ := h
  exact ⟨UInt8.le_iff_toNat_le.1 hpos, UInt8.le_iff_toNat_le.1 hle, UInt64.lt_iff_toNat_lt.1 hmpos,
    UInt64.le_iff_toNat_le.1 hmle, hheader⟩

variable {p : LengthField} {buf : Bytes}

theorem headerLength_pos (h : p.Sound) : 0 < p.headerLength := by
  have := h.width_pos
  simp only [headerLength]
  omega

theorem frameLength_of_short (hoff : 0 ≤ p.offset) (hlen : buf.length < p.headerLength) :
    p.frameLength buf = 0 := by
  have hnot : ¬p.offset < 0 := Int32.not_lt.2 hoff
  have hleast : Bytes.atLeast p.headerLength buf = false := Bool.eq_false_iff.2 (by simpa using hlen)
  simp [frameLength, hnot, hleast]

/-- **A complete header reads as the exact length it announces**, or as -1 if that is out of bounds. -/
theorem toInt_frameLength (h : p.Sound) (hoff : 0 ≤ p.offset) (hlen : p.headerLength ≤ buf.length) :
    (p.frameLength buf).toInt =
      if p.announced buf < p.headerLength ∨ (p.maxFrame.toNat : Int) < p.announced buf then -1
      else p.announced buf := by
  have hnot : ¬p.offset < 0 := Int32.not_lt.2 hoff
  have hleast : Bytes.atLeast p.headerLength buf = true := by simpa using hlen
  have hwidth := h.width_le
  have hmax := h.maxFrame_le
  have hheader := h.header_lt
  simp only [receiveRoom] at hheader
  obtain ⟨field, hfield⟩ : ∃ field, (buf.drop p.start).take p.width.toNat = field := ⟨_, rfl⟩
  simp only [frameLength, hnot, hleast, Bool.true_eq_false, if_false, announced, hfield]
  have hfour : field.length ≤ 4 := by
    rw [← hfield, List.length_take]
    omega
  have hsmall : Bytes.bigEndian field < 4294967296 :=
    Nat.lt_of_lt_of_le (Bytes.bigEndian_lt field) (Nat.pow_le_pow_right (by omega) hfour)
  have hvalue : (fieldValue field).toNat = Bytes.bigEndian field := toNat_fieldValue (by omega)
  have hadj := And.intro p.adjustment.le_toInt p.adjustment.toInt_lt
  -- nothing overflows: every number here is well below the sign bit
  have hsum : ((fieldValue field).toInt64 + p.adjustment.toInt64).toInt =
      Bytes.bigEndian field + p.adjustment.toInt := by
    rw [Int64.toInt_add, Int32.toInt_toInt64, toInt_toInt64 (by omega), hvalue]
    exact Int.bmod_eq_of_le_mul_two (by omega) (by omega)
  have hhead : (Int64.ofNat p.headerLength).toInt = p.headerLength :=
    Int64.toInt_ofNat_of_lt (by omega)
  have hmaxInt : p.maxFrame.toInt64.toInt = p.maxFrame.toNat := toInt_toInt64 (by omega)
  simp only [Bool.or_eq_true, decide_eq_true_eq, Int64.lt_iff_toInt_lt, hsum, hhead, hmaxInt]
  split
  · rfl
  · rename_i hin
    rw [Int64.toInt_toInt32, hsum]
    exact Int.bmod_eq_of_le_mul_two (by omega) (by omega)

end LengthField

end NetReactor
