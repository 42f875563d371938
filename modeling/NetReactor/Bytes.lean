/-!
# Byte strings

A byte string is a list of octets: **what is still unread is a tail of what arrived**, so dropping a
frame costs the frame and copies nothing. `atLeast` asks for a length without walking past it, and
`bigEndian` reads an unsigned number, most significant octet first.
-/

namespace NetReactor

abbrev Bytes := List UInt8

namespace Bytes

/-- Whether a list has at least `n` members; stops after `n` steps. -/
def atLeast {α : Type} : Nat → List α → Bool
  | 0, _ => true
  | _ + 1, [] => false
  | n + 1, _ :: rest => atLeast n rest

@[simp] theorem atLeast_iff {α : Type} : ∀ (n : Nat) (l : List α), atLeast n l = true ↔ n ≤ l.length
  | 0, _ => by simp [atLeast]
  | _ + 1, [] => by simp [atLeast]
  | n + 1, _ :: rest => by simp [atLeast, atLeast_iff n rest]

/-- The unsigned value of octets, most significant first. -/
def bigEndian (b : Bytes) : Nat := b.foldl (fun acc x => acc * 256 + x.toNat) 0

/-- `n` as `width` octets, most significant first; higher octets are lost. -/
def ofNat : (width : Nat) → (n : Nat) → Bytes
  | 0, _ => []
  | width + 1, n => ofNat width (n / 256) ++ [UInt8.ofNat (n % 256)]

@[simp] theorem length_ofNat : ∀ width n, (ofNat width n).length = width
  | 0, _ => rfl
  | width + 1, n => by simp [ofNat, length_ofNat width]

theorem bigEndian_append_singleton (b : Bytes) (x : UInt8) :
    bigEndian (b ++ [x]) = bigEndian b * 256 + x.toNat := by
  simp [bigEndian]

/-- A number that fits into the width is read back. -/
theorem bigEndian_ofNat : ∀ width n, n < Nat.pow 256 width → bigEndian (ofNat width n) = n
  | 0, n, h => by
    have hn : n = 0 := Nat.lt_one_iff.1 h
    subst hn
    rfl
  | width + 1, n, h => by
    have hdiv : n / 256 < Nat.pow 256 width := Nat.div_lt_of_lt_mul (Nat.mul_comm _ 256 ▸ h)
    rw [ofNat, bigEndian_append_singleton, bigEndian_ofNat width _ hdiv]
    have : (UInt8.ofNat (n % 256)).toNat = n % 256 := by simp
    rw [this]
    omega

/-- The octets of a text in UTF-8. -/
def ofText (s : String) : Bytes := s.toUTF8.toList

end Bytes

end NetReactor
