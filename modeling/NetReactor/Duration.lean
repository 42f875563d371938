/-!
# Lengths of time

A duration counts nanoseconds. Its text is the largest unit that leaves a whole part, with the
fraction's trailing zeros dropped: `5s`, `1.5s`, `250ms`, `1.5µs`, `7ns`.
-/

namespace NetReactor

/-- A length of time in nanoseconds. -/
structure Duration where
  nanos : Nat
deriving DecidableEq, Repr, Inhabited

namespace Duration

def zero : Duration := ⟨0⟩

def ofNanos (n : Nat) : Duration := ⟨n⟩

def ofMillis (n : Nat) : Duration := ⟨n * 1000000⟩

def ofSecs (n : Nat) : Duration := ⟨n * 1000000000⟩

/-- The longest duration that 64 bits of seconds and nine decimals hold. -/
def max : Duration := ⟨0xffffffffffffffff * 1000000000 + 999999999⟩

def isZero (d : Duration) : Bool := d.nanos == 0

/-- Whole milliseconds, the rest dropped. -/
def millis (d : Duration) : Nat := d.nanos / 1000000

def min (a b : Duration) : Duration := if a.nanos ≤ b.nanos then a else b

instance : LE Duration := ⟨fun a b => a.nanos ≤ b.nanos⟩

instance : LT Duration := ⟨fun a b => a.nanos < b.nanos⟩

instance (a b : Duration) : Decidable (a ≤ b) := inferInstanceAs (Decidable (a.nanos ≤ b.nanos))

instance (a b : Duration) : Decidable (a < b) := inferInstanceAs (Decidable (a.nanos < b.nanos))

/-- The duration itself, unless it is zero: zero switches a timeout off. -/
def nonzero? (d : Duration) : Option Duration := if d.isZero then none else some d

/-! ## Text -/

/-- `n` in exactly `width` decimal digits. -/
def digits (width n : Nat) : List Char :=
  let ds := Nat.toDigits 10 n
  List.replicate (width - ds.length) '0' ++ ds

/-- `.ddd` for the fraction `n / 10^width`, empty when it is zero. -/
def fraction (width n : Nat) : String :=
  if n = 0 then ""
  else "." ++ String.ofList ((digits width n).reverse.dropWhile (· == '0')).reverse

def text (d : Duration) : String :=
  let n := d.nanos
  if 1000000000 ≤ n then toString (n / 1000000000) ++ fraction 9 (n % 1000000000) ++ "s"
  else if 1000000 ≤ n then toString (n / 1000000) ++ fraction 6 (n % 1000000) ++ "ms"
  else if 1000 ≤ n then toString (n / 1000) ++ fraction 3 (n % 1000) ++ "µs"
  else toString n ++ "ns"

end Duration

end NetReactor
