import NetReactor.Text.Glyphless

/-!
# Text

What is read from text: a setting is trimmed of Unicode's white space, and a number is decimal digits
after at most one sign. **A minus sign is accepted exactly where negative numbers are in range**, so `-0`
is a signed zero and no unsigned one; leading zeros are free, and a number out of range is refused.

What is written for diagnosis: a record is its name and its fields in braces, an absent value is `None`,
a present one stands in `Some(…)`, a list stands in brackets. A text stands between double quotes, with
everything that would not show as itself written as an escape: quotes and backslashes, the common
controls by letter, other glyphless characters by number.
-/

namespace NetReactor.Text

/-! ## Blanks -/

/-- Unicode's `White_Space` property. -/
def isBlank (c : Char) : Bool :=
  let n := c.toNat
  (9 ≤ n && n ≤ 13) || n = 0x20 || n = 0x85 || n = 0xa0 || n = 0x1680 || (0x2000 ≤ n && n ≤ 0x200a) ||
    n = 0x2028 || n = 0x2029 || n = 0x202f || n = 0x205f || n = 0x3000

theorem isBlank_of_isWhitespace {c : Char} (h : c.isWhitespace = true) : isBlank c = true := by
  simp only [Char.isWhitespace, Bool.or_eq_true, decide_eq_true_eq] at h
  rcases h with ((rfl | rfl) | rfl) | rfl <;> decide

/-- A text without the blanks at its two ends. -/
def trim (cs : List Char) : List Char :=
  ((cs.dropWhile isBlank).reverse.dropWhile isBlank).reverse

/-! ## Whole numbers -/

/-- The numbers a fixed width holds. -/
structure IntRange where
  lo : Int
  hi : Int
deriving DecidableEq, Repr

namespace IntRange

def unsigned (bits : Nat) : IntRange := ⟨0, Int.ofNat (Nat.pow 2 bits) - 1⟩

def signed (bits : Nat) : IntRange :=
  ⟨-Int.ofNat (Nat.pow 2 (bits - 1)), Int.ofNat (Nat.pow 2 (bits - 1)) - 1⟩

def holds (r : IntRange) (n : Int) : Bool := r.lo ≤ n && n ≤ r.hi

end IntRange

def decimalDigit? (c : Char) : Option Nat :=
  if '0' ≤ c && c ≤ '9' then some (c.toNat - '0'.toNat) else none

/-- The value of a digit string over what was read before it. -/
def digitsFrom : Nat → List Char → Option Nat
  | acc, [] => some acc
  | acc, c :: rest => (decimalDigit? c).bind fun d => digitsFrom (acc * 10 + d) rest

/-- The value of a nonempty string of decimal digits. -/
def natural? : List Char → Option Nat
  | [] => none
  | cs => digitsFrom 0 cs

/-- The number a text denotes, if it lies in the range. -/
def integer? (r : IntRange) (cs : List Char) : Option Int :=
  let magnitude : Option Int :=
    match cs with
    | '+' :: rest => (natural? rest).map Int.ofNat
    | '-' :: rest => if r.lo < 0 then (natural? rest).map fun n => -Int.ofNat n else none
    | cs => (natural? cs).map Int.ofNat
  magnitude.filter r.holds

/-- A number of 64 bits without sign. -/
def unsigned64? (cs : List Char) : Option Nat := (integer? (.unsigned 64) cs).map Int.toNat

/-! ## Composite values -/

def record (name : String) (fields : List (String × String)) : String :=
  let body := fields.map fun f => f.1 ++ ": " ++ f.2
  name ++ " \x7b " ++ ", ".intercalate body ++ " \x7d"

/-- A value in the parentheses of its constructor. -/
def wrapped (name value : String) : String := name ++ "(" ++ value ++ ")"

def optional : Option String → String
  | none => "None"
  | some s => wrapped "Some" s

def sequence (items : List String) : String := "[" ++ ", ".intercalate items ++ "]"

def flag (b : Bool) : String := if b then "true" else "false"

/-- Lower-case hexadecimal digits, without leading zeros. -/
def hex (n : Nat) : String := String.ofList (Nat.toDigits 16 n)

/-! ## Quoted text -/

def escape (c : Char) : List Char :=
  if c = '\x00' then ['\\', '0']
  else if c = '\t' then ['\\', 't']
  else if c = '\r' then ['\\', 'r']
  else if c = '\n' then ['\\', 'n']
  else if c = '"' || c = '\\' then ['\\', c]
  else if isGlyphless c then ['\\', 'u', '\x7b'] ++ Nat.toDigits 16 c.toNat ++ ['\x7d']
  else [c]

def quoted (s : String) : String := "\"" ++ String.ofList (s.toList.flatMap escape) ++ "\""

end NetReactor.Text
