import NetReactor.Address

/-!
# Reading addresses

The grammar: version 4 is four numbers up to 255 of at most three digits and without a leading zero;
version 6 is up to eight groups of one to four hexadecimal digits, **at most one `::`** standing for at
least one zero group, and the last two groups may be dotted. In a socket address `%` and the number of a
link may follow version 6. Each reader takes what it needs from the
front and returns the rest; a whole text is an address when nothing is left.
-/

namespace NetReactor.Address

def digit? (radix : Nat) (c : Char) : Option Nat :=
  let n := c.toNat
  let value :=
    if '0' ≤ c && c ≤ '9' then some (n - 48)
    else if 'a' ≤ c && c ≤ 'f' then some (n - 87)
    else if 'A' ≤ c && c ≤ 'F' then some (n - 55)
    else none
  value.filter (· < radix)

/-- Digits at the front: their values, and the rest. -/
def spanDigits (radix : Nat) : List Char → List Nat × List Char
  | [] => ([], [])
  | c :: rest =>
    match digit? radix c with
    | some d => let more := spanDigits radix rest; (d :: more.1, more.2)
    | none => ([], c :: rest)

/-- A number of at most `width` digits below `bound`. -/
def number? (radix width bound : Nat) (leadingZero : Bool) (cs : List Char) : Option (Nat × List Char) :=
  let (ds, rest) := spanDigits radix cs
  let value := ds.foldl (fun acc d => acc * radix + d) 0
  if ds.isEmpty || width < ds.length || bound ≤ value then none
  else if !leadingZero && ds.head? = some 0 && 1 < ds.length then none
  else some (value, rest)

def char? (c : Char) : List Char → Option (List Char)
  | [] => none
  | x :: rest => if x = c then some rest else none

/-- The separator, which the first item of a row goes without. -/
def separator? (c : Char) (first : Bool) (cs : List Char) : Option (List Char) :=
  if first then some cs else char? c cs

def octet? (first : Bool) (cs : List Char) : Option (UInt8 × List Char) := do
  let cs ← separator? '.' first cs
  let (n, cs) ← number? 10 3 256 false cs
  return (UInt8.ofNat n, cs)

def readV4 (cs : List Char) : Option (Address × List Char) := do
  let (a, cs) ← octet? true cs
  let (b, cs) ← octet? false cs
  let (c, cs) ← octet? false cs
  let (d, cs) ← octet? false cs
  return (.v4 a b c d, cs)

/-- Groups at the front. -/
structure Groups where
  values : List UInt16
  /-- Whether the last two groups were dotted. -/
  dotted : Bool
  rest : List Char

def pair (a b : UInt8) : UInt16 := a.toUInt16 * 256 + b.toUInt16

/-- Up to `limit` groups. -/
def readGroups (limit : Nat) (first : Bool) (cs : List Char) : Groups :=
  match limit with
  | 0 => ⟨[], false, cs⟩
  | limit + 1 =>
    let dotted := if limit = 0 then none else (separator? ':' first cs).bind readV4
    match dotted with
    | some (.v4 a b c d, rest) => ⟨[pair a b, pair c d], true, rest⟩
    | _ =>
      match (separator? ':' first cs).bind (number? 16 4 65536 true) with
      | some (g, rest) =>
        let more := readGroups limit false rest
        { more with values := UInt16.ofNat g :: more.values }
      | none => ⟨[], false, cs⟩

def readV6 (cs : List Char) : Option (Address × List Char) :=
  let head := readGroups 8 true cs
  let count := head.values.length
  if count = 8 then some (.v6 head.values, head.rest)
  else if head.dotted then none
  else do
    let cs ← char? ':' head.rest
    let cs ← char? ':' cs
    let tail := readGroups (7 - count) true cs
    let zeros := List.replicate (8 - count - tail.values.length) 0
    return (.v6 (head.values ++ zeros ++ tail.values), tail.rest)

def read (cs : List Char) : Option (Address × List Char) := readV4 cs <|> readV6 cs

/-- The address that a whole text denotes. -/
def ofText? (s : String) : Option Address :=
  match read s.toList with
  | some (a, []) => some a
  | _ => none

end NetReactor.Address

namespace NetReactor.SocketAddress

def port? (cs : List Char) : Option UInt16 := do
  let cs ← Address.char? ':' cs
  let (n, rest) ← Address.number? 10 cs.length 65536 true cs
  if rest.isEmpty then some (UInt16.ofNat n) else none

/-- The scope at the front; without a sign of one it is zero. -/
def scope? (cs : List Char) : Option (UInt32 × List Char) :=
  match Address.char? '%' cs with
  | some cs => (Address.number? 10 cs.length 4294967296 true cs).map fun (n, rest) => (UInt32.ofNat n, rest)
  | none => some (0, cs)

/-- An address and a port, version 6 in brackets. -/
def ofText? (s : String) : Option SocketAddress :=
  match s.toList with
  | '[' :: cs => do
    let (host, cs) ← Address.readV6 cs
    let (scope, cs) ← scope? cs
    let cs ← Address.char? ']' cs
    let port ← port? cs
    return ⟨host, port, scope⟩
  | cs => do
    let (host, cs) ← Address.readV4 cs
    let port ← port? cs
    return ofHost host port

end NetReactor.SocketAddress
