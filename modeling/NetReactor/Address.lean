import NetReactor.Text

/-!
# Network addresses

An address is four octets or eight groups of 16 bits, a socket address adds a port. An address of
version 6 is shown with **the first longest run of at least two zero groups** as `::`, and a mapped
address of version 4 with its dotted tail. **Only a socket address of version 6 has a scope**, the number
of the link that it belongs to, and shows it unless it is zero.
-/

namespace NetReactor

/-- An address of version 4, by its octets, or of version 6, by its groups. -/
inductive Address
  | v4 (a b c d : UInt8)
  | v6 (groups : List UInt16)
deriving DecidableEq, Repr, Inhabited

/-- An address and a port, and the link that an address of version 6 belongs to. -/
structure SocketAddress where
  host : Address
  port : UInt16
  scope : UInt32
deriving DecidableEq, Repr, Inhabited

namespace Address

/-- Every interface of this host, version 4. -/
def anyV4 : Address := v4 0 0 0 0

def anyV6 : Address := v6 (List.replicate 8 0)

def localhost : Address := v4 127 0 0 1

def isV6 : Address → Bool
  | v4 .. => false
  | v6 _ => true

/-- The address of version 4 inside a mapped one. -/
def unmapped : Address → Address
  | v6 [0, 0, 0, 0, 0, 0xffff, x, y] => v4 (x >>> 8).toUInt8 x.toUInt8 (y >>> 8).toUInt8 y.toUInt8
  | a => a

/-! ## Text -/

def octets (a b c d : UInt8) : String :=
  ".".intercalate ([a, b, c, d].map fun x => toString x.toNat)

/-- How many zero groups lead the list. -/
def zeroRun (groups : List UInt16) : Nat := (groups.takeWhile (· = 0)).length

/-- Start and length of the first longest run of zero groups; `i` is the list's first index. -/
def longestRun (i : Nat) : List UInt16 → Nat × Nat
  | [] => (i, 0)
  | g :: rest =>
    let here := zeroRun (g :: rest)
    let later := longestRun (i + 1) rest
    if later.2 ≤ here then (i, here) else later

def groupsText (groups : List UInt16) : String :=
  ":".intercalate (groups.map fun g => Text.hex g.toNat)

def text : Address → String
  | v4 a b c d => octets a b c d
  | v6 groups =>
    match unmapped (v6 groups) with
    | v4 a b c d => "::ffff:" ++ octets a b c d
    | v6 _ =>
      let run := longestRun 0 groups
      if run.2 < 2 then groupsText groups
      else groupsText (groups.take run.1) ++ "::" ++ groupsText (groups.drop (run.1 + run.2))

end Address

namespace SocketAddress

/-- The address with a port and no scope. -/
def ofHost (host : Address) (port : UInt16) : SocketAddress := ⟨host, port, 0⟩

def scopeText (s : SocketAddress) : String := if s.scope = 0 then "" else "%" ++ toString s.scope.toNat

def text (s : SocketAddress) : String :=
  if s.host.isV6 then "[" ++ s.host.text ++ s.scopeText ++ "]:" ++ toString s.port.toNat
  else s.host.text ++ ":" ++ toString s.port.toNat

end SocketAddress

end NetReactor
