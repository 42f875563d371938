/-!
# Transport identifiers

An identifier is a slot and the number of times the slot had been released when it was issued. Its
raw form keeps the generation in the upper half of 64 bits, and it orders by slot first.
-/

namespace NetReactor

/-- A slot and its generation. -/
structure TransportId where
  index : UInt32
  generation : UInt32
deriving DecidableEq, Repr, Inhabited

namespace TransportId

def raw (id : TransportId) : UInt64 := id.generation.toUInt64 <<< 32 ||| id.index.toUInt64

def ofRaw (raw : UInt64) : TransportId := ⟨raw.toUInt32, (raw >>> 32).toUInt32⟩

/-- The slot number. -/
def slot (id : TransportId) : Nat := id.index.toNat

def compare (a b : TransportId) : Ordering :=
  (Ord.compare a.index b.index).then (Ord.compare a.generation b.generation)

/-- `IvG`: slot and generation. -/
def text (id : TransportId) : String :=
  toString id.index.toNat ++ "v" ++ toString id.generation.toNat

def debugText (id : TransportId) : String := "TransportId(" ++ id.text ++ ")"

end TransportId

end NetReactor
