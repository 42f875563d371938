import NetReactor.Interrupter
import NetReactor.Simulation.Pair
import NetReactor.Watch

/-!
# A watch over named pairs

Stream pairs by name, perhaps an interrupter, and a watch over their near ends. **A new descriptor is
the least that is not open**, so a watch that outlives what it was for follows whatever is opened next
under the same number. A name that stands for nothing has the descriptor -1, which may be watched like
any other and never shows anything.
-/

namespace NetReactor.Simulation

/-- A pair under a name, and its open descriptors. -/
structure NamedPair where
  name : String
  pair : Pair
  near : Nat
  /-- Absent once the far end was closed. -/
  far : Option Nat
deriving Repr

namespace NamedPair

def descriptors (p : NamedPair) : List Nat := p.near :: p.far.toList

/-- The end that a descriptor is. -/
def side? (p : NamedPair) (d : Nat) : Option Side :=
  if p.near = d then some .near else if p.far = some d then some .far else none

def closeFar (p : NamedPair) : NamedPair :=
  if p.far.isSome then { p with pair := p.pair.close .far, far := none } else p

end NamedPair

structure Lookout where
  pairs : List NamedPair
  /-- The interrupter and its descriptor. -/
  interrupter : Option (Interrupter × Nat)
  watch : Watch Nat

/-- The least number that is not in the list. -/
def leastFree (used : List Nat) : Nat :=
  ((List.range (used.length + 1)).find? (· ∉ used)).getD 0

theorem leastFree_not_mem (used : List Nat) : leastFree used ∉ used := by
  unfold leastFree
  cases h : (List.range (used.length + 1)).find? (· ∉ used) with
  | some d => simpa using List.find?_some h
  | none =>
    have hs : List.range (used.length + 1) ⊆ used := fun d hd => by
      simpa using List.find?_eq_none.1 h d hd
    have hl := List.Nodup.length_le_of_subset List.nodup_range hs
    simp only [List.length_range] at hl
    omega

namespace Lookout

def empty : Lookout := ⟨[], none, []⟩

/-- The interrupter's name. -/
def interrupterName : String := "intr"

/-- The open descriptors. -/
def descriptors (l : Lookout) : List Nat :=
  (l.interrupter.map (·.2)).toList ++ l.pairs.flatMap (·.descriptors)

/-! ## Opening -/

/-- Opens a pair, and then closes the one that had the name. -/
def addPair (l : Lookout) (name : String) : Lookout :=
  let near := leastFree l.descriptors
  let far := leastFree (near :: l.descriptors)
  { l with pairs := l.pairs.filter (·.name ≠ name) ++ [⟨name, .new .stream, near, some far⟩] }

/-- Opens an interrupter, and then closes the one before. -/
def addInterrupter (l : Lookout) : Lookout :=
  { l with interrupter := some (.new, leastFree l.descriptors) }

def pair? (l : Lookout) (name : String) : Option NamedPair := l.pairs.find? (·.name = name)

def updatePair (l : Lookout) (name : String) (f : NamedPair → NamedPair) : Lookout :=
  { l with pairs := l.pairs.map fun p => if p.name = name then f p else p }

def updateInterrupter (l : Lookout) (f : Interrupter → Interrupter) : Lookout :=
  { l with interrupter := l.interrupter.map fun (i, d) => (f i, d) }

/-! ## Watching -/

/-- A name's descriptor: the interrupter's, or that of a pair's near end. -/
def descriptor (l : Lookout) (name : String) : Descriptor :=
  let own := (l.interrupter.filter fun _ => name = interrupterName).map (·.2)
  ((own <|> (l.pair? name).map (·.near)).map Int.ofNat).getD (-1)

def register (l : Lookout) (name : String) (token : Nat) (i : Interest) : Lookout :=
  { l with watch := l.watch.register (l.descriptor name) token i }

def deregister (l : Lookout) (name : String) : Lookout :=
  { l with watch := l.watch.deregister (l.descriptor name) }

/-- The bits that an open descriptor shows. -/
def openBits? (l : Lookout) (d : Nat) : Option PollBits :=
  match l.interrupter.filter (·.2 = d) with
  | some (i, _) => some i.bits
  | none => l.pairs.findSome? fun p => (p.side? d).map p.pair.bits

/-- The bits a descriptor shows. -/
def shown (l : Lookout) : Descriptor → PollBits
  | .ofNat d => (l.openBits? d).getD .invalid
  | .negSucc _ => 0

/-- The bits a wait reports: those asked for, and trouble in any case. -/
def answer (l : Lookout) (d : Descriptor) (asked : PollBits) : PollBits :=
  l.shown d &&& (asked ||| .error ||| .hangUp ||| .invalid)

/-- What a wait reports, by token. -/
def wait (l : Lookout) : List (Readiness Nat) :=
  (l.watch.ready l.answer).mergeSort fun a b => a.token ≤ b.token

end Lookout

end NetReactor.Simulation
