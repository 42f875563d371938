import NetReactor.TransportId

/-!
# Generational slots

Values live in numbered slots. A removal bumps the slot's generation, so **an identifier that was
removed does not name the slot's next value**; the generation is 32 bits wide and wraps. The most
recently freed slot is used first, and a new slot is made only when none is free.
-/

namespace NetReactor

/-- One slot: how often it was released (modulo 2^32), and what it holds. -/
structure Slot (α : Type) where
  generation : UInt32
  value : Option α
deriving Repr

instance {α : Type} : Inhabited (Slot α) := ⟨⟨0, none⟩⟩

/-- Slots, the stack of the empty ones, and how many hold a value. -/
structure Arena (α : Type) where
  slots : Array (Slot α)
  free : List Nat
  size : Nat
deriving Repr

namespace Arena

variable {α : Type}

def empty : Arena α := ⟨#[], [], 0⟩

instance : Inhabited (Arena α) := ⟨empty⟩

/-- Puts `value` into slot `i`, under the slot's current generation. -/
def occupy (a : Arena α) (i : Nat) (build : TransportId → α) : TransportId × Arena α :=
  let slot := a.slots.getD i ⟨0, none⟩
  let id : TransportId := ⟨UInt32.ofNat i, slot.generation⟩
  (id, { a with
    slots := a.slots.setIfInBounds i { slot with value := some (build id) }, size := a.size + 1 })

/-- Stores what `build` makes of the new identifier. The number of a new slot is cut to 32 bits. -/
def insertWith (a : Arena α) (build : TransportId → α) : TransportId × Arena α :=
  match a.free with
  | i :: rest => occupy { a with free := rest } i build
  | [] =>
    occupy { a with slots := a.slots.push ⟨0, none⟩ } (UInt32.ofNat a.slots.size).toNat build

def insert (a : Arena α) (value : α) : TransportId × Arena α := a.insertWith fun _ => value

/-- The slot an identifier names, if its generation is still current. -/
def slot? (a : Arena α) (id : TransportId) : Option (Slot α) :=
  a.slots[id.slot]?.filter (·.generation = id.generation)

def get? (a : Arena α) (id : TransportId) : Option α := (a.slot? id).bind (·.value)

def contains (a : Arena α) (id : TransportId) : Bool := (a.get? id).isSome

/-- Replaces a live value; other identifiers change nothing. -/
def modify (a : Arena α) (id : TransportId) (f : α → α) : Arena α :=
  match a.get? id with
  | some v => { a with slots := a.slots.setIfInBounds id.slot ⟨id.generation, some (f v)⟩ }
  | none => a

/-- Takes a live value out and frees its slot. -/
def remove (a : Arena α) (id : TransportId) : Option α × Arena α :=
  match a.get? id with
  | some v =>
    (some v, {
      slots := a.slots.setIfInBounds id.slot ⟨id.generation + 1, none⟩
      free := id.slot :: a.free
      size := a.size - 1 })
  | none => (none, a)

/-- The live values in slot order, with their identifiers. -/
def toList (a : Arena α) : List (TransportId × α) :=
  a.slots.toList.zipIdx.filterMap fun (slot, i) =>
    slot.value.map fun v => (⟨UInt32.ofNat i, slot.generation⟩, v)

def ids (a : Arena α) : List TransportId := a.toList.map (·.1)

def isEmpty (a : Arena α) : Bool := a.size == 0

/-- Replaces the values of the slots from number `i` on, one after another; `s` is carried along. -/
def visitFrom {σ : Type} (f : TransportId → α → σ → α × σ) :
    Nat → List (Slot α) → σ → List (Slot α) × σ
  | _, [], s => ([], s)
  | i, ⟨g, none⟩ :: slots, s =>
    let (slots, s) := visitFrom f (i + 1) slots s
    (⟨g, none⟩ :: slots, s)
  | i, ⟨g, some v⟩ :: slots, s =>
    let (v, s) := f ⟨UInt32.ofNat i, g⟩ v s
    let (slots, s) := visitFrom f (i + 1) slots s
    (⟨g, some v⟩ :: slots, s)

/-- Replaces the live values in slot order. -/
def visit {σ : Type} (a : Arena α) (f : TransportId → α → σ → α × σ) (s : σ) : Arena α × σ :=
  let (slots, s) := visitFrom f 0 a.slots.toList s
  ({ a with slots := slots.toArray }, s)

/-- Applies `f` to every live value. -/
def map (a : Arena α) (f : TransportId → α → α) : Arena α :=
  (a.visit (fun id v (_ : Unit) => (f id v, ())) ()).1

end Arena

end NetReactor
