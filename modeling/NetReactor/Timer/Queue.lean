import NetReactor.Timer.Entry

/-!
# The timer queue

Entries by handle, and beside them **keys in order of deadline, then handle**. Nothing searches the
keys: a cancel pushes a second key, a removal leaves its key behind, and a key counts only while its
entry is there with the same deadline. Keys that do not count are dropped when they come to the front.

`pollExpired` fires every timer due, each once: a timer that repeats is put back only after the scan,
so an interval of zero does not keep the scan going.
-/

namespace NetReactor.Timer

/-- Where a timer stood in line when it was pushed. -/
structure Key where
  deadline : Instant
  handle : Handle
deriving DecidableEq, Repr

namespace Key

def before (a b : Key) : Bool :=
  a.deadline < b.deadline || a.deadline = b.deadline && a.handle < b.handle

/-- Inserts into an ordered list, behind its equals. -/
def insert (k : Key) : List Key → List Key
  | [] => [k]
  | x :: rest => if k.before x then k :: x :: rest else x :: insert k rest

end Key

/-- Timers by handle, their keys in order, and running totals. -/
structure Queue (α : Type) where
  entries : List (Handle × Entry α)
  keys : List Key
  scheduled : Nat
  fired : Nat
  cancelled : Nat
deriving Repr

namespace Queue

variable {α : Type}

def empty : Queue α := ⟨[], [], 0, 0, 0⟩

instance : Inhabited (Queue α) := ⟨empty⟩

/-! ## Entries by handle -/

def lookup (h : Handle) (entries : List (Handle × Entry α)) : Option (Entry α) := entries.lookup h

def erase (h : Handle) (entries : List (Handle × Entry α)) : List (Handle × Entry α) :=
  entries.filter (·.1 ≠ h)

def put (h : Handle) (e : Entry α) (entries : List (Handle × Entry α)) : List (Handle × Entry α) :=
  (h, e) :: erase h entries

@[simp] theorem lookup_erase_self (h : Handle) (entries : List (Handle × Entry α)) :
    lookup h (erase h entries) = none := by
  rw [lookup, erase, List.lookup_eq_none_iff]
  intro x hx
  have := (List.mem_filter.1 hx).2
  simp only [decide_eq_true_eq] at this
  exact bne_iff_ne.2 (Ne.symm this)

theorem lookup_erase_of_ne {g h : Handle} (hne : g ≠ h) (entries : List (Handle × Entry α)) :
    lookup g (erase h entries) = lookup g entries := by
  induction entries with
  | nil => rfl
  | cons x entries ih =>
    obtain ⟨k, e⟩ := x
    rw [erase, List.filter_cons]
    split
    · rw [lookup, List.lookup_cons, lookup, List.lookup_cons]
      split
      · rfl
      · exact ih
    · rename_i hk
      have hk : k = h := by simpa using hk
      rw [lookup, lookup, List.lookup_cons, beq_false_of_ne (hk ▸ hne)]
      exact ih

@[simp] theorem lookup_put_self (h : Handle) (e : Entry α) (entries : List (Handle × Entry α)) :
    lookup h (put h e entries) = some e := by
  simp [lookup, put]

theorem lookup_put_of_ne {g h : Handle} (hne : g ≠ h) (e : Entry α)
    (entries : List (Handle × Entry α)) : lookup g (put h e entries) = lookup g entries := by
  rw [← lookup_erase_of_ne hne entries]
  simp [lookup, put, List.lookup_cons, beq_false_of_ne hne]

def get? (q : Queue α) (h : Handle) : Option (Entry α) := lookup h q.entries

def contains (q : Queue α) (h : Handle) : Bool := (q.get? h).isSome

def size (q : Queue α) : Nat := q.entries.length

/-- A key whose entry is gone or has another deadline. -/
def isStale (entries : List (Handle × Entry α)) (k : Key) : Bool :=
  match lookup k.handle entries with
  | some e => e.deadline ≠ k.deadline
  | none => true

/-- Without entries no key can count. -/
def tidy (q : Queue α) : Queue α := if q.entries.isEmpty then { q with keys := [] } else q

/-! ## Operations -/

/-- Adds a timer, in place of any other under the same handle. -/
def insert (q : Queue α) (h : Handle) (e : Entry α) : Queue α :=
  { q with
    entries := put h e q.entries
    keys := Key.insert ⟨e.deadline, h⟩ q.keys
    scheduled := q.scheduled + 1 }

/-- Makes a timer fire at once, for the last time; `false` if there is none or it was cancelled
before. -/
def cancel (q : Queue α) (now : Instant) (h : Handle) : Bool × Queue α :=
  match q.get? h with
  | none => (false, q)
  | some e =>
    if e.cancelled then (false, q)
    else (true, { q with
      entries := put h { e with cancelled := true, deadline := now } q.entries
      keys := Key.insert ⟨now, h⟩ q.keys
      cancelled := q.cancelled + 1 })

/-- Takes a timer out without firing it. -/
def remove (q : Queue α) (h : Handle) : Option α × Queue α :=
  match q.get? h with
  | none => (none, q)
  | some e => (some e.payload, tidy { q with entries := erase h q.entries })

/-- A scan of the keys due, in progress. -/
structure Poll (α : Type) where
  entries : List (Handle × Entry α)
  /-- The keys of timers to be put back, latest first. -/
  rearmed : List Key
  /-- The timers fired, latest first. -/
  fired : List (Expired α)

/-- What the key at the front does at `now`. -/
def Poll.take (now : Instant) (p : Poll α) (k : Key) : Poll α :=
  match lookup k.handle p.entries with
  | none => p
  | some e =>
    if e.deadline ≠ k.deadline then p
    else match e.again? with
      | some interval =>
        let next := now.add interval
        { entries := put k.handle { e with deadline := next } p.entries
          rearmed := ⟨next, k.handle⟩ :: p.rearmed
          fired := ⟨k.handle, e.payload, false⟩ :: p.fired }
      | none =>
        { p with
          entries := erase k.handle p.entries
          fired := ⟨k.handle, e.payload, e.cancelled⟩ :: p.fired }

/-- Fires every timer due at `now`, earliest first. -/
def pollExpired (q : Queue α) (now : Instant) : List (Expired α) × Queue α :=
  let due := q.keys.takeWhile (·.deadline ≤ now)
  let p := due.foldl (Poll.take now) ⟨q.entries, [], []⟩
  let later := q.keys.drop due.length
  let q := tidy { q with
    entries := p.entries
    keys := p.rearmed.foldr Key.insert later
    fired := q.fired + p.fired.length }
  (p.fired.reverse, q)

/-- The earliest deadline; stale keys before it are dropped. -/
def nextDeadline (q : Queue α) : Option Instant × Queue α :=
  let keys := q.keys.dropWhile (isStale q.entries)
  (keys.head?.map (·.deadline), { q with keys := keys })

/-- How long to wait from `now` for the next timer, at most `ceiling`. -/
def waitTimeout (q : Queue α) (now : Instant) (ceiling : Duration) : Duration × Queue α :=
  let (deadline, q) := q.nextDeadline
  ((deadline.map fun d => (d.since now).min ceiling).getD ceiling, q)

def clear (q : Queue α) : Queue α := { q with entries := [], keys := [] }

/-- Whether a clock can show the deadline of every timer. -/
def inRange (q : Queue α) : Bool := q.entries.all (·.2.deadline.inRange)

end Queue

end NetReactor.Timer
