import NetReactor.Instant

/-!
# Timers

A timer has a deadline, fires once or every `interval`, and carries a payload. A cancelled timer fires
one last time, at once.
-/

namespace NetReactor.Timer

/-- Handles are numbered in the order of issue. -/
abbrev Handle := Nat

inductive Kind
  | oneShot
  | repeating (interval : Duration)
deriving DecidableEq, Repr

namespace Kind

def ofDelay (delay : Duration) (again : Bool) : Kind := if again then .repeating delay else .oneShot

def interval? : Kind → Option Duration
  | oneShot => none
  | repeating d => some d

def isRepeating (k : Kind) : Bool := k.interval?.isSome

def text : Kind → String
  | oneShot => "OneShot"
  | repeating d => "Repeating \x7b interval: " ++ d.text ++ " \x7d"

end Kind

structure Entry (α : Type) where
  deadline : Instant
  kind : Kind
  cancelled : Bool
  payload : α
deriving DecidableEq, Repr

namespace Entry

variable {α : Type}

/-- A timer due `delay` after `now`. -/
def after (now : Instant) (delay : Duration) (again : Bool) (payload : α) : Entry α :=
  ⟨now.add delay, .ofDelay delay again, false, payload⟩

def isExpired (e : Entry α) (now : Instant) : Bool := e.deadline ≤ now

def remaining (e : Entry α) (now : Instant) : Duration := e.deadline.since now

/-- How long until the timer is to fire again: never for a one-shot or a cancelled one. -/
def again? (e : Entry α) : Option Duration := if e.cancelled then none else e.kind.interval?

end Entry

/-- A timer that fired. -/
structure Expired (α : Type) where
  handle : Handle
  payload : α
  cancelled : Bool
deriving DecidableEq, Repr

/-- A call of the application on its timers, for the record. -/
inductive Call
  | scheduled (h : Handle)
  | cancelled (h : Handle)
  | removed (h : Handle)
deriving DecidableEq, Repr

end NetReactor.Timer
