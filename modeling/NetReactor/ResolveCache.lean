import NetReactor.Endpoint
import NetReactor.Error
import NetReactor.Instant

/-!
# What is known of a channel's target

A channel's host is either an address, known for good, or a name that is looked up. A lookup is begun
under the cache's **epoch**, which every change of host advances, and its answer counts only if the
epoch is still the same and the cache still waits: **an answer for an earlier host is discarded**.
Addresses that were looked up go stale after a time to live.
-/

namespace NetReactor

/-- Whether the target's addresses are known. -/
inductive ResolveState
  | ready
  | dirty
  | inProgress
  | failed
deriving DecidableEq, Repr, Inhabited

namespace ResolveState

def text : ResolveState → String
  | ready => "Ready"
  | dirty => "Dirty"
  | inProgress => "InProgress"
  | failed => "Failed"

end ResolveState

/-- The addresses of one target and how far they can be trusted. -/
structure ResolveCache where
  state : ResolveState
  addresses : List SocketAddress
  /-- When the addresses were looked up. -/
  resolvedAt : Option Instant
  /-- Whether the host is a name. -/
  named : Bool
  epoch : Nat
deriving DecidableEq, Repr, Inhabited

namespace ResolveCache

/-- Forgets what was known and takes the endpoint as the new target. -/
def setHost (c : ResolveCache) (e : Endpoint) : ResolveCache :=
  match e.numeric? with
  | some a => ⟨.ready, [.ofHost a e.port], none, false, c.epoch + 1⟩
  | none => ⟨.dirty, [], none, true, c.epoch + 1⟩

def ofEndpoint (e : Endpoint) : ResolveCache := setHost ⟨.dirty, [], none, true, 0⟩ e

def setPort (c : ResolveCache) (port : UInt16) : ResolveCache :=
  { c with addresses := c.addresses.map fun a => { a with port := port } }

/-- Whether the addresses were looked up `ttl` ago or longer, or at no known time. -/
def isStale (c : ResolveCache) (ttl : Duration) (now : Instant) : Bool :=
  match c.resolvedAt with
  | none => true
  | some time => ttl ≤ now.since time

/-- Marks a name for a new lookup if its addresses went stale or its last lookup failed. -/
def refresh (c : ResolveCache) (ttl : Duration) (now : Instant) : ResolveCache :=
  let again := c.named && (c.state = .failed || c.state = .ready && c.isStale ttl now)
  if again then { c with state := .dirty } else c

/-- Starts a lookup; its answer is to carry the epoch. -/
def begin (c : ResolveCache) : ResolveCache := { c with state := .inProgress, addresses := [] }

/-- Whether an answer begun under `epoch` is still wanted. -/
def accepts (c : ResolveCache) (epoch : Nat) : Bool := epoch = c.epoch && c.state = .inProgress

/-- Takes in an answer; no address at all is a failure. -/
def complete (c : ResolveCache) (epoch : Nat) (answer : Except IoError (List SocketAddress))
    (time : Instant) : ResolveCache :=
  if c.accepts epoch then
    match answer with
    | .ok (a :: rest) => { c with addresses := a :: rest, resolvedAt := some time, state := .ready }
    | _ => { c with addresses := [], state := .failed }
  else c

end ResolveCache

end NetReactor
