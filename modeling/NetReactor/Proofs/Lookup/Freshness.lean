import Mathlib.Data.List.Induction
import NetReactor.ResolveCache

/-!
# Addresses that are served

Freshness, addresses and state are separate fields of the cache, and five calls change them in any order.
**A ready target has addresses, and one whose lookup is in progress or failed has none** (`Sound`). **A name
whose addresses are seen as ready has those of the answer that was taken in last** (`ServedFrom`): nothing
was taken in, begun or set anew since, only the port may have been rewritten, and the answer is younger
than the time to live.
-/

namespace NetReactor.ResolveCache

/-! ## A target has addresses when it is ready -/

structure Sound (c : ResolveCache) : Prop where
  ready : c.state = .ready → c.addresses ≠ []
  unknown : c.state = .inProgress ∨ c.state = .failed → c.addresses = []

namespace Sound

variable {c : ResolveCache}

theorem setHost (c : ResolveCache) (e : Endpoint) : (c.setHost e).Sound := by
  unfold ResolveCache.setHost
  split <;> exact ⟨by simp, by simp⟩

theorem ofEndpoint (e : Endpoint) : (ResolveCache.ofEndpoint e).Sound := setHost _ e

theorem setPort (hc : c.Sound) (port : UInt16) : (c.setPort port).Sound where
  ready hstate := by simpa [ResolveCache.setPort] using hc.ready hstate
  unknown hstate := by simpa [ResolveCache.setPort] using hc.unknown hstate

theorem refresh (hc : c.Sound) (ttl : Duration) (now : Instant) : (c.refresh ttl now).Sound := by
  unfold ResolveCache.refresh
  simp only
  split
  · exact ⟨by simp, by simp⟩
  · exact hc

theorem begin (c : ResolveCache) : c.begin.Sound := ⟨by simp [ResolveCache.begin], fun _ => rfl⟩

theorem complete (hc : c.Sound) (epoch : Nat) (answer : Except IoError (List SocketAddress))
    (time : Instant) : (c.complete epoch answer time).Sound := by
  unfold ResolveCache.complete
  split
  · split <;> exact ⟨by simp, by simp⟩
  · exact hc

end Sound

/-! ## Calls in any order -/

/-- A call on a cache. -/
inductive Operation
  | setHost (e : Endpoint)
  | setPort (port : UInt16)
  | refresh (ttl : Duration) (now : Instant)
  | begin
  | complete (epoch : Nat) (answer : Except IoError (List SocketAddress)) (time : Instant)

def perform (c : ResolveCache) : Operation → ResolveCache
  | .setHost e => c.setHost e
  | .setPort port => c.setPort port
  | .refresh ttl now => c.refresh ttl now
  | .begin => c.begin
  | .complete epoch answer time => c.complete epoch answer time

/-- The cache of an endpoint after some calls. -/
def after (e : Endpoint) (ops : List Operation) : ResolveCache := ops.foldl perform (ofEndpoint e)

/-- Whether a call is an answer that is taken in. -/
def takes (c : ResolveCache) : Operation → Bool
  | .complete epoch _ _ => c.accepts epoch
  | _ => false

/-- Whether a call forgets the addresses: a new host, or a new lookup. -/
def Operation.forgets : Operation → Bool
  | .setHost _ | .begin => true
  | _ => false

/-- What a call makes of addresses that it does not forget. -/
def Operation.rewrite (addresses : List SocketAddress) : Operation → List SocketAddress
  | .setPort port => addresses.map fun a => { a with port := port }
  | _ => addresses

/-- The addresses of the answer that was taken in last, at `time`, after the last new host and the last
lookup that was begun; the port is as it was set since. -/
def ServedFrom (e : Endpoint) (ops : List Operation) (addresses : List SocketAddress)
    (time : Instant) : Prop :=
  ∃ before epoch answer later, ops = before ++ .complete epoch (.ok answer) time :: later ∧
    (after e before).accepts epoch = true ∧ (∀ op ∈ later, op.forgets = false) ∧
    (∀ mid op, mid ++ [op] <+: later →
      (after e (before ++ .complete epoch (.ok answer) time :: mid)).takes op = false) ∧
    addresses = later.foldl Operation.rewrite answer

variable {e : Endpoint} {ops : List Operation} {addresses : List SocketAddress} {time : Instant}

theorem after_append_singleton (e : Endpoint) (ops : List Operation) (op : Operation) :
    after e (ops ++ [op]) = (after e ops).perform op := by
  simp [after]

/-- An answer serves what it brings. -/
theorem servedFrom_answer {epoch : Nat} (haccepts : (after e ops).accepts epoch = true) :
    ServedFrom e (ops ++ [.complete epoch (.ok addresses) time]) addresses time :=
  ⟨ops, epoch, addresses, [], rfl, haccepts, by simp, by simp, rfl⟩

/-- **Addresses go on being served** until they are forgotten or another answer is taken in. -/
theorem ServedFrom.append (h : ServedFrom e ops addresses time) {op : Operation}
    (hkeeps : op.forgets = false) (hother : (after e ops).takes op = false) :
    ServedFrom e (ops ++ [op]) (op.rewrite addresses) time := by
  obtain ⟨before, epoch, answer, later, rfl, haccepts, hlater, hlast, rfl⟩ := h
  refine ⟨before, epoch, answer, later ++ [op], by simp, haccepts, fun x hx => ?_, fun mid x hx => ?_, ?_⟩
  · rcases List.mem_append.1 hx with hx | hx
    · exact hlater x hx
    · obtain rfl := List.mem_singleton.1 hx
      exact hkeeps
  · rcases List.prefix_concat_iff.1 hx with heq | hprefix
    · obtain ⟨rfl, hop⟩ := List.append_inj' heq rfl
      obtain rfl := List.singleton_inj.1 hop
      exact hother
    · exact hlast mid x hprefix
  · simp

/-- What a name has while it is ready. -/
def Known (e : Endpoint) (ops : List Operation) (c : ResolveCache) : Prop :=
  c.named = true → c.state = .ready →
    ∃ time, c.resolvedAt = some time ∧ ServedFrom e ops c.addresses time

theorem Known.setPort (h : Known e ops (after e ops)) (port : UInt16) :
    Known e (ops ++ [.setPort port]) ((after e ops).setPort port) := by
  intro hnamed hready
  obtain ⟨time, htime, hserved⟩ := h hnamed hready
  exact ⟨time, htime, hserved.append rfl rfl⟩

theorem Known.refresh (h : Known e ops (after e ops)) (ttl : Duration) (now : Instant) :
    Known e (ops ++ [.refresh ttl now]) ((after e ops).refresh ttl now) := by
  unfold ResolveCache.refresh
  simp only
  split
  · intro _ hready
    cases hready
  · intro hnamed hready
    obtain ⟨time, htime, hserved⟩ := h hnamed hready
    exact ⟨time, htime, hserved.append rfl rfl⟩

theorem Known.complete (h : Known e ops (after e ops)) (epoch : Nat)
    (answer : Except IoError (List SocketAddress)) (time : Instant) :
    Known e (ops ++ [.complete epoch answer time]) ((after e ops).complete epoch answer time) := by
  unfold ResolveCache.complete
  split
  · rename_i haccepts
    split
    · exact fun _ _ => ⟨time, rfl, servedFrom_answer haccepts⟩
    · intro _ hready
      cases hready
  · rename_i hspent
    intro hnamed hready
    obtain ⟨time, htime, hserved⟩ := h hnamed hready
    exact ⟨time, htime, hserved.append rfl (by simpa [takes] using hspent)⟩

theorem known_after (e : Endpoint) (ops : List Operation) : Known e ops (after e ops) := by
  have hhost : ∀ (ops : List Operation) (c : ResolveCache) (e' : Endpoint), Known e ops (c.setHost e') := by
    intro ops c e' hnamed hready
    unfold ResolveCache.setHost at hnamed hready
    split at hready
    · rename_i a ha
      simp [ha] at hnamed
    · cases hready
  induction ops using List.reverseRecOn with
  | nil => exact hhost [] _ e
  | append_singleton ops op ih =>
    rw [after_append_singleton]
    cases op with
    | setHost e' => exact hhost _ _ e'
    | setPort port => exact ih.setPort port
    | refresh ttl now => exact ih.refresh ttl now
    | begin =>
      intro _ hready
      cases hready
    | complete epoch answer time => exact ih.complete epoch answer time

theorem sound_after (e : Endpoint) (ops : List Operation) : (after e ops).Sound := by
  induction ops using List.reverseRecOn with
  | nil => exact .ofEndpoint e
  | append_singleton ops op ih =>
    rw [after_append_singleton]
    cases op with
    | setHost e' => exact .setHost _ e'
    | setPort port => exact ih.setPort port
    | refresh ttl now => exact ih.refresh ttl now
    | begin => exact .begin _
    | complete epoch answer time => exact ih.complete epoch answer time

/-- A cache that some calls lead to. -/
def Attained (c : ResolveCache) : Prop := ∃ e ops, c = after e ops

theorem attained_ofEndpoint (e : Endpoint) : (ofEndpoint e).Attained := ⟨e, [], rfl⟩

theorem Attained.perform {c : ResolveCache} (h : c.Attained) (op : Operation) : (c.perform op).Attained := by
  obtain ⟨e, ops, rfl⟩ := h
  exact ⟨e, ops ++ [op], (after_append_singleton e ops op).symm⟩

theorem Attained.sound {c : ResolveCache} (h : c.Attained) : c.Sound := by
  obtain ⟨e, ops, rfl⟩ := h
  exact sound_after e ops

/-- A name that is seen as ready is as it was, and younger than the time to live. -/
theorem refresh_of_ready {c : ResolveCache} {ttl : Duration} {now : Instant} (hnamed : c.named = true)
    (hready : (c.refresh ttl now).state = .ready) :
    c.refresh ttl now = c ∧ c.state = .ready ∧ c.isStale ttl now = false := by
  unfold refresh at hready ⊢
  simp only [hnamed, Bool.true_and] at hready ⊢
  split at hready
  · cases hready
  · rename_i hfresh
    rw [if_neg hfresh]
    refine ⟨rfl, hready, Bool.eq_false_iff.2 fun hstale => hfresh ?_⟩
    simp [hready, hstale]

/-- **A name is served as ready only with what the answer brought that was taken in last**, less than the
time to live ago. -/
theorem served_fresh (e : Endpoint) (ops : List Operation) {ttl : Duration} {now : Instant}
    (hnamed : (after e ops).named = true) (hready : ((after e ops).refresh ttl now).state = .ready) :
    ∃ time, ServedFrom e ops ((after e ops).refresh ttl now).addresses time ∧ now.since time < ttl := by
  obtain ⟨hsame, hstate, hfresh⟩ := refresh_of_ready hnamed hready
  obtain ⟨time, htime, hserved⟩ := known_after e ops hnamed hstate
  refine ⟨time, by rwa [hsame], ?_⟩
  simp only [isStale, htime, decide_eq_false_iff_not] at hfresh
  exact Nat.lt_of_not_le hfresh

end NetReactor.ResolveCache
