import NetReactor.Proofs.Timer.Backed

/-!
# What timers are set to

A timer is set at some time, to be due so much later; the sum is its deadline, and no check is made of it. A
poll sets anew what is to fire again (`Queue.armings`), at the time of the poll and for the timer's own
interval. **If no interval is longer than so much, none is after a poll, and the poll sets no timer for longer**.
-/

namespace NetReactor.Timer

/-- A timer is set at `now`, to be due `delay` later. -/
structure Arming where
  now : Instant
  delay : Duration

/-- The deadline that a timer is set to. -/
def Arming.due (s : Arming) : Instant := s.now.add s.delay

/-- What is set no later and for no longer is due no later. -/
theorem Arming.inRange_due {s : Arming} {latest : Instant} {longest : Duration} (hnow : s.now ≤ latest)
    (hdelay : s.delay ≤ longest) (hfits : (latest.add longest).inRange = true) : s.due.inRange = true := by
  have hnow' : s.now.nanos ≤ latest.nanos := hnow
  have hdelay' : s.delay.nanos ≤ longest.nanos := hdelay
  have hfits' : latest.nanos + longest.nanos < Instant.limit := of_decide_eq_true hfits
  have hdue : s.now.nanos + s.delay.nanos < Instant.limit := by omega
  exact decide_eq_true hdue

variable {α : Type}

namespace Queue

/-- For how long the key at the front sets its timer anew, if it does. -/
def Poll.renewal? (p : Poll α) (k : Key) : Option Duration :=
  if isStale p.entries k then none else (lookup k.handle p.entries).bind (·.again?)

/-- What the keys of a scan set anew, one after the other. -/
def Poll.armings (now : Instant) : List Key → Poll α → List Arming
  | [], _ => []
  | k :: rest, p => ((p.renewal? k).map (Arming.mk now)).toList ++ armings now rest (p.take now k)

/-- What a poll at `now` sets anew. -/
def armings (q : Queue α) (now : Instant) : List Arming :=
  Poll.armings now (q.keys.takeWhile (·.deadline ≤ now)) ⟨q.entries, [], []⟩

variable {now : Instant} {p : Poll α} {k : Key}

theorem rearmed_take (now : Instant) (p : Poll α) (k : Key) : (p.take now k).rearmed.map (·.deadline) =
    ((p.renewal? k).map (now.add ·)).toList ++ p.rearmed.map (·.deadline) := by
  cases hstale : isStale p.entries k with
  | true => simp [Poll.renewal?, hstale, take_of_stale hstale]
  | false =>
    obtain ⟨e, he, hdeadline⟩ := isStale_eq_false_iff.1 hstale
    rw [take_of_live he hdeadline]
    cases hagain : e.again? with
    | none => simp [Poll.renewal?, hstale, rearmedKey?, he, Entry.rearmed?, hagain]
    | some interval => simp [Poll.renewal?, hstale, rearmedKey?, he, Entry.rearmed?, hagain]

/-- **What a scan sets anew are the deadlines that it puts back**, the latest first. -/
theorem rearmed_foldl (now : Instant) (keys : List Key) (p : Poll α) :
    (keys.foldl (Poll.take now) p).rearmed.map (·.deadline) =
      ((Poll.armings now keys p).map Arming.due).reverse ++ p.rearmed.map (·.deadline) := by
  induction keys generalizing p with
  | nil => rfl
  | cons k rest ih =>
    rw [List.foldl_cons, ih, rearmed_take, Poll.armings]
    cases p.renewal? k with
    | none => simp
    | some interval => simp [Arming.due]

/-! ## Intervals -/

/-- No timer repeats at a longer interval. -/
def Modest (longest : Duration) (entries : List (Handle × Entry α)) : Prop :=
  ∀ h e d, lookup h entries = some e → e.kind.interval? = some d → d ≤ longest

variable {longest : Duration} {entries : List (Handle × Entry α)}

theorem Modest.sub {entries' : List (Handle × Entry α)} (h : Modest longest entries)
    (hsub : ∀ g e, lookup g entries' = some e → lookup g entries = some e) : Modest longest entries' :=
  fun g e d he hd => h g e d (hsub g e he) hd

theorem Modest.put (h : Modest longest entries) {g : Handle} {e : Entry α}
    (he : ∀ d, e.kind.interval? = some d → d ≤ longest) : Modest longest (put g e entries) := by
  intro g' e' d he' hd
  by_cases hg : g' = g
  · subst hg
    rw [lookup_put_self, Option.some.injEq] at he'
    exact he d (he' ▸ hd)
  · rw [lookup_put_of_ne hg] at he'
    exact h g' e' d he' hd

/-- What is set anew keeps its interval. -/
theorem Modest.take (h : Modest longest p.entries) (now : Instant) (k : Key) :
    Modest longest (p.take now k).entries := by
  intro g e d he hd
  by_cases hg : g = k.handle
  · subst hg
    cases hstale : isStale p.entries k with
    | true =>
      rw [take_of_stale hstale] at he
      exact h k.handle e d he hd
    | false =>
      obtain ⟨e₀, he₀, hdeadline⟩ := isStale_eq_false_iff.1 hstale
      rw [lookup_take_self he₀ hdeadline] at he
      obtain ⟨interval, -, rfl⟩ := Option.map_eq_some_iff.1 he
      exact h k.handle e₀ d he₀ hd
  · rw [lookup_take_of_ne hg] at he
    exact h g e d he hd

theorem Modest.renewal (h : Modest longest p.entries) {d : Duration} (hd : p.renewal? k = some d) :
    d ≤ longest := by
  unfold Poll.renewal? at hd
  split at hd
  · simp at hd
  · obtain ⟨e, he, hagain⟩ := Option.bind_eq_some_iff.1 hd
    unfold Entry.again? at hagain
    split at hagain
    · simp at hagain
    · exact h k.handle e d he hagain

/-- **A scan keeps the intervals and sets no timer for longer.** -/
theorem Modest.scan (now : Instant) (keys : List Key) {p : Poll α} (h : Modest longest p.entries) :
    Modest longest (keys.foldl (Poll.take now) p).entries ∧
      ∀ s ∈ Poll.armings now keys p, s.delay ≤ longest := by
  induction keys generalizing p with
  | nil => exact ⟨h, by simp [Poll.armings]⟩
  | cons k rest ih =>
    obtain ⟨hrest, harmings⟩ := ih (h.take now k)
    refine ⟨hrest, ?_⟩
    intro s hs
    rw [Poll.armings, List.mem_append, Option.mem_toList] at hs
    rcases hs with hfirst | hlater
    · obtain ⟨d, hd, rfl⟩ := Option.map_eq_some_iff.1 hfirst
      exact h.renewal hd
    · exact harmings s hlater

theorem Modest.poll {q : Queue α} (h : Modest longest q.entries) (now : Instant) :
    Modest longest (q.pollExpired now).2.entries ∧ ∀ s ∈ q.armings now, s.delay ≤ longest := by
  obtain ⟨hentries, harmings⟩ := Modest.scan now (q.keys.takeWhile (·.deadline ≤ now))
    (p := ⟨q.entries, [], []⟩) h
  refine ⟨?_, harmings⟩
  simpa [pollExpired] using hentries

end Queue

end NetReactor.Timer
