import NetReactor.Reactor.Turn

/-!
# A turn, part by part

Where the loop stands in its turn is a `Phase`. A turn is taken apart once: **what each part hands on to
the next holds at the end of the turn** (`HandsOn.turn`). The drain of the command queue is the only part
that may be cut short: it empties the queue or has carried out its whole count.
-/

namespace NetReactor

/-- Where the loop stands in its turn, and what is left of the part it is in. -/
inductive Phase
  | stopped
  | checking
  | refreshing
  | timing
  /-- Waiting since `now`, for so long at most. -/
  | waiting (now : Instant) (timeout : Duration)
  | resetting (ready : List (Readiness Owner))
  | draining (ready : List (Readiness Owner))
  | serving (rest ready : List (Readiness Owner))
  | reading (rest : List (Readiness Owner))
  | flushing (now : Instant) (rest : List TransportId) (failed : List (TransportId × Status))
  | losing (failed : List (TransportId × Status))
  | firing (due : List (Timer.Expired Task))
  | updating (rest : List TransportId)

/-- The timers that are due and still to fire. -/
def Phase.due : Phase → List (Timer.Expired Task)
  | .firing due => due
  | _ => []

namespace Reactor

variable {σ : Type} [Host σ]

/-- Takes the timers that are due off the queue. -/
def pollTimers (r : Reactor σ) : List (Timer.Expired Task) × Reactor σ :=
  let (now, r) := r.now
  let (due, q) := r.service.timers.pollExpired now
  (due, { r with service := { r.service with timers := q } })

/-- The loop with another command queue. -/
def withCommands (r : Reactor σ) (commands : List Command) : Reactor σ :=
  { r with service := { r.service with commands := commands } }

/-- The loop comes from one state to another by carrying out so many commands. -/
inductive Carries : Nat → Reactor σ → Reactor σ → Prop
  | nothing {r : Reactor σ} : Carries 0 r r
  | next {r r' : Reactor σ} {c : Command} {rest : List Command} {count : Nat}
      (hc : r.service.commands = c :: rest) (h : Carries count ((r.withCommands rest).perform c) r') :
      Carries (count + 1) r r'

/-- **A drain empties the queue or has carried out its whole count.** -/
theorem drainCommands_empties_or_carries (count : Nat) (r : Reactor σ) :
    (r.drainCommands count).service.commands = [] ∨ r.Carries count (r.drainCommands count) := by
  induction count generalizing r with
  | zero => exact .inr .nothing
  | succ count ih =>
    unfold drainCommands
    split
    · rename_i hc
      exact .inl hc
    · rename_i c rest hc
      exact (ih _).imp_right (.next hc)

/-- Every part of a turn hands on to the next: what holds of the loop's state at the one's place holds at
the other's when the one is done. -/
structure HandsOn (P : Phase → Reactor σ → Prop) : Prop where
  refresh {r : Reactor σ} (h : P .refreshing r) : P .timing r.refreshOptions
  time {r : Reactor σ} (h : P .timing r) :
    P (.waiting (Host.now r.world).1 r.waitTimeout.1) r.waitTimeout.2
  wake {r : Reactor σ} {now : Instant} {d : Duration} (h : P (.waiting now d) r) :
    P (.resetting (r.await d).1) (r.await d).2
  reset {r : Reactor σ} {ready : List (Readiness Owner)} (h : P (.resetting ready) r) :
    P (.draining ready) (r.resetInterrupter ready)
  command {r : Reactor σ} {ready : List (Readiness Owner)} {c : Command} {rest : List Command}
    (h : P (.draining ready) r) (hc : r.service.commands = c :: rest) :
    P (.draining ready) ((r.withCommands rest).perform c)
  drained {r₀ r : Reactor σ} {ready : List (Readiness Owner)} (h₀ : P (.draining ready) r₀)
    (h : P (.draining ready) r) (hc : r.service.commands = [] ∨ r₀.Carries commandsPerTurn r) :
    P (.serving ready ready) r
  serve {r : Reactor σ} {x : Readiness Owner} {rest ready : List (Readiness Owner)}
    (h : P (.serving (x :: rest) ready) r) : P (.serving rest ready) (r.serveIfChannel x)
  served {r : Reactor σ} {ready : List (Readiness Owner)} (h : P (.serving [] ready) r) :
    P (.reading ready) r
  read {r : Reactor σ} {x : Readiness Owner} {rest : List (Readiness Owner)}
    (h : P (.reading (x :: rest)) r) : P (.reading rest) (r.readIfTransport x)
  flush {r : Reactor σ} (h : P (.reading []) r) : P (.losing []) r.flushTransports
  poll {r : Reactor σ} (h : P (.losing []) r) : P (.firing r.pollTimers.1) r.pollTimers.2
  fire {r : Reactor σ} {e : Timer.Expired Task} {rest : List (Timer.Expired Task)}
    (h : P (.firing (e :: rest)) r) : P (.firing rest) (r.fire e)
  update {r : Reactor σ} (h : P (.firing []) r) : P .checking r.updateInterests

omit [Host σ] in
/-- One of the loop's walks: what each thing hands on to the rest holds when none is left. -/
theorem handsOn_foldl {P : Phase → Reactor σ → Prop} {α : Type} (part : List α → Phase)
    {f : Reactor σ → α → Reactor σ} (hf : ∀ {r x rest}, P (part (x :: rest)) r → P (part rest) (f r x))
    (xs : List α) {r : Reactor σ} (hr : P (part xs) r) : P (part []) (xs.foldl f r) := by
  induction xs generalizing r with
  | nil => exact hr
  | cons x rest ih => exact ih (hf hr)

namespace HandsOn

variable {P : Phase → Reactor σ → Prop} {r : Reactor σ} {ready : List (Readiness Owner)}

theorem drain (h : HandsOn P) (hr : P (.draining ready) r) (count : Nat) :
    P (.draining ready) (r.drainCommands count) := by
  induction count generalizing r with
  | zero => exact hr
  | succ count ih =>
    unfold drainCommands
    split
    · exact hr
    · rename_i c rest hc
      exact ih (h.command hr hc)

theorem iterate (h : HandsOn P) (hr : P (.resetting ready) r) : P .checking (r.iterate ready) := by
  have hreset := h.reset hr
  have hdrained := h.drained hreset (h.drain hreset commandsPerTurn)
    (drainCommands_empties_or_carries commandsPerTurn _)
  have hserved := h.served (handsOn_foldl (.serving · ready) h.serve ready hdrained)
  have hflushed := h.flush (handsOn_foldl .reading h.read ready hserved)
  exact h.update (handsOn_foldl .firing h.fire _ (h.poll hflushed))

/-- **What every part hands on to the next, a whole turn brings about.** -/
theorem turn (h : HandsOn P) (hr : P .refreshing r) : P .checking r.turn :=
  h.iterate (h.wake (h.time (h.refresh hr)))

end HandsOn

end Reactor

end NetReactor
