import NetReactor.Proofs.Timer.Wait
import NetReactor.Readiness

/-!
# Waits in whole milliseconds

The system waits for whole milliseconds, and what a wait has beyond its last whole millisecond is dropped:
only a wait below one millisecond is rounded up. **A wait that nothing cuts short therefore lasts long
enough exactly if it is below a millisecond or a number of whole ones**, and not longer than one call can
take. Otherwise it ends early by less than a millisecond: the poll behind it fires nothing, and it takes
another wait, of one millisecond, for the nearest timer to fire.
-/

namespace NetReactor

namespace Duration

/-- How long a wait of `d` lasts if nothing cuts it short. -/
def slept (d : Duration) : Duration := ofMillis d.waitMillis

/-- The longest wait that one call can make. -/
def longest : Duration := ofMillis longestWait

theorem nanos_slept (d : Duration) : d.slept.nanos =
    Min.min (if d.nanos / 1000000 = 0 ∧ d.nanos ≠ 0 then 1 else d.nanos / 1000000) longestWait * 1000000 := by
  simp [slept, ofMillis, waitMillis, millis, isZero]

/-- **A wait lasts long enough if it has no part of a millisecond beyond whole ones.** -/
theorem le_slept_iff (d : Duration) :
    d ≤ d.slept ↔ d ≤ longest ∧ (d < ofMillis 1 ∨ 1000000 ∣ d.nanos) := by
  show d.nanos ≤ d.slept.nanos ↔
    d.nanos ≤ longestWait * 1000000 ∧ (d.nanos < 1 * 1000000 ∨ 1000000 ∣ d.nanos)
  rw [nanos_slept, longestWait]
  split <;> omega

/-- A wait that one call can make is short by less than a millisecond. -/
theorem lt_slept_add (d : Duration) (h : d ≤ longest) : d.nanos < d.slept.nanos + 1000000 := by
  have hnanos : d.nanos ≤ longestWait * 1000000 := h
  rw [nanos_slept]
  rw [longestWait] at hnanos ⊢
  split <;> omega

end Duration

namespace Timer

variable {α : Type}

namespace Queue

/-- No timer of the queue is due before `e`, which stands under `h`. -/
structure Nearest (q : Queue α) (h : Handle) (e : Entry α) : Prop where
  stands : q.get? h = some e
  least : ∀ g f, q.get? g = some f → e.deadline ≤ f.deadline

theorem Nearest.of_entries {q q' : Queue α} {h : Handle} {e : Entry α} (hnear : q.Nearest h e)
    (hentries : q'.entries = q.entries) : q'.Nearest h e where
  stands := (congrArg (lookup h) hentries).trans hnear.stands
  least g f hf := hnear.least g f ((congrArg (lookup g) hentries).symm.trans hf)

/-- Keys that do not count leave a scan as it was. -/
theorem foldl_take_of_stale {now : Instant} {p : Poll α} {keys : List Key}
    (h : ∀ k ∈ keys, isStale p.entries k = true) : keys.foldl (Poll.take now) p = p := by
  induction keys with
  | nil => rfl
  | cons k rest ih =>
    rw [List.foldl_cons, take_of_stale (h k List.mem_cons_self)]
    exact ih fun k' hk' => h k' (List.mem_cons_of_mem _ hk')

namespace Backed

variable {q : Queue α} {h : Handle} {e : Entry α} {now : Instant}

theorem mem_handles_pollExpired (hq : Backed q) (he : q.get? h = some e) :
    h ∈ (q.pollExpired now).1.map (·.handle) ↔ e.deadline ≤ now := by
  rw [← List.count_pos_iff, hq.count_pollExpired, he, Option.elim_some]
  by_cases hdue : e.deadline ≤ now
  · simp [Entry.isExpired, hdue]
  · simp [Entry.isExpired, hdue]

/-- A poll that fires nothing leaves every timer as it was. -/
theorem entries_pollExpired_of_nil (hq : Backed q) (hnil : (q.pollExpired now).1 = []) :
    (q.pollExpired now).2.entries = q.entries := by
  have hlate := (hq.pollExpired_eq_nil_iff now).1 hnil
  have hstale : ∀ k ∈ q.keys.takeWhile (·.deadline ≤ now), isStale q.entries k = true := by
    intro k hk
    by_contra hcounts
    obtain ⟨e, he, hdeadline⟩ := isStale_eq_false_iff.1 (Bool.eq_false_iff.2 hcounts)
    have hdue : k.deadline ≤ now := by simpa using List.mem_takeWhile_imp hk
    have hlt : now.nanos < e.deadline.nanos := hlate _ _ he
    have hle : e.deadline.nanos ≤ now.nanos := hdeadline ▸ hdue
    omega
  simp only [Queue.pollExpired, entries_tidy]
  rw [foldl_take_of_stale (p := ⟨q.entries, [], []⟩) hstale]

variable {ceiling : Duration}

/-- A wait for a timer that is due before the ceiling is as long as until then. -/
theorem waitTimeout_of_nearest (hq : Backed q) (hnear : q.Nearest h e)
    (hbefore : e.deadline < now.add ceiling) :
    (q.waitTimeout now ceiling).1 = e.deadline.since now := by
  have hbelow : e.deadline.nanos < now.nanos + ceiling.nanos := hbefore
  have hle : (e.deadline.since now).nanos ≤ ceiling.nanos := by
    show (e.deadline.nanos - now.nanos).toNat ≤ ceiling.nanos
    omega
  rcases hq.nextDeadline_cases with ⟨-, hnone⟩ | ⟨g, f, hf, hnext, hfirst⟩
  · exact absurd hnear.stands (by simp [hnone h])
  · have hsame : f.deadline = e.deadline :=
      congrArg Instant.mk (Int.le_antisymm (hfirst h e hnear.stands) (hnear.least g f hf))
    simp [waitTimeout, hnext, hsame, Duration.min, hle]

/-- The nearest timer fires behind a wait of at least the length asked for, and behind no other. -/
theorem fires_iff (hq : Backed q) (hnear : q.Nearest h e) (hbefore : e.deadline < now.add ceiling)
    (v : Duration) :
    h ∈ ((q.waitTimeout now ceiling).2.pollExpired (now.add v)).1.map (·.handle) ↔
      (q.waitTimeout now ceiling).1 ≤ v := by
  have hwaited : (q.waitTimeout now ceiling).2.Backed := hq.nextDeadline
  have hstands : (q.waitTimeout now ceiling).2.get? h = some e := hnear.stands
  rw [hwaited.mem_handles_pollExpired hstands, hq.waitTimeout_of_nearest hnear hbefore]
  show e.deadline.nanos ≤ now.nanos + v.nanos ↔ (e.deadline.nanos - now.nanos).toNat ≤ v.nanos
  omega

/-- After a wait that was too short the next one is below a millisecond, and long enough. -/
theorem fires_at_second (hq : Backed q) (hnear : q.Nearest h e)
    (hbefore : e.deadline < now.add ceiling) {w : Duration} (hw : e.deadline.since now = w)
    (hlongest : w ≤ .longest) (hshort : ¬ w ≤ w.slept) :
    let (again, waited) := q.waitTimeout (now.add w.slept) ceiling
    again < .ofMillis 1 ∧
      h ∈ (waited.pollExpired ((now.add w.slept).add again.slept)).1.map (·.handle) := by
  have hwait : (e.deadline.nanos - now.nanos).toNat = w.nanos := congrArg Duration.nanos hw
  have hless : w.nanos < w.slept.nanos + 1000000 := w.lt_slept_add hlongest
  have hlater : e.deadline < (now.add w.slept).add ceiling := by
    have hbelow : e.deadline.nanos < now.nanos + ceiling.nanos := hbefore
    show e.deadline.nanos < now.nanos + w.slept.nanos + ceiling.nanos
    omega
  have hagain := hq.waitTimeout_of_nearest hnear hlater
  have hbelow : (q.waitTimeout (now.add w.slept) ceiling).1 < .ofMillis 1 := by
    rw [hagain]
    show (e.deadline.nanos - (now.nanos + w.slept.nanos)).toNat < 1 * 1000000
    have hmore : w.slept.nanos < w.nanos := Nat.lt_of_not_le hshort
    omega
  have hcan : (q.waitTimeout (now.add w.slept) ceiling).1 ≤ .longest :=
    Nat.le_trans (Nat.le_of_lt hbelow) (by decide)
  exact ⟨hbelow, (hq.fires_iff hnear hlater _).2 ((Duration.le_slept_iff _).2 ⟨hcan, .inl hbelow⟩)⟩

end Backed

end Queue

/-- **After any calls a wait that nothing cuts short lasts long enough exactly if it is below a millisecond
or a number of whole ones**, and no longer than one call can take: then the nearest timer fires behind it,
and otherwise nothing does. A wait that one call can take is too short but once. -/
theorem awake_at_deadline_iff (ops : List (Operation α)) (now : Instant) (ceiling : Duration) :
    let q := (run Queue.perform Queue.empty ops).2
    let (w, waited) := q.waitTimeout now ceiling
    let (fired, polled) := waited.pollExpired (now.add w.slept)
    let (again, ready) := polled.waitTimeout (now.add w.slept) ceiling
    (w ≤ w.slept ↔ w ≤ .longest ∧ (w < .ofMillis 1 ∨ 1000000 ∣ w.nanos)) ∧
    ∀ h e, q.Nearest h e → e.deadline < now.add ceiling →
      (h ∈ fired.map (·.handle) ↔ w ≤ w.slept) ∧
      (¬ w ≤ w.slept → fired = [] ∧ (w ≤ .longest → again < .ofMillis 1 ∧
        h ∈ (ready.pollExpired ((now.add w.slept).add again.slept)).1.map (·.handle))) := by
  have hq := Queue.Backed.empty.run ops
  generalize (run Queue.perform (Queue.empty (α := α)) ops).2 = q at hq
  have hwaited : (q.waitTimeout now ceiling).2.Backed := hq.nextDeadline
  have hquiet := (hq.waits hwaited rfl now ceiling).quiet
  refine ⟨Duration.le_slept_iff _, fun h e hnear hbefore => ?_⟩
  refine ⟨hq.fires_iff hnear hbefore _, fun hshort => ?_⟩
  have hnil := hquiet _ (Nat.lt_of_not_le hshort)
  have hnear' := hnear.of_entries (hwaited.entries_pollExpired_of_nil hnil)
  refine ⟨hnil, fun hlongest => ?_⟩
  exact (hwaited.pollExpired _).fires_at_second hnear' hbefore
    (hq.waitTimeout_of_nearest hnear hbefore).symm hlongest hshort

/-- A timer that is due in a millisecond and a half is woken for after one. -/
theorem wakes_before_deadline : ¬ ∀ (ops : List (Operation Unit)) (now : Instant) (ceiling : Duration),
    let (w, waited) := (run Queue.perform Queue.empty ops).2.waitTimeout now ceiling
    w ≤ .longest → w ≤ w.slept ∧
      (w < ceiling → (waited.pollExpired (now.add w.slept)).1 ≠ []) := by
  intro hwakes
  have hlate := hwakes [.insert 0 ⟨⟨1500000⟩, .oneShot, false, ()⟩] ⟨0⟩ (.ofSecs 300) (by decide)
  exact absurd hlate.1 (by decide)

end Timer

end NetReactor
