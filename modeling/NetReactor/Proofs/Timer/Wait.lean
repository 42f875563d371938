import NetReactor.Proofs.Timer.Reuse

/-!
# How long to wait

**A wait ends when the nearest timer is due, or at its ceiling, whichever comes first**: a poll behind it
fires something unless the ceiling cut it short, and a poll any earlier fires nothing. Keys that do not
count have no say in it, whether they stand before the nearest timer's own or behind it, and neither does
the way in which handles are used.
-/

namespace NetReactor

theorem Duration.min_le_right (a b : Duration) : a.min b ≤ b := by
  unfold Duration.min
  split
  · assumption
  · exact Nat.le_refl _

/-- The shorter of two lengths of time is the one that lies below the other. -/
theorem Duration.min_eq_left_of_lt {a b : Duration} (h : a.min b < b) : a.min b = a := by
  unfold Duration.min at h ⊢
  split
  · rfl
  · rename_i hle
    rw [if_neg hle] at h
    exact absurd h (Nat.lt_irrefl _)

namespace Timer

variable {α : Type}

/-- A wait of `w` from `now`, at most `ceiling`, brings the clock to the nearest timer of `q` and no
further. -/
structure Queue.Waits (q : Queue α) (now : Instant) (ceiling w : Duration) : Prop where
  le_ceiling : w ≤ ceiling
  /-- No timer is slept past: one that is due before the wait ends was due when it began. -/
  reaches : ∀ h e, q.get? h = some e → now.add w ≤ e.deadline ∨ e.deadline < now ∧ w = .zero
  /-- What ended the wait before the ceiling fires. -/
  fires : w < ceiling → (q.pollExpired (now.add w)).1 ≠ []
  /-- Waking up any earlier would be in vain. -/
  quiet : ∀ v < w, (q.pollExpired (now.add v)).1 = []
  of_empty : q.size = 0 → w = ceiling

namespace Queue.Backed

variable {q : Queue α}

/-- Without timers there is nothing but the ceiling to wait for. -/
theorem waits_ceiling (hq : Backed q) (hnone : ∀ h, q.get? h = none) (now : Instant) (ceiling : Duration) :
    q.Waits now ceiling ceiling where
  le_ceiling := Nat.le_refl _
  reaches h e he := by simp [hnone h] at he
  fires hlt := absurd hlt (Nat.lt_irrefl _)
  quiet v _ := (hq.pollExpired_eq_nil_iff _).2 fun h e he => by simp [hnone h] at he
  of_empty _ := rfl

/-- With timers the wait is for the nearest of them. -/
theorem waits_nearest (hq : Backed q) {h : Handle} {e : Entry α} (he : q.get? h = some e)
    (hleast : ∀ g f, q.get? g = some f → e.deadline ≤ f.deadline) (now : Instant) (ceiling : Duration) :
    q.Waits now ceiling ((e.deadline.since now).min ceiling) where
  le_ceiling := Duration.min_le_right _ _
  reaches g f hf := by
    have hle : e.deadline.nanos ≤ f.deadline.nanos := hleast g f hf
    have hwait : ((e.deadline.since now).min ceiling).nanos ≤ (e.deadline.nanos - now.nanos).toNat :=
      Duration.min_le_left _ _
    by_cases hpast : f.deadline.nanos < now.nanos
    · right
      exact ⟨hpast, congrArg Duration.mk (by omega : ((e.deadline.since now).min ceiling).nanos = 0)⟩
    · left
      show now.nanos + ((e.deadline.since now).min ceiling).nanos ≤ f.deadline.nanos
      omega
  fires hlt hnil := by
    have hlate := (hq.pollExpired_eq_nil_iff _).1 hnil h e he
    rw [Duration.min_eq_left_of_lt hlt] at hlate
    have hnanos : now.nanos + ((e.deadline.nanos - now.nanos).toNat : Int) < e.deadline.nanos := hlate
    omega
  quiet v hv := by
    refine (hq.pollExpired_eq_nil_iff _).2 fun g f hf => ?_
    have hle : e.deadline.nanos ≤ f.deadline.nanos := hleast g f hf
    have hlt : v.nanos < (e.deadline.nanos - now.nanos).toNat :=
      Nat.lt_of_lt_of_le hv (Duration.min_le_left (e.deadline.since now) ceiling)
    show now.nanos + (v.nanos : Int) < f.deadline.nanos
    omega
  of_empty hsize := by
    have hnil := List.length_eq_zero_iff.1 hsize
    simp [get?, lookup, hnil] at he

/-- **A wait lasts until the nearest timer is due, or until its ceiling**, for a queue with these timers,
whichever keys it holds beside their own. -/
theorem waits (hq : Backed q) {q' : Queue α} (hq' : Backed q') (hentries : q'.entries = q.entries)
    (now : Instant) (ceiling : Duration) : q'.Waits now ceiling (q.waitTimeout now ceiling).1 := by
  have hsame : ∀ h, q'.get? h = q.get? h := fun h => congrArg (lookup h) hentries
  rcases hq.nextDeadline_cases with ⟨hnext, hnone⟩ | ⟨h, e, he, hnext, hleast⟩
  · have hw : (q.waitTimeout now ceiling).1 = ceiling := by simp [waitTimeout, hnext]
    rw [hw]
    exact hq'.waits_ceiling (fun h => (hsame h).trans (hnone h)) now ceiling
  · have hw : (q.waitTimeout now ceiling).1 = (e.deadline.since now).min ceiling := by
      simp [waitTimeout, hnext]
    rw [hw]
    refine hq'.waits_nearest ((hsame h).trans he) (fun g f hf => ?_) now ceiling
    exact hleast g f ((hsame g).symm.trans hf)

end Queue.Backed

/-- **After any calls a wait is as long as the nearest timer asks for**, and asking for it changes
nothing about what fires. -/
theorem waits_after_run (ops : List (Operation α)) (now : Instant) (ceiling : Duration) :
    let q := (run Queue.perform Queue.empty ops).2
    let (w, waited) := q.waitTimeout now ceiling
    q.Waits now ceiling w ∧ waited.Waits now ceiling w := by
  have hq := Queue.Backed.empty.run ops
  exact ⟨hq.waits hq rfl now ceiling, hq.waits hq.nextDeadline rfl now ceiling⟩

/-- The key of a timer that was taken out stands first, and nothing waits for it. -/
example : ((run Queue.perform Queue.empty [.insert 0 ⟨⟨3⟩, .oneShot, false, ()⟩,
    .insert 1 ⟨⟨9⟩, .oneShot, false, ()⟩, .remove 0]).2.waitTimeout ⟨5⟩ ⟨100⟩).1 = ⟨4⟩ := by
  decide

end Timer

end NetReactor
