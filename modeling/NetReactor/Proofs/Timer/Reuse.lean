import NetReactor.Proofs.Timer.Table

/-!
# Handles used again

Nothing keeps a caller from putting a timer in under a handle that is, or was, in use. **Every timer still
has its key** after any calls (`Backed.run`), so all those due fire; but keys from before may be left over,
and with an interval of zero they make a poll fire a timer more than once. How often is said exactly, in
terms of the keys, and a handle that was used once is not concerned (`Lone.run`).
-/

namespace NetReactor.Timer

variable {α : Type}

namespace Queue

namespace Backed

variable {q : Queue α}

theorem perform (hq : Backed q) (op : Operation α) : Backed (q.perform op).2 := by
  cases op with
  | insert h e => exact hq.insert h e
  | cancel clock h => exact hq.cancel clock h
  | remove h => exact hq.remove h
  | poll now => exact hq.pollExpired now
  | nextDeadline => exact hq.nextDeadline
  | contains h => exact hq
  | size => exact hq
  | clear => exact clear q

theorem run (hq : Backed q) (ops : List (Operation α)) : Backed (run Queue.perform q ops).2 := by
  induction ops generalizing q with
  | nil => exact hq
  | cons op rest ih => exact ih (hq.perform op)

end Backed

namespace Lone

variable {h : Handle} {used : Prop} {q : Queue α}

theorem perform (hq : Lone h used q) (op : Operation α) (hfresh : op.inserted? = some h → ¬ used) :
    Lone h (used ∨ op.inserted? = some h) (q.perform op).2 := by
  cases op with
  | insert g e =>
    refine (hq.insert (fun hg => hfresh (congrArg some hg)) e).mono ?_
    exact .imp_right fun hg => congrArg some hg
  | cancel clock g => exact (hq.cancel clock g).mono .inl
  | remove g => exact (hq.remove g).mono .inl
  | poll now => exact (hq.poll now).mono .inl
  | nextDeadline => exact hq.nextDeadline.mono .inl
  | contains g => exact hq.mono .inl
  | size => exact hq.mono .inl
  | clear => exact clear q

theorem run (hq : Lone h used q) {ops : List (Operation α)}
    (hcount : (ops.filterMap Operation.inserted?).count h ≤ 1)
    (hfresh : used → (ops.filterMap Operation.inserted?).count h = 0) :
    ∃ used', Lone h used' (run Queue.perform q ops).2 := by
  induction ops generalizing q used with
  | nil => exact ⟨used, hq⟩
  | cons op rest ih =>
    by_cases hop : op.inserted? = some h
    · rw [List.filterMap_cons_some hop, List.count_cons_self] at hcount hfresh
      have hnext := hq.perform op fun _ hused => absurd (hfresh hused) (Nat.succ_ne_zero _)
      exact ih hnext (by omega) fun _ => by omega
    · have hsame : ((op :: rest).filterMap Operation.inserted?).count h =
          (rest.filterMap Operation.inserted?).count h := by
        cases hins : op.inserted? with
        | none => rw [List.filterMap_cons_none hins]
        | some g =>
          have hg : g ≠ h := fun heq => hop (heq ▸ hins)
          rw [List.filterMap_cons_some hins, List.count_cons_of_ne hg]
      rw [hsame] at hcount hfresh
      exact ih (hq.perform op fun hins => absurd hins hop) hcount
        fun hused => hfresh (hused.resolve_right hop)

end Lone

end Queue

/-- **After any calls, with handles used in any way, a poll fires each timer that is due once, and once
more for each key that an interval of zero makes its own.** So it fires none twice just if there is no
such key, and there is none for a handle that was used once. -/
theorem fired_once_iff_no_echo (ops : List (Operation α)) (now : Instant) :
    let q := (run Queue.perform Queue.empty ops).2
    (∀ h, ((q.pollExpired now).1.map (·.handle)).count h =
      (q.get? h).elim 0 fun e => if e.isExpired now then q.echoes now h e + 1 else 0) ∧
    (((q.pollExpired now).1.map (·.handle)).Nodup ↔
      ∀ h e, q.get? h = some e → e.isExpired now → q.echoes now h e = 0) ∧
    ∀ h e, (ops.filterMap Operation.inserted?).count h ≤ 1 → q.get? h = some e →
      q.echoes now h e = 0 := by
  have hq := Queue.Backed.empty.run ops
  refine ⟨hq.count_pollExpired now, hq.nodup_pollExpired_iff now, fun h e hcount he => ?_⟩
  obtain ⟨_, hlone⟩ := (Queue.Lone.empty h).run hcount False.elim
  exact hlone.echoes_eq_zero he now

/-- A timer that is put in twice under its handle, with an interval of zero, fires twice in one poll. -/
theorem twice_of_reinserted : ¬ ∀ (ops : List (Operation String)) (now : Instant),
    (((run Queue.perform Queue.empty ops).2.pollExpired now).1.map (·.handle)).Nodup := by
  intro honce
  have htwice := honce [.insert 0 ⟨⟨5⟩, .repeating .zero, false, "a"⟩,
    .insert 0 ⟨⟨5⟩, .repeating .zero, false, "a"⟩] ⟨5⟩
  exact absurd htwice (by decide)

end NetReactor.Timer
