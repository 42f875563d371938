import Mathlib.Data.List.Sort
import NetReactor.Proofs.Timer.Keyed

/-!
# The queue against a plain table

The table holds timers by handle and nothing else: a poll looks at every entry and sorts those due, the
next deadline is the least of all. **The queue answers every sequence of calls as the table does**
(`run_eq_table`), as long as no handle is used for two timers. The clock may go either way from one call
to the next.
-/

namespace NetReactor.Timer

variable {α : Type}

/-- Timers by handle. -/
abbrev Table (α : Type) := List (Handle × Entry α)

namespace Table

def get? (t : Table α) (h : Handle) : Option (Entry α) := t.lookup h

def contains (t : Table α) (h : Handle) : Bool := t.any (·.1 = h)

def size (t : Table α) : Nat := t.length

def insert (t : Table α) (h : Handle) (e : Entry α) : Table α := (h, e) :: t.filter (·.1 ≠ h)

/-- A timer present and not cancelled before becomes due at once. -/
def cancel (t : Table α) (now : Instant) (h : Handle) : Bool × Table α :=
  (t.any fun x => x.1 = h && !x.2.cancelled,
    t.map fun x =>
      (x.1, if x.1 = h && !x.2.cancelled then { x.2 with cancelled := true, deadline := now } else x.2))

def remove (t : Table α) (h : Handle) : Option α × Table α :=
  ((t.get? h).map (·.payload), t.filter (·.1 ≠ h))

/-- Where a timer stands in line: by deadline, then by handle. -/
def place (x : Handle × Entry α) : ℤ ×ₗ ℕ := toLex (x.2.deadline.nanos, x.1)

/-- The timers due, in line. -/
def due (t : Table α) (now : Instant) : List (Handle × Entry α) :=
  (t.filter (·.2.isExpired now)).insertionSort fun x y => place x ≤ place y

/-- What a poll leaves of a timer. -/
def afterPoll (now : Instant) (e : Entry α) : Option (Entry α) :=
  if e.isExpired now then
    match e.cancelled, e.kind with
    | false, .repeating interval => some { e with deadline := now.add interval }
    | _, _ => none
  else some e

def poll (t : Table α) (now : Instant) : List (Expired α) × Table α :=
  ((t.due now).map fun x => ⟨x.1, x.2.payload, x.2.cancelled⟩,
    t.filterMap fun x => (afterPoll now x.2).map (x.1, ·))

def earliest (t : Table α) : Option Instant := (t.map (·.2.deadline.nanos)).min?.map .mk

end Table

/-- A call on the timers. -/
inductive Operation (α : Type)
  | insert (h : Handle) (e : Entry α)
  | cancel (clock : Instant) (h : Handle)
  | remove (h : Handle)
  | poll (now : Instant)
  | nextDeadline
  | contains (h : Handle)
  | size
  | clear

/-- What a call answers. -/
inductive Outcome (α : Type)
  | done
  | inserted (h : Handle)
  | flag (b : Bool)
  | payload (p? : Option α)
  | fired (xs : List (Expired α))
  | deadline (t? : Option Instant)
  | count (n : Nat)
deriving DecidableEq

def Operation.inserted? : Operation α → Option Handle
  | insert h _ => some h
  | _ => none

def Queue.perform (q : Queue α) : Operation α → Outcome α × Queue α
  | .insert h e => (.inserted h, q.insert h e)
  | .cancel clock h => ((.flag (q.cancel clock h).1), (q.cancel clock h).2)
  | .remove h => (.payload (q.remove h).1, (q.remove h).2)
  | .poll now => (.fired (q.pollExpired now).1, (q.pollExpired now).2)
  | .nextDeadline => (.deadline q.nextDeadline.1, q.nextDeadline.2)
  | .contains h => (.flag (q.contains h), q)
  | .size => (.count q.size, q)
  | .clear => (.done, q.clear)

def Table.perform (t : Table α) : Operation α → Outcome α × Table α
  | .insert h e => (.inserted h, t.insert h e)
  | .cancel clock h => (.flag (t.cancel clock h).1, (t.cancel clock h).2)
  | .remove h => (.payload (t.remove h).1, (t.remove h).2)
  | .poll now => (.fired (t.poll now).1, (t.poll now).2)
  | .nextDeadline => (.deadline t.earliest, t)
  | .contains h => (.flag (t.contains h), t)
  | .size => (.count t.size, t)
  | .clear => (.done, [])

/-- What a sequence of calls answers, and what it leaves. -/
def run {σ : Type} (perform : σ → Operation α → Outcome α × σ) (s : σ) :
    List (Operation α) → List (Outcome α) × σ
  | [] => ([], s)
  | op :: rest =>
    let (outcome, s) := perform s op
    let (outcomes, s) := run perform s rest
    (outcome :: outcomes, s)

/-! ## The queue's timers are the table's -/

/-- The queue and the table hold the same timers. -/
structure Agrees (q : Queue α) (t : Table α) : Prop where
  distinct : Queue.Distinct t
  lookup : ∀ h, Queue.lookup h q.entries = t.lookup h

namespace Table

theorem lookup_map (f : Handle → Entry α → Entry α) (t : Table α) (h : Handle) :
    (t.map fun x => (x.1, f x.1 x.2)).lookup h = (t.lookup h).map (f h) := by
  induction t with
  | nil => rfl
  | cons x rest ih =>
    obtain ⟨g, e⟩ := x
    by_cases hg : h = g
    · simp [hg]
    · simp [List.lookup_cons, beq_false_of_ne hg, ih]

theorem lookup_filterMap (f : Entry α → Option (Entry α)) {t : Table α} (ht : Queue.Distinct t)
    (h : Handle) :
    (t.filterMap fun x => (f x.2).map (x.1, ·)).lookup h = (t.lookup h).bind f := by
  induction t with
  | nil => rfl
  | cons x rest ih =>
    obtain ⟨g, e⟩ := x
    obtain ⟨hnot, hrest⟩ := List.nodup_cons.1 ht
    by_cases hg : h = g
    · subst hg
      have hnone : rest.lookup h = none := Queue.lookup_eq_none_of_not_mem hnot
      cases hf : f e <;> simp [hf, ih hrest, hnone]
    · cases hf : f e <;> simp [hf, List.lookup_cons, beq_false_of_ne hg, ih hrest]

theorem afterPoll_eq (now : Instant) (e : Entry α) :
    afterPoll now e = if e.isExpired now then e.rearmed? now else some e := by
  obtain ⟨deadline, kind, cancelled, payload⟩ := e
  cases cancelled <;> cases kind <;> rfl

end Table

namespace Agrees

variable {q : Queue α} {t : Table α}

theorem mem_iff (ha : Agrees q t) {h : Handle} {e : Entry α} :
    (h, e) ∈ t ↔ Queue.lookup h q.entries = some e := by
  rw [ha.lookup, ha.distinct.mem_iff]
  rfl

theorem insert (ha : Agrees q t) (h : Handle) (e : Entry α) :
    Agrees (q.insert h e) (t.insert h e) where
  distinct := ha.distinct.put h e
  lookup g := by
    by_cases hg : g = h
    · subst hg
      exact (Queue.lookup_put_self ..).trans (Queue.lookup_put_self ..).symm
    · exact (Queue.lookup_put_of_ne hg ..).trans
        ((ha.lookup g).trans (Queue.lookup_put_of_ne hg ..).symm)

theorem any_eq (ha : Agrees q t) (h : Handle) (p : Entry α → Bool) :
    (t.any fun x => x.1 = h && p x.2) = (Queue.lookup h q.entries).any p := by
  rw [Bool.eq_iff_iff, List.any_eq_true, Option.any_eq_true]
  constructor
  · rintro ⟨⟨g, e⟩, hmem, hx⟩
    obtain ⟨rfl, hp⟩ : g = h ∧ p e = true := by simpa using hx
    exact ⟨e, ha.mem_iff.1 hmem, hp⟩
  · rintro ⟨e, he, hp⟩
    exact ⟨(h, e), ha.mem_iff.2 he, by simpa using hp⟩

theorem contains_eq (ha : Agrees q t) (h : Handle) : q.contains h = t.contains h := by
  have hany := ha.any_eq h fun _ => true
  simp only [Bool.and_true] at hany
  rw [Table.contains, hany, Queue.contains, Queue.get?]
  cases Queue.lookup h q.entries <;> rfl

theorem size_eq (ha : Agrees q t) (hq : Queue.Distinct q.entries) : q.size = t.size := by
  refine List.Perm.length_eq ((List.perm_ext_iff_of_nodup (.of_map _ hq) (.of_map _ ha.distinct)).2 ?_)
  rintro ⟨h, e⟩
  rw [hq.mem_iff, ha.mem_iff]

theorem fst_cancel (ha : Agrees q t) (now : Instant) (h : Handle) :
    (q.cancel now h).1 = (t.cancel now h).1 := by
  rw [Table.cancel, ha.any_eq h fun e => !e.cancelled, Queue.cancel, Queue.get?]
  cases Queue.lookup h q.entries with
  | none => rfl
  | some e => cases hc : e.cancelled <;> simp [hc]

theorem cancel (ha : Agrees q t) (now : Instant) (h : Handle) :
    Agrees (q.cancel now h).2 (t.cancel now h).2 where
  distinct := by
    have hfst : (t.cancel now h).2.map Prod.fst = t.map Prod.fst := by
      simp [Table.cancel, Function.comp_def]
    rw [Queue.Distinct, hfst]
    exact ha.distinct
  lookup g := by
    rw [Table.cancel, Table.lookup_map fun g e =>
      if g = h && !e.cancelled then { e with cancelled := true, deadline := now } else e]
    rw [← ha.lookup, Queue.cancel, Queue.get?]
    by_cases hg : g = h
    · subst hg
      cases he : Queue.lookup g q.entries with
      | none => simp [he]
      | some e => cases hc : e.cancelled <;> simp [he, hc]
    · cases he : Queue.lookup h q.entries with
      | none => simp [hg]
      | some e => cases hc : e.cancelled <;> simp [hc, hg, Queue.lookup_put_of_ne hg]

theorem fst_remove (ha : Agrees q t) (h : Handle) : (q.remove h).1 = (t.remove h).1 := by
  rw [Table.remove, Table.get?, ← ha.lookup, Queue.remove, Queue.get?]
  cases Queue.lookup h q.entries <;> rfl

theorem remove (ha : Agrees q t) (h : Handle) : Agrees (q.remove h).2 (t.remove h).2 where
  distinct := ha.distinct.erase h
  lookup g := by
    have herase : (t.remove h).2.lookup g = Queue.lookup g (Queue.erase h t) := rfl
    rw [herase, Queue.remove, Queue.get?]
    by_cases hg : g = h
    · subst hg
      cases he : Queue.lookup g q.entries <;> simp [he]
    · rw [Queue.lookup_erase_of_ne hg]
      cases he : Queue.lookup h q.entries with
      | none => exact ha.lookup g
      | some e =>
        have hg' : Queue.lookup g q.entries = Queue.lookup g t := ha.lookup g
        simpa [Queue.lookup_erase_of_ne hg] using hg'

theorem clear : Agrees q.clear ([] : Table α) := ⟨List.nodup_nil, fun _ => rfl⟩

/-! ### A poll -/

variable {issued : Handle → Prop}

/-- A scan meets the timers due in the order in which the table sorts them. -/
theorem dueKeys_eq (ha : Agrees q t) (hq : Queue.Keyed issued q) (now : Instant) :
    q.dueKeys now = (t.due now).map fun x => ⟨x.2.deadline, x.1⟩ := by
  have : Std.Total fun x y : Handle × Entry α => Table.place x ≤ Table.place y :=
    ⟨fun x y => le_total _ _⟩
  have : IsTrans (Handle × Entry α) fun x y => Table.place x ≤ Table.place y :=
    ⟨fun x y z => le_trans⟩
  have hdue : (t.due now).Perm (t.filter (·.2.isExpired now)) := List.perm_insertionSort _ _
  have hnodup : (((t.due now).map fun x => (⟨x.2.deadline, x.1⟩ : Key)).map (·.handle)).Nodup := by
    rw [List.map_map]
    exact (hdue.map _).nodup_iff.2 (ha.distinct.sublist (List.filter_sublist.map _))
  refine Key.Ordered.eq_of_mem_iff (hq.ordered.sublist ?_) ?_ (.of_map _ (Queue.nodup_hits _ _))
    (.of_map _ hnodup) fun k => ?_
  · exact (Queue.sublist_hits _ _).trans (List.takeWhile_sublist _)
  · exact List.pairwise_map.2 (List.pairwise_insertionSort _ _)
  · rw [hq.mem_dueKeys, List.mem_map]
    simp only [hdue.mem_iff, List.mem_filter]
    constructor
    · rintro ⟨e, he, hdeadline, hexpired⟩
      exact ⟨(k.handle, e), ⟨ha.mem_iff.2 he, hexpired⟩, by simp only [hdeadline]⟩
    · rintro ⟨⟨h, e⟩, ⟨hmem, hexpired⟩, rfl⟩
      exact ⟨e, ha.mem_iff.1 hmem, rfl, hexpired⟩

theorem fst_poll (ha : Agrees q t) (hq : Queue.Keyed issued q) (now : Instant) :
    (q.pollExpired now).1 = (t.poll now).1 := by
  rw [hq.fst_pollExpired, ha.dueKeys_eq hq, List.filterMap_map, Table.poll, ← List.filterMap_eq_map]
  refine List.filterMap_congr fun x hx => ?_
  have hmem : x ∈ t := (List.mem_filter.1 ((List.mem_insertionSort _).1 hx)).1
  simp [Queue.expired?, ha.mem_iff.1 hmem]

theorem poll (ha : Agrees q t) (hq : Queue.Keyed issued q) (now : Instant) :
    Agrees (q.pollExpired now).2 (t.poll now).2 where
  distinct := by
    refine ha.distinct.sublist ?_
    rw [Table.poll]
    clear ha
    induction t with
    | nil => exact .refl _
    | cons x rest ih =>
      cases hx : Table.afterPoll now x.2 with
      | none => simpa [hx] using ih.cons x.1
      | some e => simpa [hx] using ih
  lookup h := by
    rw [Table.poll, Table.lookup_filterMap _ ha.distinct, hq.lookup_pollExpired, ha.lookup]
    simp only [Table.afterPoll_eq]

/-- The key at the front, once the stale ones are dropped, has the least deadline of all. -/
theorem fst_nextDeadline (ha : Agrees q t) (hq : Queue.Keyed issued q) :
    q.nextDeadline.1 = t.earliest := by
  rcases hq.backed.nextDeadline_cases with ⟨hnext, hnone⟩ | ⟨h, e, he, hnext, hleast⟩
  · have hnil : t = [] := by
      refine List.eq_nil_iff_forall_not_mem.2 fun ⟨h, e⟩ hmem => ?_
      exact absurd ((hnone h).symm.trans (ha.mem_iff.1 hmem)) (by simp)
    simp [hnext, hnil, Table.earliest]
  · have hmin : (t.map (·.2.deadline.nanos)).min? = some e.deadline.nanos := by
      refine List.min?_eq_some_iff.2 ⟨List.mem_map.2 ⟨_, ha.mem_iff.2 he, rfl⟩, fun d hd => ?_⟩
      obtain ⟨⟨g, f⟩, hmem, rfl⟩ := List.mem_map.1 hd
      exact hleast g f (ha.mem_iff.1 hmem)
    rw [hnext, Table.earliest, hmin]
    rfl

/-! ## Every sequence of calls -/

theorem perform (ha : Agrees q t) (hq : Queue.Keyed issued q) {op : Operation α}
    (hfresh : ∀ h, op.inserted? = some h → ¬ issued h) :
    (q.perform op).1 = (t.perform op).1 ∧ Agrees (q.perform op).2 (t.perform op).2 ∧
      Queue.Keyed (fun h => issued h ∨ op.inserted? = some h) (q.perform op).2 := by
  have hkeep : ∀ {q' : Queue α}, Queue.Keyed issued q' →
      Queue.Keyed (fun h => issued h ∨ op.inserted? = some h) q' := fun hq' => hq'.mono fun _ => .inl
  cases op with
  | insert h e =>
    refine ⟨rfl, ha.insert h e, (hq.insert (hfresh h rfl) e).mono fun g => ?_⟩
    exact .imp_right fun hg => by rw [hg]; rfl
  | cancel clock h =>
    exact ⟨congrArg Outcome.flag (ha.fst_cancel clock h), ha.cancel clock h, hkeep (hq.cancel clock h)⟩
  | remove h =>
    exact ⟨congrArg Outcome.payload (ha.fst_remove h), ha.remove h, hkeep (hq.remove h)⟩
  | poll now =>
    exact ⟨congrArg Outcome.fired (ha.fst_poll hq now), ha.poll hq now, hkeep (hq.pollExpired now)⟩
  | nextDeadline =>
    exact ⟨congrArg Outcome.deadline (ha.fst_nextDeadline hq), ⟨ha.distinct, ha.lookup⟩,
      hkeep hq.nextDeadline⟩
  | contains h => exact ⟨congrArg Outcome.flag (ha.contains_eq h), ha, hkeep hq⟩
  | size => exact ⟨congrArg Outcome.count (ha.size_eq hq.distinct), ha, hkeep hq⟩
  | clear => exact ⟨rfl, clear, hkeep (.clear q)⟩

theorem run (ha : Agrees q t) (hq : Queue.Keyed issued q) {ops : List (Operation α)}
    (hnodup : (ops.filterMap Operation.inserted?).Nodup)
    (hfresh : ∀ h ∈ ops.filterMap Operation.inserted?, ¬ issued h) :
    (run Queue.perform q ops).1 = (run Table.perform t ops).1 ∧
      Agrees (run Queue.perform q ops).2 (run Table.perform t ops).2 := by
  induction ops generalizing q t issued with
  | nil => exact ⟨rfl, ha⟩
  | cons op rest ih =>
    have hop : ∀ h, op.inserted? = some h → h ∉ rest.filterMap Operation.inserted? := by
      intro h hop
      rw [List.filterMap_cons_some hop] at hnodup
      exact (List.nodup_cons.1 hnodup).1
    have hsub : (rest.filterMap Operation.inserted?).Sublist
        ((op :: rest).filterMap Operation.inserted?) :=
      (List.sublist_cons_self op rest).filterMap _
    have hissued : ∀ h, op.inserted? = some h → ¬ issued h := fun h hop =>
      hfresh h (List.mem_filterMap.2 ⟨op, List.mem_cons_self, hop⟩)
    obtain ⟨houtcome, hagrees, hkeyed⟩ := ha.perform hq hissued
    obtain ⟨houtcomes, hend⟩ := ih hagrees hkeyed (hnodup.sublist hsub) fun h hmem => by
      rintro (hissued | hinserted)
      · exact hfresh h (hsub.subset hmem) hissued
      · exact hop h hinserted hmem
    exact ⟨congrArg₂ List.cons houtcome houtcomes, hend⟩

end Agrees

/-- **The queue is the table.** Whatever is called on a new queue, and whatever the clock shows from call
to call, every answer is the table's, and so is every timer left in the end. -/
theorem run_eq_table (ops : List (Operation α))
    (hdistinct : (ops.filterMap Operation.inserted?).Nodup) :
    (run Queue.perform Queue.empty ops).1 = (run Table.perform [] ops).1 ∧
      ∀ h, (run Queue.perform Queue.empty ops).2.get? h = (run Table.perform [] ops).2.get? h := by
  have hnone : Queue.Keyed (fun _ => False) (Queue.empty (α := α)) := .empty
  have hagrees : Agrees (Queue.empty (α := α)) [] := ⟨List.nodup_nil, fun _ => rfl⟩
  obtain ⟨houtcomes, hend⟩ := hagrees.run hnone hdistinct fun _ _ => id
  exact ⟨houtcomes, hend.lookup⟩

/-- A timer with an interval of zero fires once a poll; a cancelled one leaves its first key behind; a poll
may look back in time. -/
theorem run_eq_table_of_zero_interval :
    (run Queue.perform Queue.empty
      [.insert 0 ⟨⟨5⟩, .repeating ⟨0⟩, false, "beat"⟩, .insert 1 ⟨⟨9⟩, .oneShot, false, "late"⟩,
        .cancel ⟨5⟩ 1, .cancel ⟨6⟩ 1, .poll ⟨7⟩, .poll ⟨6⟩, .nextDeadline, .poll ⟨9⟩, .contains 1, .size,
        .remove 0, .nextDeadline]).1 =
    [.inserted 0, .inserted 1, .flag true, .flag false,
      .fired [⟨0, "beat", false⟩, ⟨1, "late", true⟩], .fired [], .deadline (some ⟨7⟩),
      .fired [⟨0, "beat", false⟩], .flag false, .count 1, .payload (some "beat"), .deadline none] :=
  (run_eq_table _ (by decide)).1.trans (by decide)

end NetReactor.Timer
