import NetReactor.Proofs.Timer.Table

/-!
# What the calls leave behind

Keys are never searched for, so they pile up beside the timers: a cancel pushes a second one, and a timer
that is taken out leaves its own. **No other call leaves any** (`Tended`): a timer has one key, or two at most
once it was cancelled, and beside as many keys as there are timers a queue holds one at most for each timer
that was ever cancelled or taken out. What fires takes its key along, and what is put back trades one key
for another. With the last timer the last key goes. The totals are the numbers of timers put in, fired
and cancelled (`Totals`).

All of it is about handles that are used once; two timers under one handle share their keys.
-/

namespace NetReactor.Timer

variable {α : Type}

/-! ## Calls and their answers -/

/-- A call, and what it answered. -/
abbrev Exchange (α : Type) := Operation α × Outcome α

namespace Exchange

/-- A timer was put in. -/
def inserts (x : Exchange α) : Bool := x.1.inserted?.isSome

/-- A timer was cancelled: it was there, and not cancelled before. -/
def cancels : Exchange α → Bool
  | (.cancel _ _, .flag found) => found
  | _ => false

/-- A timer was taken out. -/
def removes : Exchange α → Bool
  | (.remove _, .payload p?) => p?.isSome
  | _ => false

/-- The timers that fired. -/
def firings : Exchange α → List (Expired α)
  | (.poll _, .fired xs) => xs
  | _ => []

end Exchange

namespace Queue

/-- The call on a queue, with its answer. -/
def exchange (q : Queue α) (op : Operation α) : Exchange α := (op, (q.perform op).1)

/-! ## The number of timers -/

theorem erase_of_lookup_eq_none {entries : List (Handle × Entry α)} {h : Handle}
    (hnone : lookup h entries = none) : erase h entries = entries := by
  refine List.filter_eq_self.2 fun x hx => ?_
  have hne : (h == x.1) = false := by simpa using List.lookup_eq_none_iff.1 hnone x hx
  rw [decide_eq_true_eq]
  exact Ne.symm (beq_eq_false_iff_ne.1 hne)

/-- A handle has one entry, so one goes. -/
theorem Distinct.length_erase {entries : List (Handle × Entry α)} (hd : Distinct entries) {h : Handle}
    {e : Entry α} (he : lookup h entries = some e) :
    (Queue.erase h entries).length + 1 = entries.length := by
  induction entries with
  | nil => simp [lookup] at he
  | cons x rest ih =>
    obtain ⟨g, f⟩ := x
    obtain ⟨hg, hrest⟩ := List.nodup_cons.1 hd
    by_cases hh : g = h
    · subst hh
      have hnone : lookup g rest = none := lookup_eq_none_of_not_mem hg
      have hsame : Queue.erase g ((g, f) :: rest) = Queue.erase g rest := by simp [Queue.erase]
      rw [hsame, erase_of_lookup_eq_none hnone, List.length_cons]
    · have hkept : Queue.erase h ((g, f) :: rest) = (g, f) :: Queue.erase h rest := by
        simp [Queue.erase, hh]
      have hlookup : lookup h rest = some e := by
        simpa [lookup, List.lookup_cons, beq_false_of_ne (Ne.symm hh)] using he
      rw [hkept, List.length_cons, List.length_cons, ih hrest hlookup]

theorem length_put_of_none {entries : List (Handle × Entry α)} {h : Handle}
    (hnone : lookup h entries = none) (e : Entry α) : (put h e entries).length = entries.length + 1 := by
  rw [put, erase_of_lookup_eq_none hnone, List.length_cons]

theorem Distinct.length_put {entries : List (Handle × Entry α)} (hd : Distinct entries) {h : Handle}
    {e : Entry α} (he : lookup h entries = some e) (e' : Entry α) :
    (Queue.put h e' entries).length = entries.length := by
  rw [Queue.put, List.length_cons, hd.length_erase he]

/-! ## The number of keys -/

theorem length_keys_insert (k : Key) (keys : List Key) : (Key.insert k keys).length = keys.length + 1 :=
  (Key.perm_insert k keys).length_eq

theorem keys_tidy_of_empty {q : Queue α} (hempty : (tidy q).entries = []) : (tidy q).keys = [] := by
  rw [entries_tidy] at hempty
  simp [tidy, hempty]

/-- A key that counts goes with its timer or makes way for a new one; one that does not just goes. -/
theorem length_take_le (now : Instant) {p : Poll α} (hd : Distinct p.entries) (k : Key) :
    (p.take now k).rearmed.length + p.entries.length ≤
      p.rearmed.length + 1 + (p.take now k).entries.length := by
  cases hstale : isStale p.entries k with
  | true =>
    rw [take_of_stale hstale]
    omega
  | false =>
    obtain ⟨e, he, hdeadline⟩ := isStale_eq_false_iff.1 hstale
    rw [take_of_live he hdeadline]
    cases hre : e.rearmed? now with
    | none =>
      have hlength := hd.length_erase he
      simp only [rearmedKey?, he, Option.bind_some, hre, Option.map_none, Option.toList_none,
        List.nil_append]
      omega
    | some e' =>
      have hlength := hd.length_put he e'
      simp only [rearmedKey?, he, Option.bind_some, hre, Option.map_some, Option.toList_some,
        List.cons_append, List.nil_append, List.length_cons, hlength]
      omega

theorem length_foldl_take_le (now : Instant) (keys : List Key) {p : Poll α} (hd : Distinct p.entries) :
    (keys.foldl (Poll.take now) p).rearmed.length + p.entries.length ≤
      p.rearmed.length + keys.length + (keys.foldl (Poll.take now) p).entries.length := by
  induction keys generalizing p with
  | nil => simp
  | cons k rest ih =>
    have hstep := length_take_le now hd k
    have hrest := ih (hd.take now k)
    rw [List.foldl_cons, List.length_cons]
    omega

/-- **A poll leaves no key behind that was not there beside the timers' own.** -/
theorem length_keys_pollExpired_le {q : Queue α} (hd : Distinct q.entries) (now : Instant) :
    (q.pollExpired now).2.keys.length + q.size ≤ q.keys.length + (q.pollExpired now).2.size := by
  have hscan := length_foldl_take_le now (q.keys.takeWhile (·.deadline ≤ now)) (p := ⟨q.entries, [], []⟩) hd
  have hsplit : (q.keys.takeWhile (·.deadline ≤ now)).length +
      (q.keys.dropWhile (·.deadline ≤ now)).length = q.keys.length := by
    rw [← List.length_append, List.takeWhile_append_dropWhile]
  have hkeys := (keys_pollExpired_subperm q now).length_le
  have hsize : (q.pollExpired now).2.size =
      ((q.keys.takeWhile (·.deadline ≤ now)).foldl (Poll.take now) ⟨q.entries, [], []⟩).entries.length :=
    congrArg List.length (entries_tidy _)
  rw [List.length_append] at hkeys
  simp only [List.length_nil, Nat.zero_add] at hscan
  rw [hsize, size]
  omega

/-! ## Keys beside the timers' own -/

/-- How many keys there are, after calls that used the handles `issued` and cancelled or took out `spent`
timers. -/
structure Tended (issued : Handle → Prop) (spent : Nat) (q : Queue α) : Prop where
  keyed : Keyed issued q
  countP_le : ∀ h, q.keys.countP (·.handle = h) ≤ 2
  length_le : q.keys.length ≤ q.size + spent
  /-- With the last timer the last key goes. -/
  bare : q.entries = [] → q.keys = []

namespace Tended

variable {issued : Handle → Prop} {spent : Nat} {q : Queue α}

theorem empty : Tended issued 0 (Queue.empty (α := α)) where
  keyed := .empty
  countP_le _ := Nat.zero_le _
  length_le := Nat.le_refl _
  bare _ := rfl

theorem insert (hq : Tended issued spent q) {h : Handle} (hfresh : ¬ issued h) (e : Entry α) :
    Tended (fun g => issued g ∨ g = h) spent (q.insert h e) where
  keyed := hq.keyed.insert hfresh e
  countP_le g := by
    rw [Queue.insert, Lone.countP_insert]
    by_cases hg : h = g
    · rw [if_pos hg, ← hg, (hq.keyed.lone h).unused hfresh]
      omega
    · rw [if_neg hg]
      exact hq.countP_le g
  length_le := by
    have hnone : lookup h q.entries = none := (hq.keyed.lone h).get?_of_unused hfresh
    have hle := hq.length_le
    simp only [Queue.insert, size, length_keys_insert, length_put_of_none hnone] at hle ⊢
    omega
  bare hempty := by simp [Queue.insert, put] at hempty

theorem cancel (hq : Tended issued spent q) (now : Instant) (h : Handle) :
    Tended issued (spent + (q.cancel now h).1.toNat) (q.cancel now h).2 := by
  have hkeyed := hq.keyed.cancel now h
  cases he : q.get? h with
  | none => simpa [Queue.cancel, he] using hq
  | some e =>
    cases hc : e.cancelled with
    | true => simpa [Queue.cancel, he, hc] using hq
    | false =>
      have hle := hq.length_le
      simp only [Queue.cancel, he, hc, Bool.false_eq_true, if_false, Bool.toNat_true] at hkeyed ⊢
      refine ⟨hkeyed, fun g => ?_, ?_, fun hempty => ?_⟩
      · rw [Lone.countP_insert]
        by_cases hg : h = g
        · -- the timer had its own key and no other
          have hone := hq.keyed.once h e he hc
          rw [if_pos hg, ← hg]
          omega
        · rw [if_neg hg]
          exact hq.countP_le g
      · simp only [size, length_keys_insert, hq.keyed.distinct.length_put he] at hle ⊢
        omega
      · simp [put] at hempty

theorem remove (hq : Tended issued spent q) (h : Handle) :
    Tended issued (spent + (q.remove h).1.isSome.toNat) (q.remove h).2 := by
  have hkeyed := hq.keyed.remove h
  cases he : q.get? h with
  | none => simpa [Queue.remove, he] using hq
  | some e =>
    have hle := hq.length_le
    have hgone := hq.keyed.distinct.length_erase he
    simp only [Queue.remove, he, Option.isSome_some, Bool.toNat_true] at hkeyed ⊢
    have hsub := keys_tidy_sublist { q with entries := erase h q.entries }
    refine ⟨hkeyed, fun g => hsub.countP_le.trans (hq.countP_le g), hsub.length_le.trans ?_,
      keys_tidy_of_empty⟩
    simp only [size, entries_tidy] at hle ⊢
    omega

theorem pollExpired (hq : Tended issued spent q) (now : Instant) :
    Tended issued spent (q.pollExpired now).2 where
  keyed := hq.keyed.pollExpired now
  countP_le h := ((hq.keyed.lone h).countP_pollExpired_le now).trans (hq.countP_le h)
  length_le := by
    have hpoll := length_keys_pollExpired_le hq.keyed.distinct now
    have hle := hq.length_le
    omega
  bare := keys_tidy_of_empty

theorem nextDeadline (hq : Tended issued spent q) : Tended issued spent q.nextDeadline.2 := by
  have hsub : q.nextDeadline.2.keys.Sublist q.keys := List.dropWhile_sublist _
  refine ⟨hq.keyed.nextDeadline, fun h => hsub.countP_le.trans (hq.countP_le h),
    hsub.length_le.trans hq.length_le, fun hempty => ?_⟩
  exact List.eq_nil_of_sublist_nil (hq.bare hempty ▸ hsub)

theorem clear (q : Queue α) : Tended issued spent q.clear where
  keyed := .clear q
  countP_le _ := Nat.zero_le _
  length_le := Nat.zero_le _
  bare _ := rfl

theorem mono {issued' : Handle → Prop} (hq : Tended issued spent q) (h : ∀ g, issued g → issued' g) :
    Tended issued' spent q :=
  { hq with keyed := hq.keyed.mono h }

theorem perform (hq : Tended issued spent q) {op : Operation α}
    (hfresh : ∀ h, op.inserted? = some h → ¬ issued h) :
    Tended (fun h => issued h ∨ op.inserted? = some h)
      (spent + ((q.exchange op).cancels.toNat + (q.exchange op).removes.toNat)) (q.perform op).2 := by
  cases op with
  | insert h e =>
    refine (hq.insert (hfresh h rfl) e).mono fun g => ?_
    exact .imp_right fun hg => by rw [hg]; rfl
  | cancel clock h => exact (hq.cancel clock h).mono fun _ => .inl
  | remove h =>
    have hkept := hq.remove h
    rw [← Nat.zero_add (q.remove h).1.isSome.toNat] at hkept
    exact hkept.mono fun _ => .inl
  | poll now => exact (hq.pollExpired now).mono fun _ => .inl
  | nextDeadline => exact hq.nextDeadline.mono fun _ => .inl
  | contains h => exact hq.mono fun _ => .inl
  | size => exact hq.mono fun _ => .inl
  | clear => exact clear q

end Tended

/-! ## Totals -/

/-- What a queue counted is what these calls came to. -/
structure Totals (calls : List (Exchange α)) (q : Queue α) : Prop where
  scheduled : q.scheduled = calls.countP Exchange.inserts
  fired : q.fired = (calls.flatMap Exchange.firings).length
  cancelled : q.cancelled = calls.countP Exchange.cancels

theorem totals_tidy (q : Queue α) : (tidy q).scheduled = q.scheduled ∧ (tidy q).fired = q.fired ∧
    (tidy q).cancelled = q.cancelled := by
  unfold tidy
  split <;> exact ⟨rfl, rfl, rfl⟩

theorem totals_cancel (q : Queue α) (now : Instant) (h : Handle) :
    (q.cancel now h).2.scheduled = q.scheduled ∧ (q.cancel now h).2.fired = q.fired ∧
      (q.cancel now h).2.cancelled = q.cancelled + (q.cancel now h).1.toNat := by
  unfold cancel
  split
  · exact ⟨rfl, rfl, rfl⟩
  · split <;> exact ⟨rfl, rfl, rfl⟩

theorem totals_remove (q : Queue α) (h : Handle) :
    (q.remove h).2.scheduled = q.scheduled ∧ (q.remove h).2.fired = q.fired ∧
      (q.remove h).2.cancelled = q.cancelled := by
  unfold remove
  split
  · exact ⟨rfl, rfl, rfl⟩
  · exact totals_tidy _

theorem totals_pollExpired (q : Queue α) (now : Instant) :
    (q.pollExpired now).2.scheduled = q.scheduled ∧
      (q.pollExpired now).2.fired = q.fired + (q.pollExpired now).1.length ∧
      (q.pollExpired now).2.cancelled = q.cancelled := by
  simp only [pollExpired, totals_tidy, List.length_reverse, and_self]

namespace Totals

variable {calls : List (Exchange α)} {q : Queue α}

theorem empty : Totals [] (Queue.empty (α := α)) := ⟨rfl, rfl, rfl⟩

theorem append (hq : Totals calls q) {q' : Queue α} {x : Exchange α}
    (hscheduled : q'.scheduled = q.scheduled + x.inserts.toNat)
    (hfired : q'.fired = q.fired + x.firings.length)
    (hcancelled : q'.cancelled = q.cancelled + x.cancels.toNat) : Totals (calls ++ [x]) q' where
  scheduled := by
    rw [hscheduled, hq.scheduled, List.countP_append, List.countP_singleton]
    cases x.inserts <;> rfl
  fired := by
    rw [hfired, hq.fired, List.flatMap_append, List.flatMap_singleton, List.length_append]
  cancelled := by
    rw [hcancelled, hq.cancelled, List.countP_append, List.countP_singleton]
    cases x.cancels <;> rfl

theorem perform (hq : Totals calls q) (op : Operation α) :
    Totals (calls ++ [q.exchange op]) (q.perform op).2 := by
  cases op with
  | insert h e => exact hq.append rfl rfl rfl
  | cancel clock h =>
    obtain ⟨hscheduled, hfired, hcancelled⟩ := q.totals_cancel clock h
    exact hq.append hscheduled hfired hcancelled
  | remove h =>
    obtain ⟨hscheduled, hfired, hcancelled⟩ := q.totals_remove h
    exact hq.append hscheduled hfired hcancelled
  | poll now =>
    obtain ⟨hscheduled, hfired, hcancelled⟩ := q.totals_pollExpired now
    exact hq.append hscheduled hfired hcancelled
  | nextDeadline => exact hq.append rfl rfl rfl
  | contains h => exact hq.append rfl rfl rfl
  | size => exact hq.append rfl rfl rfl
  | clear => exact hq.append rfl rfl rfl

end Totals

/-! ## Every sequence of calls -/

/-- What a queue holds and has counted, after these calls. -/
structure Accounted (calls : List (Exchange α)) (q : Queue α) : Prop extends Totals calls q where
  distinct : Distinct q.entries
  /-- A timer that was not cancelled has its own key and no other. -/
  alone : ∀ h e, q.get? h = some e → e.cancelled = false →
    q.keys.filter (·.handle = h) = [⟨e.deadline, h⟩]
  /-- One that was cancelled has its own, and two at most. -/
  paired : ∀ h e, q.get? h = some e → e.cancelled = true →
    ⟨e.deadline, h⟩ ∈ q.keys ∧ (q.keys.filter (·.handle = h)).length ≤ 2
  /-- Every key beside the timers' own stems from a timer that was cancelled or taken out. -/
  length_le : q.keys.length ≤ q.size + calls.countP Exchange.cancels + calls.countP Exchange.removes
  bare : q.size = 0 → q.keys = []

/-- The handles that were used in these calls. -/
def used (calls : List (Exchange α)) : List Handle := calls.filterMap (·.1.inserted?)

/-- How many timers were cancelled or taken out. -/
def spent (calls : List (Exchange α)) : Nat :=
  calls.countP Exchange.cancels + calls.countP Exchange.removes

theorem used_append_singleton (calls : List (Exchange α)) (x : Exchange α) :
    used (calls ++ [x]) = used calls ++ x.1.inserted?.toList := by
  rw [used, List.filterMap_append, used]
  cases hx : x.1.inserted? <;> simp [hx]

theorem spent_append_singleton (calls : List (Exchange α)) (x : Exchange α) :
    spent (calls ++ [x]) = spent calls + (x.cancels.toNat + x.removes.toNat) := by
  simp only [spent, List.countP_append, List.countP_singleton, Bool.toNat, Bool.cond_eq_ite]
  omega

/-- These calls used the handles of `q`, and its totals and the keys beside the timers' own are theirs. -/
structure Kept (calls : List (Exchange α)) (q : Queue α) : Prop where
  tended : Tended (· ∈ used calls) (spent calls) q
  totals : Totals calls q

namespace Kept

variable {calls : List (Exchange α)} {q : Queue α}

theorem empty : Kept [] (Queue.empty (α := α)) where
  tended := .empty
  totals := .empty

theorem accounted (hq : Kept calls q) : Accounted calls q where
  toTotals := hq.totals
  distinct := hq.tended.keyed.distinct
  alone h e he hc := by
    have hown : ⟨e.deadline, h⟩ ∈ q.keys.filter (·.handle = h) :=
      List.mem_filter.2 ⟨hq.tended.keyed.live he, by simp⟩
    have hle : (q.keys.filter (·.handle = h)).length ≤ 1 :=
      List.countP_eq_length_filter ▸ hq.tended.keyed.once h e he hc
    obtain ⟨k, hk⟩ := List.length_eq_one_iff.1 (hle.antisymm (List.length_pos_of_mem hown))
    rw [hk, List.mem_singleton] at hown
    rw [hk, hown]
  paired h e he _ := by
    refine ⟨hq.tended.keyed.live he, ?_⟩
    rw [← List.countP_eq_length_filter]
    exact hq.tended.countP_le h
  length_le := by
    rw [Nat.add_assoc]
    exact hq.tended.length_le
  bare hsize := hq.tended.bare (List.length_eq_zero_iff.1 hsize)

theorem perform (hq : Kept calls q) {op : Operation α}
    (hfresh : ∀ h, op.inserted? = some h → h ∉ used calls) :
    Kept (calls ++ [q.exchange op]) (q.perform op).2 where
  tended := by
    rw [spent_append_singleton]
    refine (hq.tended.perform hfresh).mono fun h hh => ?_
    rw [used_append_singleton, List.mem_append, Option.mem_toList]
    exact hh
  totals := hq.totals.perform op

theorem run (hq : Kept calls q) {ops : List (Operation α)}
    (hnodup : (used calls ++ ops.filterMap Operation.inserted?).Nodup) :
    Kept (calls ++ ops.zip (run Queue.perform q ops).1) (run Queue.perform q ops).2 := by
  induction ops generalizing q calls with
  | nil => simpa [Timer.run] using hq
  | cons op rest ih =>
    have hsplit : (op :: rest).filterMap Operation.inserted? =
        op.inserted?.toList ++ rest.filterMap Operation.inserted? := by
      cases hop : op.inserted? <;> simp [hop]
    rw [hsplit] at hnodup
    have hfresh : ∀ h, op.inserted? = some h → h ∉ used calls := by
      intro h hop hused
      refine List.disjoint_of_nodup_append hnodup hused (List.mem_append_left _ ?_)
      exact Option.mem_toList.2 hop
    rw [← List.append_assoc] at hnodup
    have hrest := ih (hq.perform hfresh) (used_append_singleton calls (q.exchange op) ▸ hnodup)
    rw [List.append_assoc] at hrest
    exact hrest

end Kept

end Queue

/-- **Every key is accounted for by the calls, and every total is theirs.** -/
theorem accounted_of_run (ops : List (Operation α))
    (hdistinct : (ops.filterMap Operation.inserted?).Nodup) :
    let (outcomes, q) := run Queue.perform Queue.empty ops
    Queue.Accounted (ops.zip outcomes) q :=
  (Queue.Kept.empty.run hdistinct).accounted

/-- The bound is met: beside the two timers' own keys there is one of 1, which was cancelled, and one of 2,
which was taken out. -/
theorem accounted_with_keys_left :
    let ops : List (Operation String) :=
      [.insert 0 ⟨⟨5⟩, .repeating ⟨0⟩, false, "beat"⟩, .insert 1 ⟨⟨9⟩, .oneShot, false, "late"⟩,
        .insert 2 ⟨⟨7⟩, .oneShot, false, "gone"⟩, .poll ⟨6⟩, .cancel ⟨8⟩ 1, .cancel ⟨8⟩ 1, .remove 2,
        .remove 2]
    let (outcomes, q) := run Queue.perform Queue.empty ops
    (ops.filterMap Operation.inserted?).Nodup ∧ Queue.Accounted (ops.zip outcomes) q ∧
      q.keys = [⟨⟨6⟩, 0⟩, ⟨⟨7⟩, 2⟩, ⟨⟨8⟩, 1⟩, ⟨⟨9⟩, 1⟩] ∧ q.size = 2 ∧
      (q.scheduled, q.fired, q.cancelled) = (3, 1, 1) :=
  ⟨by decide, accounted_of_run _ (by decide), by decide, by decide, by decide⟩

end NetReactor.Timer
