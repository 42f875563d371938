import NetReactor.Proofs.Timer.Firings

/-!
# No live timer without its key

**Every timer has a key with its own deadline, and one that was not cancelled has no other** (`Keyed`):
a key left behind belongs to a timer that is gone or was cancelled, so nothing stale is ever taken for
live. All of it rests on handles being used once; then it says of each handle that it is `Lone`, which each
operation keeps (`of_lone`). From it follows what a scan does to the table of timers: all those due fire,
each once, and are put back or gone.
-/

namespace NetReactor

theorem Duration.min_le_left (a b : Duration) : a.min b ≤ a := by
  unfold Duration.min
  split
  · exact Nat.le_refl _
  · rename_i h
    exact Nat.le_of_lt (Nat.lt_of_not_le h)

namespace Timer

variable {α : Type}

namespace Queue

/-! ## One scan -/

/-- What the timer of a key delivers. -/
def expired? (entries : List (Handle × Entry α)) (k : Key) : Option (Expired α) :=
  (lookup k.handle entries).map fun e => ⟨k.handle, e.payload, e.cancelled⟩

/-- A timer that was not cancelled has one key among these at most. -/
def Once (entries : List (Handle × Entry α)) (keys : List Key) : Prop :=
  ∀ h e, lookup h entries = some e → e.cancelled = false → keys.countP (·.handle = h) ≤ 1

/-- A timer that is put back has no second key. -/
theorem Once.not_again {entries : List (Handle × Entry α)} {k : Key} {rest : List Key}
    (honce : Once entries (k :: rest)) {e e' : Entry α} (he : lookup k.handle entries = some e)
    {now : Instant} (he' : e.rearmed? now = some e') : ∀ x ∈ rest, x.handle ≠ k.handle := by
  intro x hx hhandle
  have hle := honce k.handle e he (Entry.not_cancelled_of_rearmed? he').1
  rw [List.countP_cons_of_pos (by simp)] at hle
  have hpos : 0 < rest.countP (·.handle = k.handle) :=
    List.countP_pos_iff.2 ⟨x, hx, by simpa using hhandle⟩
  omega

theorem Once.tail {entries : List (Handle × Entry α)} {k : Key} {rest : List Key}
    (honce : Once entries (k :: rest)) : Once entries rest := fun h e he hc =>
  ((List.sublist_cons_self k rest).countP_le).trans (honce h e he hc)

/-- After a key that counts, the rest of a scan passes its timer by. -/
theorem hits_take {p : Poll α} {k : Key} {rest : List Key} (honce : Once p.entries (k :: rest))
    (now : Instant) {e : Entry α} (he : lookup k.handle p.entries = some e)
    (hdeadline : e.deadline = k.deadline) :
    hits (p.take now k).entries rest = hits (erase k.handle p.entries) rest := by
  cases hre : e.rearmed? now with
  | none => simp only [take_of_live he hdeadline, hre]
  | some e' =>
    refine hits_congr fun x hx => ?_
    have hne := honce.not_again he hre x hx
    rw [lookup_take_of_ne hne, lookup_erase_of_ne hne]

theorem Once.take {p : Poll α} {k : Key} {rest : List Key} (honce : Once p.entries (k :: rest))
    (now : Instant) {e : Entry α} (he : lookup k.handle p.entries = some e)
    (hdeadline : e.deadline = k.deadline) : Once (p.take now k).entries rest := by
  intro h e' he' hc
  by_cases hne : h = k.handle
  · subst hne
    rw [lookup_take_self he hdeadline] at he'
    have hzero : rest.countP (·.handle = k.handle) = 0 :=
      List.countP_eq_zero.2 fun x hx => by simpa using honce.not_again he he' x hx
    omega
  · exact honce.tail h e' (lookup_take_of_ne hne ▸ he') hc

/-- A scan fires the keys that count, puts their timers back or takes them out, and changes no other. -/
theorem foldl_take (now : Instant) {keys : List Key} {p : Poll α} (honce : Once p.entries keys) :
    (keys.foldl (Poll.take now) p).fired =
        ((hits p.entries keys).filterMap (expired? p.entries)).reverse ++ p.fired ∧
      ∀ h, lookup h (keys.foldl (Poll.take now) p).entries =
        if h ∈ (hits p.entries keys).map (·.handle) then
          (lookup h p.entries).bind (·.rearmed? now)
        else lookup h p.entries := by
  induction keys generalizing p with
  | nil => simp [hits]
  | cons k rest ih =>
    rw [List.foldl_cons, hits]
    cases hstale : isStale p.entries k with
    | true => simpa [take_of_stale hstale] using ih honce.tail
    | false =>
      obtain ⟨e, he, hdeadline⟩ := isStale_eq_false_iff.1 hstale
      have hne : ∀ x ∈ hits (erase k.handle p.entries) rest, x.handle ≠ k.handle := by
        intro x hx
        obtain ⟨e', he', -⟩ := isStale_eq_false_iff.1 (mem_hits.1 hx).2
        exact (lookup_erase.1 he').1
      obtain ⟨hfired, hlookup⟩ := ih (honce.take now he hdeadline)
      rw [hits_take honce now he hdeadline] at hfired hlookup
      refine ⟨?_, fun h => ?_⟩
      · have hcongr : (hits (erase k.handle p.entries) rest).filterMap
            (expired? (p.take now k).entries) =
            (hits (erase k.handle p.entries) rest).filterMap (expired? p.entries) :=
          List.filterMap_congr fun x hx => by simp only [expired?, lookup_take_of_ne (hne x hx)]
        rw [hfired, hcongr, take_of_live he hdeadline]
        simp [expired?, he]
      · rw [hlookup]
        by_cases hk : h = k.handle
        · subst hk
          have hnot : k.handle ∉ (hits (erase k.handle p.entries) rest).map (·.handle) := by
            simpa using hne
          rw [if_neg hnot, if_pos (by simp), lookup_take_self he hdeadline, he]
          rfl
        · simp [hk, lookup_take_of_ne hk]

/-! ## One entry a handle -/

/-- No handle has two entries. -/
abbrev Distinct (entries : List (Handle × Entry α)) : Prop := (entries.map Prod.fst).Nodup

theorem Distinct.erase {entries : List (Handle × Entry α)} (hd : Distinct entries) (h : Handle) :
    Distinct (erase h entries) :=
  hd.sublist (List.filter_sublist.map _)

theorem Distinct.put {entries : List (Handle × Entry α)} (hd : Distinct entries) (h : Handle)
    (e : Entry α) : Distinct (put h e entries) := by
  refine List.nodup_cons.2 ⟨fun hmem => ?_, hd.erase h⟩
  obtain ⟨x, hx, rfl⟩ := List.mem_map.1 hmem
  simp [Queue.erase] at hx

theorem Distinct.take {p : Poll α} (hd : Distinct p.entries) (now : Instant) (k : Key) :
    Distinct (p.take now k).entries := by
  cases hstale : isStale p.entries k with
  | true => rwa [take_of_stale hstale]
  | false =>
    obtain ⟨e, he, hdeadline⟩ := isStale_eq_false_iff.1 hstale
    rw [take_of_live he hdeadline]
    cases e.rearmed? now with
    | none => exact hd.erase _
    | some e' => exact hd.put _ _

theorem Distinct.foldl_take {p : Poll α} (hd : Distinct p.entries) (now : Instant)
    (keys : List Key) : Distinct (keys.foldl (Poll.take now) p).entries := by
  induction keys generalizing p with
  | nil => exact hd
  | cons k rest ih => exact ih (hd.take now k)

theorem Distinct.mem_iff {entries : List (Handle × Entry α)} (hd : Distinct entries) {h : Handle}
    {e : Entry α} : (h, e) ∈ entries ↔ lookup h entries = some e := by
  induction entries with
  | nil => simp [lookup]
  | cons x rest ih =>
    obtain ⟨g, f⟩ := x
    obtain ⟨hg, hrest⟩ := List.nodup_cons.1 hd
    rw [List.mem_cons, ih hrest, lookup, lookup, List.lookup_cons]
    by_cases hh : h = g
    · subst hh
      have hnone : ¬ List.lookup h rest = some e := fun hsome =>
        hg (List.mem_map.2 ⟨(h, e), (ih hrest).2 hsome, rfl⟩)
      simp [hnone, eq_comm]
    · simp [hh, beq_false_of_ne hh]

/-! ## Every timer has its key -/

/-- What keeps stale keys from being taken for live ones: the handles in use were issued, every timer
has a key with its deadline, and one that was not cancelled has no second key. -/
structure Keyed (issued : Handle → Prop) (q : Queue α) : Prop where
  distinct : Distinct q.entries
  ordered : Key.Ordered q.keys
  live : ∀ {h e}, lookup h q.entries = some e → ⟨e.deadline, h⟩ ∈ q.keys
  once : Once q.entries q.keys
  issued : ∀ k ∈ q.keys, issued k.handle

namespace Keyed

variable {issued : Handle → Prop} {q : Queue α}

/-- It is all about one handle at a time. -/
theorem of_lone (hdistinct : Distinct q.entries) (hlone : ∀ h, Lone h (issued h) q) : Keyed issued q where
  distinct := hdistinct
  ordered := (hlone 0).backed.ordered
  live {h _} he := (hlone h).backed.live he
  once h := (hlone h).once
  issued k hk := by
    by_contra hnot
    simpa using List.countP_eq_zero.1 ((hlone k.handle).unused hnot) k hk

theorem empty : Keyed issued (Queue.empty (α := α)) := of_lone List.nodup_nil fun h => .empty h

theorem lone (hq : Keyed issued q) (h : Handle) : Lone h (issued h) q where
  backed := ⟨hq.ordered, hq.live⟩
  once := hq.once h
  unused hnot := by
    refine List.countP_eq_zero.2 fun k hk hhandle => hnot ?_
    exact of_decide_eq_true hhandle ▸ hq.issued k hk

theorem backed (hq : Keyed issued q) : Backed q := ⟨hq.ordered, hq.live⟩

theorem issued_of_lookup (hq : Keyed issued q) {h : Handle} {e : Entry α}
    (he : lookup h q.entries = some e) : issued h :=
  hq.issued _ (hq.live he)

theorem mono {issued' : Handle → Prop} (hq : Keyed issued q) (h : ∀ g, issued g → issued' g) :
    Keyed issued' q :=
  { hq with issued := fun k hk => h _ (hq.issued k hk) }

theorem clear (q : Queue α) : Keyed issued q.clear := of_lone List.nodup_nil fun _ => .clear q

theorem insert (hq : Keyed issued q) {h : Handle} (hfresh : ¬ issued h) (e : Entry α) :
    Keyed (fun g => issued g ∨ g = h) (q.insert h e) := by
  refine of_lone (hq.distinct.put h e) fun g => ?_
  exact ((hq.lone g).insert (fun hg => hg ▸ hfresh) e).mono (.imp_right Eq.symm)

theorem cancel (hq : Keyed issued q) (now : Instant) (h : Handle) :
    Keyed issued (q.cancel now h).2 := by
  refine of_lone ?_ fun g => (hq.lone g).cancel now h
  unfold Queue.cancel
  split
  · exact hq.distinct
  · split
    · exact hq.distinct
    · exact hq.distinct.put h _

theorem remove (hq : Keyed issued q) (h : Handle) : Keyed issued (q.remove h).2 := by
  refine of_lone ?_ fun g => (hq.lone g).remove h
  unfold Queue.remove
  split
  · exact hq.distinct
  · rw [entries_tidy]
    exact hq.distinct.erase h

theorem nextDeadline (hq : Keyed issued q) : Keyed issued q.nextDeadline.2 :=
  of_lone hq.distinct fun h => (hq.lone h).nextDeadline

theorem pollExpired (hq : Keyed issued q) (now : Instant) : Keyed issued (q.pollExpired now).2 := by
  refine of_lone ?_ fun h => (hq.lone h).poll now
  rw [Queue.pollExpired, entries_tidy]
  exact Distinct.foldl_take hq.distinct now _

/-- **No timer is due before the wait for it ends.** -/
theorem waitTimeout_le (hq : Keyed issued q) {h : Handle} {e : Entry α}
    (he : lookup h q.entries = some e) (now : Instant) (ceiling : Duration) :
    (q.waitTimeout now ceiling).1 ≤ e.deadline.since now := by
  rcases hq.backed.nextDeadline_cases with ⟨-, hnone⟩ | ⟨g, f, -, hnext, hleast⟩
  · simp [show lookup h q.entries = none from hnone h] at he
  · have hle : f.deadline.nanos ≤ e.deadline.nanos := hleast h e he
    have hsince : (f.deadline.since now).nanos ≤ (e.deadline.since now).nanos := by
      simp only [Instant.since]
      omega
    simp only [Queue.waitTimeout, hnext]
    exact Nat.le_trans (Duration.min_le_left _ ceiling) hsince

end Keyed

/-! ## A poll -/

/-- The keys of the timers that a poll at `now` fires. -/
def dueKeys (q : Queue α) (now : Instant) : List Key :=
  hits q.entries (q.keys.takeWhile (·.deadline ≤ now))

namespace Keyed

variable {issued : Handle → Prop} {q : Queue α}

theorem once_due (hq : Keyed issued q) (now : Instant) :
    Once q.entries (q.keys.takeWhile (·.deadline ≤ now)) := fun h e he hc =>
  (List.Sublist.countP_le (List.takeWhile_sublist _)).trans (hq.once h e he hc)

theorem mem_dueKeys (hq : Keyed issued q) {now : Instant} {k : Key} :
    k ∈ q.dueKeys now ↔
      ∃ e, lookup k.handle q.entries = some e ∧ e.deadline = k.deadline ∧ e.isExpired now = true := by
  rw [dueKeys, mem_hits, hq.ordered.takeWhile_due, List.mem_filter, isStale_eq_false_iff]
  constructor
  · rintro ⟨⟨-, hdue⟩, e, he, hdeadline⟩
    exact ⟨e, he, hdeadline, by rw [Entry.isExpired, hdeadline]; exact hdue⟩
  · rintro ⟨e, he, hdeadline, hexpired⟩
    refine ⟨⟨?_, ?_⟩, e, he, hdeadline⟩
    · obtain ⟨_, h⟩ := k
      subst hdeadline
      exact hq.live he
    · rw [Entry.isExpired, hdeadline] at hexpired
      exact hexpired

theorem mem_map_dueKeys (hq : Keyed issued q) (now : Instant) (h : Handle) :
    h ∈ (q.dueKeys now).map (·.handle) ↔
      ∃ e, lookup h q.entries = some e ∧ e.isExpired now = true := by
  rw [List.mem_map]
  constructor
  · rintro ⟨k, hk, rfl⟩
    obtain ⟨e, he, -, hexpired⟩ := hq.mem_dueKeys.1 hk
    exact ⟨e, he, hexpired⟩
  · rintro ⟨e, he, hexpired⟩
    exact ⟨⟨e.deadline, h⟩, hq.mem_dueKeys.2 ⟨e, he, rfl, hexpired⟩, rfl⟩

theorem fst_pollExpired (hq : Keyed issued q) (now : Instant) :
    (q.pollExpired now).1 = (q.dueKeys now).filterMap (expired? q.entries) := by
  obtain ⟨hfired, -⟩ := foldl_take now (p := ⟨q.entries, [], []⟩) (hq.once_due now)
  simp only [Queue.pollExpired, hfired, List.append_nil, List.reverse_reverse, dueKeys]

/-- A timer that is due is put back or gone after a poll, and no other is touched. -/
theorem lookup_pollExpired (hq : Keyed issued q) (now : Instant) (h : Handle) :
    lookup h (q.pollExpired now).2.entries =
      (lookup h q.entries).bind fun e => if e.isExpired now then e.rearmed? now else some e := by
  obtain ⟨-, hlookup⟩ := foldl_take now (p := ⟨q.entries, [], []⟩) (hq.once_due now)
  have hmem := hq.mem_map_dueKeys now h
  simp only [Queue.pollExpired, entries_tidy, hlookup]
  rw [dueKeys] at hmem
  simp only [hmem]
  cases he : lookup h q.entries with
  | none => simp
  | some e => simp

/-- **A poll fires the timers due, each once.** -/
theorem mem_pollExpired (hq : Keyed issued q) {now : Instant} {x : Expired α} :
    x ∈ (q.pollExpired now).1 ↔
      ∃ e, lookup x.handle q.entries = some e ∧ e.isExpired now = true ∧ e.payload = x.payload ∧
        e.cancelled = x.cancelled := by
  rw [hq.fst_pollExpired, List.mem_filterMap]
  constructor
  · rintro ⟨k, hk, hx⟩
    obtain ⟨e, he, -, hexpired⟩ := hq.mem_dueKeys.1 hk
    rw [expired?, he, Option.map_some, Option.some.injEq] at hx
    subst hx
    exact ⟨e, he, hexpired, rfl, rfl⟩
  · rintro ⟨e, he, hexpired, hpayload, hcancelled⟩
    refine ⟨⟨e.deadline, x.handle⟩, hq.mem_dueKeys.2 ⟨e, he, rfl, hexpired⟩, ?_⟩
    rw [expired?, he, Option.map_some, hpayload, hcancelled]

/-- **A poll fires a timer once.** -/
theorem nodup_pollExpired (hq : Keyed issued q) (now : Instant) :
    ((q.pollExpired now).1.map (·.handle)).Nodup :=
  (hq.backed.nodup_pollExpired_iff now).2 fun h _ he _ => (hq.lone h).echoes_eq_zero he now

end Keyed

end Queue

end Timer

end NetReactor
