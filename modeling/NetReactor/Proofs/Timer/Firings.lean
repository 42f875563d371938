import Mathlib.Data.List.Nodup
import NetReactor.Proofs.Timer.Backed

/-!
# How often a poll fires a timer

A timer that repeats is put back under a new key only behind the scan, but its deadline moves at once.
**With an interval of zero it moves to the time of the poll, and a key that the handle has there from
before counts as the timer's own**: the scan fires the timer once more for each of them
(`Backed.count_pollExpired`), so a poll fires every timer once only if there are none. A handle has such
keys when a timer was put in under it while it was, or had been, in use; one that was used once has none,
whatever became of the others (`Lone.echoes_eq_zero`).
-/

namespace NetReactor.Timer

variable {α : Type}

theorem Entry.isExpired_eq_false_iff {e : Entry α} {now : Instant} :
    e.isExpired now = false ↔ now < e.deadline := by
  rw [isExpired, decide_eq_false_iff_not]
  exact Int.not_le

namespace Queue

/-! ## The keys of a scan, for one timer -/

/-- How often a scan of these keys at `now` fires the timer of `h`, which stands as `e?`. -/
def firings (now : Instant) (h : Handle) : (e? : Option (Entry α)) → List Key → Nat
  | none, _ => 0
  | some _, [] => 0
  | some e, k :: rest =>
    if k = ⟨e.deadline, h⟩ then firings now h (e.rearmed? now) rest + 1
    else firings now h (some e) rest

variable {now : Instant} {h : Handle}

@[simp] theorem firings_nil (e? : Option (Entry α)) : firings now h e? [] = 0 := by
  cases e? <;> rfl

theorem firings_own {e : Entry α} (rest : List Key) :
    firings now h (some e) (⟨e.deadline, h⟩ :: rest) = firings now h (e.rearmed? now) rest + 1 := by
  rw [firings, if_pos rfl]

theorem firings_other {e? : Option (Entry α)} {k : Key} (hk : ∀ e ∈ e?, k ≠ ⟨e.deadline, h⟩)
    (rest : List Key) : firings now h e? (k :: rest) = firings now h e? rest := by
  cases e? with
  | none => simp only [firings]
  | some e => rw [firings, if_neg (hk e rfl)]

/-- What a key adds to the firings and to the new keys of one timer. -/
theorem countP_take (now : Instant) (h : Handle) (p : Poll α) (k : Key) (rest : List Key) :
    (p.take now k).fired.countP (·.handle = h) + firings now h (lookup h (p.take now k).entries) rest =
        p.fired.countP (·.handle = h) + firings now h (lookup h p.entries) (k :: rest) ∧
      (p.take now k).rearmed.countP (·.handle = h) +
          firings now h (lookup h (p.take now k).entries) rest ≤
        p.rearmed.countP (·.handle = h) + firings now h (lookup h p.entries) (k :: rest) := by
  cases hstale : isStale p.entries k with
  | true =>
    have hk : ∀ e ∈ lookup h p.entries, k ≠ ⟨e.deadline, h⟩ := by
      rintro e he rfl
      simp [isStale, Option.mem_def.1 he] at hstale
    rw [take_of_stale hstale, firings_other hk]
    exact ⟨rfl, Nat.le_refl _⟩
  | false =>
    obtain ⟨e, he, hdeadline⟩ := isStale_eq_false_iff.1 hstale
    obtain ⟨deadline, g⟩ := k
    simp only at he hdeadline
    subst hdeadline
    by_cases hg : h = g
    · subst hg
      have hself : lookup h (p.take now ⟨e.deadline, h⟩).entries = e.rearmed? now :=
        @lookup_take_self _ now p ⟨e.deadline, h⟩ e he rfl
      have hnew : (rearmedKey? now p.entries ⟨e.deadline, h⟩).toList.countP (·.handle = h) ≤ 1 :=
        List.countP_le_length.trans (by cases rearmedKey? now p.entries ⟨e.deadline, h⟩ <;> simp)
      rw [hself, he, firings_own, take_of_live he rfl]
      simp only [List.countP_cons, List.countP_append, decide_true, if_true]
      constructor <;> omega
    · have hk : ∀ f ∈ lookup h p.entries, (⟨e.deadline, g⟩ : Key) ≠ ⟨f.deadline, h⟩ := by
        intro f _ heq
        exact hg (congrArg Key.handle heq).symm
      have hnew : (rearmedKey? now p.entries ⟨e.deadline, g⟩).toList.countP (·.handle = h) = 0 := by
        refine List.countP_eq_zero.2 fun k hk => ?_
        have hhandle : k.handle = g := handle_of_rearmedKey? (Option.mem_toList.1 hk)
        simpa [hhandle] using Ne.symm hg
      rw [lookup_take_of_ne hg, firings_other hk, take_of_live he rfl]
      simp only [List.countP_cons, List.countP_append, hnew, decide_eq_true_eq, if_neg (Ne.symm hg)]
      constructor <;> omega

/-- **A scan fires a timer as often as its keys say**, whatever the other timers do, and puts it back no
more often than that. -/
theorem countP_foldl_take (now : Instant) (h : Handle) (keys : List Key) (p : Poll α) :
    (keys.foldl (Poll.take now) p).fired.countP (·.handle = h) =
        p.fired.countP (·.handle = h) + firings now h (lookup h p.entries) keys ∧
      (keys.foldl (Poll.take now) p).rearmed.countP (·.handle = h) ≤
        p.rearmed.countP (·.handle = h) + firings now h (lookup h p.entries) keys := by
  induction keys generalizing p with
  | nil => simp
  | cons k rest ih =>
    obtain ⟨hfired, hrearmed⟩ := ih (p.take now k)
    obtain ⟨hfired', hrearmed'⟩ := countP_take now h p k rest
    exact ⟨hfired.trans hfired', hrearmed.trans hrearmed'⟩

theorem firings_eq_zero {e : Entry α} {keys : List Key} (hnot : ⟨e.deadline, h⟩ ∉ keys) :
    firings now h (some e) keys = 0 := by
  induction keys with
  | nil => rfl
  | cons k rest ih =>
    obtain ⟨hk, hrest⟩ := not_or.1 (List.mem_cons.not.1 hnot)
    rw [firings_other fun f hf heq => hk (by rw [heq, Option.mem_some.1 hf]), ih hrest]

/-- A timer that stays at the time of the poll fires for each key there. -/
theorem firings_of_stay {e : Entry α} (hstay : e.rearmed? now = some e) (keys : List Key) :
    firings now h (some e) keys = keys.count ⟨e.deadline, h⟩ := by
  induction keys with
  | nil => rfl
  | cons k rest ih =>
    by_cases hk : k = ⟨e.deadline, h⟩
    · subst hk
      rw [firings_own, hstay, ih, List.count_cons_self]
    · rw [firings_other fun f hf => Option.mem_some.1 hf ▸ hk, ih, List.count_cons_of_ne hk]

/-- What a timer that has just fired does in the rest of a scan. -/
theorem firings_rearmed {e : Entry α} {keys : List Key} (hdue : ∀ k ∈ keys, k.deadline ≤ now) :
    firings now h (e.rearmed? now) keys =
      if e.again? = some .zero then keys.count ⟨now, h⟩ else 0 := by
  cases hagain : e.again? with
  | none => simp [Entry.rearmed?, hagain, firings]
  | some interval =>
    have hre : e.rearmed? now = some { e with deadline := now.add interval } := by
      simp [Entry.rearmed?, hagain]
    rw [hre]
    by_cases hzero : interval = .zero
    · subst hzero
      have hnow : now.add .zero = now := by simp [Instant.add, Duration.zero]
      rw [if_pos rfl, hnow]
      refine firings_of_stay ?_ keys
      simpa [Entry.rearmed?, Entry.again?, hnow] using hre
    · rw [if_neg fun heq => hzero (Option.some.inj heq)]
      -- the new deadline lies behind every key of the scan
      refine firings_eq_zero fun hmem => ?_
      have hle : now.nanos + interval.nanos ≤ now.nanos := hdue _ hmem
      exact hzero (congrArg Duration.mk (show interval.nanos = 0 by omega))

/-- A timer with a key among those due fires, and then again for its other keys at the time of the
poll if it does not move away from there. -/
theorem firings_of_mem {e : Entry α} {keys : List Key} (hordered : Key.Ordered keys)
    (hdue : ∀ k ∈ keys, k.deadline ≤ now) (hmem : ⟨e.deadline, h⟩ ∈ keys) :
    firings now h (some e) keys =
      (if e.again? = some .zero then (keys.erase ⟨e.deadline, h⟩).count ⟨now, h⟩ else 0) + 1 := by
  induction keys with
  | nil => simp at hmem
  | cons k rest ih =>
    obtain ⟨hk, hrest⟩ := List.pairwise_cons.1 hordered
    have hdue' : ∀ x ∈ rest, x.deadline ≤ now := fun x hx => hdue x (List.mem_cons_of_mem k hx)
    by_cases heq : k = ⟨e.deadline, h⟩
    · subst heq
      rw [firings_own, firings_rearmed hdue', List.erase_cons_head]
    · have hmem' := (List.mem_cons.1 hmem).resolve_left (Ne.symm heq)
      -- a key before the timer's own is not at the time of the poll
      have hne : k ≠ ⟨now, h⟩ := by
        rintro rfl
        have hle : now.nanos ≤ e.deadline.nanos := Key.deadline_le_of_rank_le (hk _ hmem')
        have hge : e.deadline.nanos ≤ now.nanos := hdue' _ hmem'
        exact heq (congrArg (Key.mk · h) (congrArg Instant.mk (Int.le_antisymm hle hge)))
      rw [firings_other (fun f hf => Option.mem_some.1 hf ▸ heq), ih hrest hdue' hmem',
        List.erase_cons_tail (by simpa using heq), List.count_cons_of_ne hne]

/-! ## A poll -/

/-- How many keys the timer of `h` has at `now` beside its own that a poll takes for its own. -/
def echoes (q : Queue α) (now : Instant) (h : Handle) (e : Entry α) : Nat :=
  if e.again? = some .zero then (q.keys.erase ⟨e.deadline, h⟩).count ⟨now, h⟩ else 0

namespace Backed

variable {q : Queue α}

/-- What the keys that are due say of a timer. -/
theorem firings_due (hq : Backed q) (now : Instant) (h : Handle) :
    firings now h (q.get? h) (q.keys.takeWhile (·.deadline ≤ now)) =
      (q.get? h).elim 0 fun e => if e.isExpired now then q.echoes now h e + 1 else 0 := by
  rw [hq.ordered.takeWhile_due]
  have hdue : ∀ k ∈ q.keys.filter (fun k => decide (k.deadline ≤ now)), k.deadline ≤ now :=
    fun k hk => by simpa using (List.mem_filter.1 hk).2
  cases he : q.get? h with
  | none => simp [firings]
  | some e =>
    rw [Option.elim_some]
    by_cases hexpired : e.isExpired now = true
    · have hmem : ⟨e.deadline, h⟩ ∈ q.keys.filter fun k => decide (k.deadline ≤ now) :=
        List.mem_filter.2 ⟨hq.live he, hexpired⟩
      have hat : (q.keys.filter fun k => decide (k.deadline ≤ now)).count ⟨now, h⟩ =
          q.keys.count ⟨now, h⟩ :=
        List.count_filter (decide_eq_true (Int.le_refl now.nanos))
      rw [if_pos hexpired, firings_of_mem (hq.ordered.sublist List.filter_sublist) hdue hmem, echoes,
        List.count_erase, List.count_erase, hat]
    · rw [if_neg hexpired, firings_eq_zero]
      intro hmem
      exact hexpired (by simpa [Entry.isExpired] using hdue _ hmem)

/-- **A poll fires a timer that is due once, and once more for each of its keys at that time that is left
over**; it fires no other. -/
theorem count_pollExpired (hq : Backed q) (now : Instant) (h : Handle) :
    ((q.pollExpired now).1.map (·.handle)).count h =
      (q.get? h).elim 0 fun e => if e.isExpired now then q.echoes now h e + 1 else 0 := by
  obtain ⟨hscan, -⟩ :=
    countP_foldl_take now h (q.keys.takeWhile (·.deadline ≤ now)) ⟨q.entries, [], []⟩
  rw [List.countP_nil, Nat.zero_add] at hscan
  rw [← hq.firings_due, Queue.get?, ← hscan, Queue.pollExpired, List.count, List.countP_map,
    ← List.countP_reverse]
  simp [Function.comp_def, beq_eq_decide]

/-- A poll comes back with nothing just if no timer is due. -/
theorem pollExpired_eq_nil_iff (hq : Backed q) (now : Instant) :
    (q.pollExpired now).1 = [] ↔ ∀ h e, q.get? h = some e → now < e.deadline := by
  have hcount := hq.count_pollExpired now
  constructor
  · intro hnil h e he
    have hzero := hcount h
    rw [hnil, he, Option.elim_some, List.map_nil, List.count_nil] at hzero
    cases hexpired : e.isExpired now with
    | true => simp [hexpired] at hzero
    | false => exact Entry.isExpired_eq_false_iff.1 hexpired
  · intro hlate
    refine List.eq_nil_iff_forall_not_mem.2 fun x hx => ?_
    have hpos := List.count_pos_iff.2 (List.mem_map.2 ⟨x, hx, rfl⟩ : x.handle ∈ _)
    rw [hcount x.handle] at hpos
    cases he : q.get? x.handle with
    | none => simp [he] at hpos
    | some e => simp [he, Entry.isExpired_eq_false_iff.2 (hlate x.handle e he)] at hpos

theorem nodup_pollExpired_iff (hq : Backed q) (now : Instant) :
    ((q.pollExpired now).1.map (·.handle)).Nodup ↔
      ∀ h e, q.get? h = some e → e.isExpired now → q.echoes now h e = 0 := by
  refine List.nodup_iff_count_le_one.trans (forall_congr' fun h => ?_)
  rw [hq.count_pollExpired now h]
  cases q.get? h with
  | none => simp
  | some e => cases hexpired : e.isExpired now <;> simp [hexpired]

end Backed

/-! ## A handle that is used once -/

/-- Whatever other handles are used for, `h` was used once if `used` says so, and else not at all: its
timer has no second key unless it was cancelled. -/
structure Lone (h : Handle) (used : Prop) (q : Queue α) : Prop where
  backed : Backed q
  once : ∀ e, q.get? h = some e → e.cancelled = false → q.keys.countP (·.handle = h) ≤ 1
  unused : ¬ used → q.keys.countP (·.handle = h) = 0

namespace Lone

variable {used : Prop} {q : Queue α}

theorem empty (h : Handle) : Lone h used (Queue.empty (α := α)) where
  backed := .empty
  once e he := by simp [Queue.empty, get?, lookup] at he
  unused _ := rfl

theorem mono {used' : Prop} (hq : Lone h used q) (himp : used → used') : Lone h used' q :=
  { hq with unused := fun hnot => hq.unused fun hused => hnot (himp hused) }

/-- No timer without a key. -/
theorem get?_of_unused (hq : Lone h used q) (hnot : ¬ used) : q.get? h = none := by
  refine Option.eq_none_iff_forall_not_mem.2 fun e he => ?_
  have hzero := List.countP_eq_zero.1 (hq.unused hnot) _ (hq.backed.live he)
  simp at hzero

/-- What gives `h` no new timer and no new key keeps it so. -/
theorem of_fewer (hq : Lone h used q) {q' : Queue α} (hbacked : Backed q')
    (hget : ∀ e, q'.get? h = some e → q.get? h = some e)
    (hkeys : q'.keys.countP (·.handle = h) ≤ q.keys.countP (·.handle = h)) : Lone h used q' where
  backed := hbacked
  once e he hc := hkeys.trans (hq.once e (hget e he) hc)
  unused hnot := Nat.le_zero.1 (hq.unused hnot ▸ hkeys)

theorem countP_insert (g : Handle) (deadline : Instant) (keys : List Key) :
    (Key.insert ⟨deadline, g⟩ keys).countP (·.handle = h) =
      keys.countP (·.handle = h) + if g = h then 1 else 0 := by
  rw [(Key.perm_insert _ _).countP_eq, List.countP_cons]
  simp

theorem insert (hq : Lone h used q) {g : Handle} (hfresh : g = h → ¬ used) (e : Entry α) :
    Lone h (used ∨ g = h) (q.insert g e) := by
  have hbacked := hq.backed.insert g e
  have hcount : (q.insert g e).keys.countP (·.handle = h) =
      q.keys.countP (·.handle = h) + if g = h then 1 else 0 := countP_insert g e.deadline q.keys
  by_cases hg : g = h
  · refine ⟨hbacked, fun f _ _ => ?_, fun hnot => absurd (.inr hg) hnot⟩
    rw [hcount, if_pos hg, hq.unused (hfresh hg)]
  · rw [if_neg hg, Nat.add_zero] at hcount
    refine (hq.of_fewer hbacked (fun f hf => ?_) (Nat.le_of_eq hcount)).mono .inl
    simpa [Queue.insert, get?, lookup_put_of_ne (Ne.symm hg)] using hf

theorem cancel (hq : Lone h used q) (now : Instant) (g : Handle) : Lone h used (q.cancel now g).2 := by
  have hbacked := hq.backed.cancel now g
  cases he : q.get? g with
  | none => simpa [Queue.cancel, he] using hq
  | some e =>
    cases hc : e.cancelled with
    | true => simpa [Queue.cancel, he, hc] using hq
    | false =>
      simp only [Queue.cancel, he, hc, Bool.false_eq_true, if_false] at hbacked ⊢
      by_cases hg : g = h
      · subst hg
        refine ⟨hbacked, fun f hf hc' => ?_, fun hnot => ?_⟩
        · simp only [get?, lookup_put_self, Option.some.injEq] at hf
          simp [← hf] at hc'
        · simp [hq.get?_of_unused hnot] at he
      · refine hq.of_fewer hbacked (fun f hf => ?_) ?_
        · simpa [get?, lookup_put_of_ne (Ne.symm hg)] using hf
        · simp only [countP_insert, if_neg hg, Nat.add_zero, Nat.le_refl]

theorem remove (hq : Lone h used q) (g : Handle) : Lone h used (q.remove g).2 := by
  have hbacked := hq.backed.remove g
  unfold Queue.remove at hbacked ⊢
  split
  · exact hq
  · rename_i hget
    simp only [hget] at hbacked
    refine hq.of_fewer hbacked (fun f hf => ?_) (keys_tidy_sublist _).countP_le
    rw [get?, entries_tidy] at hf
    exact (lookup_erase.1 hf).2

theorem nextDeadline (hq : Lone h used q) : Lone h used q.nextDeadline.2 :=
  hq.of_fewer hq.backed.nextDeadline (fun _ he => he)
    (List.Sublist.countP_le (List.dropWhile_sublist _))

theorem clear (q : Queue α) : Lone h used q.clear where
  backed := .clear q
  once e he := by simp [Queue.clear, get?, lookup] at he
  unused _ := rfl

/-- A timer that is left by a scan was there before, and not less cancelled. -/
theorem exists_of_foldl_take {now : Instant} {keys : List Key} {p : Poll α} {e' : Entry α}
    (he' : lookup h (keys.foldl (Poll.take now) p).entries = some e') :
    ∃ e, lookup h p.entries = some e ∧ e.cancelled = e'.cancelled := by
  induction keys generalizing p with
  | nil => exact ⟨e', he', rfl⟩
  | cons k rest ih =>
    obtain ⟨e, he, hc⟩ := ih he'
    by_cases hk : h = k.handle
    · subst hk
      cases hstale : isStale p.entries k with
      | true => exact ⟨e, take_of_stale hstale ▸ he, hc⟩
      | false =>
        obtain ⟨e₀, he₀, hdeadline⟩ := isStale_eq_false_iff.1 hstale
        rw [lookup_take_self he₀ hdeadline] at he
        obtain ⟨hc₀, hc'⟩ := Entry.not_cancelled_of_rearmed? he
        exact ⟨e₀, he₀, hc₀.trans (hc'.symm.trans hc)⟩
    · exact ⟨e, lookup_take_of_ne hk ▸ he, hc⟩

/-- Beside its own key the timer has none to be taken for it. -/
theorem echoes_eq_zero (hq : Lone h used q) {e : Entry α} (he : q.get? h = some e) (now : Instant) :
    q.echoes now h e = 0 := by
  unfold echoes
  split
  · rename_i hagain
    have hc : e.cancelled = false := by
      cases hc : e.cancelled with
      | true => simp [Entry.again?, hc] at hagain
      | false => rfl
    have hone := hq.once e he hc
    have hown := (List.perm_cons_erase (hq.backed.live he)).countP_eq (·.handle = h)
    rw [List.countP_cons_of_pos (by simp)] at hown
    have hrest : (q.keys.erase ⟨e.deadline, h⟩).countP (·.handle = h) = 0 := by omega
    refine List.count_eq_zero.2 fun hmem => ?_
    simpa using List.countP_eq_zero.1 hrest _ hmem
  · rfl

/-- **A poll leaves a handle no more keys than it had**: it is put back under a new one only for one that
was due. -/
theorem countP_pollExpired_le (hq : Lone h used q) (now : Instant) :
    (q.pollExpired now).2.keys.countP (·.handle = h) ≤ q.keys.countP (·.handle = h) := by
  have hfirings := hq.backed.firings_due now h
  obtain ⟨-, hrearmed⟩ :=
    countP_foldl_take now h (q.keys.takeWhile (·.deadline ≤ now)) ⟨q.entries, [], []⟩
  have hsplit : q.keys.countP (·.handle = h) =
      (q.keys.takeWhile (·.deadline ≤ now)).countP (·.handle = h) +
        (q.keys.dropWhile (·.deadline ≤ now)).countP (·.handle = h) := by
    rw [← List.countP_append, List.takeWhile_append_dropWhile]
  have hkeys : (q.pollExpired now).2.keys.countP (·.handle = h) ≤
      firings now h (q.get? h) (q.keys.takeWhile (·.deadline ≤ now)) +
        (q.keys.dropWhile (·.deadline ≤ now)).countP (·.handle = h) := by
    refine ((keys_pollExpired_subperm q now).countP_le _).trans ?_
    rw [List.countP_append]
    simpa [get?] using hrearmed
  refine hkeys.trans ?_
  rw [hfirings]
  cases he : q.get? h with
  | none =>
    rw [Option.elim_none]
    omega
  | some e =>
    rw [Option.elim_some, hq.echoes_eq_zero he]
    cases hexpired : e.isExpired now with
    | false =>
      simp only [Bool.false_eq_true, if_false]
      omega
    | true =>
      -- its own key is due, so that one is not left behind the scan
      have hdue : ⟨e.deadline, h⟩ ∈ q.keys.takeWhile (·.deadline ≤ now) := by
        rw [hq.backed.ordered.takeWhile_due]
        exact List.mem_filter.2 ⟨hq.backed.live he, hexpired⟩
      have hpos : 0 < (q.keys.takeWhile (·.deadline ≤ now)).countP (·.handle = h) :=
        List.countP_pos_iff.2 ⟨_, hdue, by simp⟩
      simp only [if_true]
      omega

theorem poll (hq : Lone h used q) (now : Instant) : Lone h used (q.pollExpired now).2 := by
  have hkeys := hq.countP_pollExpired_le now
  refine ⟨hq.backed.pollExpired now, fun e' he' hc' => hkeys.trans ?_, fun hnot => ?_⟩
  · obtain ⟨e, he, hc⟩ : ∃ e, q.get? h = some e ∧ e.cancelled = e'.cancelled :=
      exists_of_foldl_take (by simpa [get?, Queue.pollExpired] using he')
    exact hq.once e he (hc.trans hc')
  · exact Nat.le_zero.1 (hq.unused hnot ▸ hkeys)

end Lone

end Queue

end NetReactor.Timer
