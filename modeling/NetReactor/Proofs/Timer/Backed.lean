import Mathlib.Data.List.TakeWhile
import NetReactor.Proofs.Timer.Keys

/-!
# Every timer has its key

A scan passes by the keys that do not count; each of the others puts its timer back or takes it out
(`take_of_stale`, `take_of_live`). **Every timer has a key with its own deadline** (`Backed`), in
whatever way handles are used, and each operation keeps it. So the key at the front that counts shows
the least deadline of all (`Backed.nextDeadline_cases`). Nothing here says that a timer has no other
key: one that was put under a handle in use may have several.
-/

namespace NetReactor.Timer

variable {α : Type}

/-- The timer as it stands after it fired at `now`, if it is to fire again. -/
def Entry.rearmed? (e : Entry α) (now : Instant) : Option (Entry α) :=
  e.again?.map fun interval => { e with deadline := now.add interval }

theorem Entry.not_cancelled_of_rearmed? {e e' : Entry α} {now : Instant}
    (h : e.rearmed? now = some e') : e.cancelled = false ∧ e'.cancelled = false := by
  obtain ⟨interval, hagain, rfl⟩ := Option.map_eq_some_iff.1 h
  have : e.cancelled = false := by
    by_contra hc
    simp [Entry.again?, hc] at hagain
  exact ⟨this, this⟩

namespace Queue

/-- The key under which the timer of a key is put back. -/
def rearmedKey? (now : Instant) (entries : List (Handle × Entry α)) (k : Key) : Option Key :=
  ((lookup k.handle entries).bind (·.rearmed? now)).map fun e => ⟨e.deadline, k.handle⟩

theorem handle_of_rearmedKey? {now : Instant} {entries : List (Handle × Entry α)} {k k' : Key}
    (h : rearmedKey? now entries k = some k') : k'.handle = k.handle := by
  obtain ⟨e, -, rfl⟩ := Option.map_eq_some_iff.1 h
  rfl

/-! ## One step of a scan -/

theorem take_of_stale {now : Instant} {p : Poll α} {k : Key} (h : isStale p.entries k = true) :
    p.take now k = p := by
  unfold isStale at h
  unfold Poll.take
  split
  · rfl
  · rename_i e he
    rw [he, decide_eq_true_eq] at h
    rw [if_pos h]

theorem take_of_live {now : Instant} {p : Poll α} {k : Key} {e : Entry α}
    (he : lookup k.handle p.entries = some e) (hdeadline : e.deadline = k.deadline) :
    p.take now k =
      { entries := match e.rearmed? now with
          | some e' => put k.handle e' p.entries
          | none => erase k.handle p.entries
        rearmed := (rearmedKey? now p.entries k).toList ++ p.rearmed
        fired := ⟨k.handle, e.payload, e.cancelled⟩ :: p.fired } := by
  simp only [Poll.take, rearmedKey?, he, hdeadline, ne_eq, not_true_eq_false, if_false,
    Option.bind_some]
  cases hagain : e.again? with
  | none => simp [Entry.rearmed?, hagain]
  | some interval =>
    have hrearmed : e.rearmed? now = some { e with deadline := now.add interval } := by
      simp [Entry.rearmed?, hagain]
    simp [hrearmed, (Entry.not_cancelled_of_rearmed? hrearmed).1]

theorem lookup_take_self {now : Instant} {p : Poll α} {k : Key} {e : Entry α}
    (he : lookup k.handle p.entries = some e) (hdeadline : e.deadline = k.deadline) :
    lookup k.handle (p.take now k).entries = e.rearmed? now := by
  rw [take_of_live he hdeadline]
  cases e.rearmed? now <;> simp

theorem lookup_take_of_ne {now : Instant} {p : Poll α} {k : Key} {h : Handle} (hne : h ≠ k.handle) :
    lookup h (p.take now k).entries = lookup h p.entries := by
  cases hstale : isStale p.entries k with
  | true => rw [take_of_stale hstale]
  | false =>
    obtain ⟨e, he, hdeadline⟩ := isStale_eq_false_iff.1 hstale
    rw [take_of_live he hdeadline]
    cases e.rearmed? now with
    | none => exact lookup_erase_of_ne hne _
    | some e' => exact lookup_put_of_ne hne _ _

theorem rearmed_subset_take (now : Instant) (p : Poll α) (k : Key) :
    p.rearmed ⊆ (p.take now k).rearmed := by
  cases hstale : isStale p.entries k with
  | true => simp [take_of_stale hstale]
  | false =>
    obtain ⟨e, he, hdeadline⟩ := isStale_eq_false_iff.1 hstale
    simp [take_of_live he hdeadline]

@[simp] theorem entries_tidy (q : Queue α) : (tidy q).entries = q.entries := by
  unfold tidy
  split <;> rfl

theorem keys_tidy_sublist (q : Queue α) : (tidy q).keys.Sublist q.keys := by
  unfold tidy
  split
  · exact List.nil_sublist _
  · exact .refl _

theorem drop_length_takeWhile {β : Type} (p : β → Bool) (l : List β) :
    l.drop (l.takeWhile p).length = l.dropWhile p := by
  induction l with
  | nil => rfl
  | cons x rest ih =>
    cases hx : p x with
    | true => simpa [hx] using ih
    | false => simp [hx]

/-- What a poll leaves are the keys it put back and those that are not due, or none. -/
theorem keys_pollExpired_subperm (q : Queue α) (now : Instant) :
    (q.pollExpired now).2.keys.Subperm
      (((q.keys.takeWhile (·.deadline ≤ now)).foldl (Poll.take now) ⟨q.entries, [], []⟩).rearmed ++
        q.keys.dropWhile (·.deadline ≤ now)) := by
  simp only [pollExpired, drop_length_takeWhile]
  exact (keys_tidy_sublist _).subperm.trans (Key.perm_foldr_insert _ _).subperm

/-! ## Every timer has its key -/

/-- The keys are in order, and each timer has one with its deadline. -/
structure Backed (q : Queue α) : Prop where
  ordered : Key.Ordered q.keys
  live : ∀ {h e}, lookup h q.entries = some e → ⟨e.deadline, h⟩ ∈ q.keys

/-- In the midst of a scan a timer has its key among those still to come or among the new ones. -/
def Poll.Covers (p : Poll α) (keys : List Key) : Prop :=
  ∀ h e, lookup h p.entries = some e →
    ⟨e.deadline, h⟩ ∈ keys ∨ ⟨e.deadline, h⟩ ∈ p.rearmed

theorem Poll.Covers.take {p : Poll α} {k : Key} {keys : List Key} (hp : p.Covers (k :: keys))
    (now : Instant) : (p.take now k).Covers keys := by
  intro h e he
  by_cases hh : h = k.handle
  · subst hh
    cases hstale : isStale p.entries k with
    | true =>
      rw [take_of_stale hstale] at he ⊢
      -- the key passed by is not the timer's own
      refine (hp _ e he).imp_left fun hmem => (List.mem_cons.1 hmem).resolve_left fun heq => ?_
      have hlive := isStale_eq_false_iff.2 ⟨e, he, congrArg Key.deadline heq⟩
      simp [hstale] at hlive
    | false =>
      obtain ⟨e₀, he₀, hdeadline⟩ := isStale_eq_false_iff.1 hstale
      rw [lookup_take_self he₀ hdeadline] at he
      right
      simp [take_of_live he₀ hdeadline, rearmedKey?, he₀, he]
  · rw [lookup_take_of_ne hh] at he
    rcases hp h e he with hmem | hmem
    · left
      exact (List.mem_cons.1 hmem).resolve_left fun heq => hh (congrArg Key.handle heq)
    · right
      exact rearmed_subset_take now p k hmem

theorem Poll.Covers.foldl_take {p : Poll α} {due later : List Key} (hp : p.Covers (due ++ later))
    (now : Instant) : (due.foldl (Poll.take now) p).Covers later := by
  induction due generalizing p with
  | nil => exact hp
  | cons k rest ih => exact ih (hp.take now)

namespace Backed

variable {q : Queue α}

theorem empty : Backed (Queue.empty (α := α)) where
  ordered := .nil
  live he := by simp [Queue.empty, lookup] at he

theorem clear (q : Queue α) : Backed q.clear where
  ordered := .nil
  live he := by simp [Queue.clear, lookup] at he

theorem tidy (hq : Backed q) : Backed (tidy q) := by
  unfold Queue.tidy
  split
  · rename_i hempty
    refine ⟨.nil, fun he => ?_⟩
    simp [List.isEmpty_iff.1 hempty, lookup] at he
  · exact hq

/-- A timer that takes the place of another under its handle has its own key. -/
theorem put (hq : Backed q) (h : Handle) (e : Entry α) {q' : Queue α}
    (hentries : q'.entries = Queue.put h e q.entries)
    (hkeys : q'.keys = Key.insert ⟨e.deadline, h⟩ q.keys) : Backed q' where
  ordered := hkeys ▸ hq.ordered.insert _
  live {g f} hf := by
    rw [hkeys, (Key.perm_insert _ _).mem_iff, List.mem_cons]
    rw [hentries] at hf
    by_cases hg : g = h
    · subst hg
      obtain rfl : e = f := by simpa using hf
      exact .inl rfl
    · exact .inr (hq.live (by simpa [lookup_put_of_ne hg] using hf))

theorem insert (hq : Backed q) (h : Handle) (e : Entry α) : Backed (q.insert h e) :=
  hq.put h e rfl rfl

theorem cancel (hq : Backed q) (now : Instant) (h : Handle) : Backed (q.cancel now h).2 := by
  unfold Queue.cancel
  split
  · exact hq
  · rename_i e _
    split
    · exact hq
    · exact hq.put h { e with cancelled := true, deadline := now } rfl rfl

theorem remove (hq : Backed q) (h : Handle) : Backed (q.remove h).2 := by
  unfold Queue.remove
  split
  · exact hq
  · exact tidy ⟨hq.ordered, fun he => hq.live (lookup_erase.1 he).2⟩

theorem nextDeadline (hq : Backed q) : Backed q.nextDeadline.2 where
  ordered := hq.ordered.sublist (List.dropWhile_sublist _)
  live {h e} he := by
    have hlive : isStale q.entries ⟨e.deadline, h⟩ = false := isStale_eq_false_iff.2 ⟨e, he, rfl⟩
    have hmem := hq.live he
    rw [← List.takeWhile_append_dropWhile (p := isStale q.entries) (l := q.keys),
      List.mem_append] at hmem
    refine hmem.resolve_left fun hstale => ?_
    simp [List.mem_takeWhile_imp hstale] at hlive

theorem pollExpired (hq : Backed q) (now : Instant) : Backed (q.pollExpired now).2 := by
  have hcovers : (⟨q.entries, [], []⟩ : Poll α).Covers
      (q.keys.takeWhile (·.deadline ≤ now) ++ q.keys.dropWhile (·.deadline ≤ now)) := by
    intro h e he
    rw [List.takeWhile_append_dropWhile]
    exact .inl (hq.live he)
  have hend := hcovers.foldl_take now
  have hlater : (q.keys.dropWhile (·.deadline ≤ now)).Sublist q.keys := List.dropWhile_sublist _
  unfold Queue.pollExpired
  simp only [drop_length_takeWhile]
  refine tidy ⟨Key.Ordered.foldr_insert (hq.ordered.sublist hlater) _, fun he => ?_⟩
  rw [(Key.perm_foldr_insert _ _).mem_iff, List.mem_append]
  exact (hend _ _ he).symm

/-- **The next deadline is the least of all**; there is none only if there is no timer. -/
theorem nextDeadline_cases (hq : Backed q) :
    (q.nextDeadline.1 = none ∧ ∀ h, q.get? h = none) ∨
      ∃ h e, q.get? h = some e ∧ q.nextDeadline.1 = some e.deadline ∧
        ∀ g f, q.get? g = some f → e.deadline ≤ f.deadline := by
  have hnext := hq.nextDeadline
  have hfront : q.nextDeadline.1 = q.nextDeadline.2.keys.head?.map (·.deadline) := rfl
  have hlive := List.head?_dropWhile_not (isStale q.entries) q.keys
  rw [show q.keys.dropWhile (isStale q.entries) = q.nextDeadline.2.keys from rfl] at hlive
  cases hkeys : q.nextDeadline.2.keys with
  | nil =>
    refine .inl ⟨by simp [hfront, hkeys], fun h => ?_⟩
    rw [Option.eq_none_iff_forall_not_mem]
    intro e he
    have hmem := hnext.live he
    simp [hkeys] at hmem
  | cons k rest =>
    obtain ⟨e, he, hdeadline⟩ := isStale_eq_false_iff.1 (by simpa [hkeys] using hlive)
    refine .inr ⟨k.handle, e, he, by simp [hfront, hkeys, hdeadline], fun g f hf => ?_⟩
    have hmem := hnext.live hf
    have hordered := hnext.ordered
    rw [hkeys] at hmem hordered
    rw [hdeadline]
    rcases List.mem_cons.1 hmem with heq | hrest
    · exact Int.le_of_eq (congrArg (·.deadline.nanos) heq).symm
    · exact Key.deadline_le_of_rank_le ((List.pairwise_cons.1 hordered).1 _ hrest)

end Backed

end Queue

end NetReactor.Timer
