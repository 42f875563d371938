import Mathlib.Data.List.Perm.Basic
import Mathlib.Data.Prod.Lex
import Mathlib.Order.Lattice
import NetReactor.Timer.Queue

/-!
# The keys of a timer queue

Every timer has a key with its own deadline, and a timer that was not cancelled has no other key: **a
stale key is one whose timer is gone or was cancelled**, so a scan never takes it for a live one. That holds
as long as no handle is used twice, and each operation keeps it. A scan then fires
exactly the keys that count when it begins (`hits`), each timer once, and what it leaves behind is the
table of entries with those timers put back or gone.
-/

namespace NetReactor.Timer

namespace Key

/-- Where a key stands in line. -/
def rank (k : Key) : ℤ ×ₗ ℕ := toLex (k.deadline.nanos, k.handle)

theorem before_iff {a b : Key} : a.before b ↔ a.rank < b.rank := by
  obtain ⟨⟨s⟩, g⟩ := a
  obtain ⟨⟨t⟩, h⟩ := b
  simp only [before, rank, Prod.Lex.toLex_lt_toLex, Bool.or_eq_true, Bool.and_eq_true,
    decide_eq_true_eq, Instant.mk.injEq]
  rfl

theorem rank_injective : Function.Injective rank := by
  rintro ⟨⟨s⟩, g⟩ ⟨⟨t⟩, h⟩ heq
  obtain ⟨rfl, rfl⟩ : s = t ∧ g = h := by simpa [rank] using heq
  rfl

theorem deadline_le_of_rank_le {a b : Key} (h : a.rank ≤ b.rank) : a.deadline ≤ b.deadline := by
  rcases Prod.Lex.toLex_le_toLex.1 h with hlt | ⟨heq, -⟩
  · exact Int.le_of_lt hlt
  · exact Int.le_of_eq heq

theorem perm_insert (k : Key) (keys : List Key) : (insert k keys).Perm (k :: keys) := by
  induction keys with
  | nil => exact .refl _
  | cons x rest ih =>
    rw [insert]
    split
    · exact .refl _
    · exact (ih.cons x).trans (.swap k x rest)

theorem perm_foldr_insert (new keys : List Key) : (new.foldr insert keys).Perm (new ++ keys) := by
  induction new with
  | nil => exact .refl _
  | cons k rest ih => exact (perm_insert k _).trans (ih.cons k)

/-- Earlier keys come first. -/
abbrev Ordered (keys : List Key) : Prop := keys.Pairwise fun a b => a.rank ≤ b.rank

theorem Ordered.insert {keys : List Key} (h : Ordered keys) (k : Key) :
    Ordered (Key.insert k keys) := by
  induction keys with
  | nil => exact List.pairwise_singleton _ k
  | cons x rest ih =>
    obtain ⟨hx, hrest⟩ := List.pairwise_cons.1 h
    rw [Key.insert]
    split
    · rename_i hkx
      have hle := (before_iff.1 hkx).le
      refine List.pairwise_cons.2 ⟨fun y hy => ?_, h⟩
      rcases List.mem_cons.1 hy with rfl | hy
      · exact hle
      · exact hle.trans (hx y hy)
    · rename_i hkx
      refine List.pairwise_cons.2 ⟨fun y hy => ?_, ih hrest⟩
      rcases List.mem_cons.1 ((perm_insert k rest).mem_iff.1 hy) with rfl | hy
      · exact not_lt.1 fun hlt => hkx (before_iff.2 hlt)
      · exact hx y hy

theorem Ordered.foldr_insert {keys : List Key} (h : Ordered keys) (new : List Key) :
    Ordered (new.foldr Key.insert keys) := by
  induction new with
  | nil => exact h
  | cons k rest ih => exact ih.insert k

/-- Among ordered keys those due at `now` come first. -/
theorem Ordered.takeWhile_due {keys : List Key} (h : Ordered keys) (now : Instant) :
    keys.takeWhile (fun k => decide (k.deadline ≤ now)) =
      keys.filter fun k => decide (k.deadline ≤ now) := by
  induction keys with
  | nil => rfl
  | cons x rest ih =>
    obtain ⟨hx, hrest⟩ := List.pairwise_cons.1 h
    by_cases hdue : x.deadline ≤ now
    · simp [hdue, ih hrest]
    · have hnone : rest.filter (fun k => decide (k.deadline ≤ now)) = [] := by
        refine List.filter_eq_nil_iff.2 fun y hy => ?_
        rw [decide_eq_true_eq]
        exact fun hydue => hdue (Int.le_trans (deadline_le_of_rank_le (hx y hy)) hydue)
      simp [hdue, hnone]

/-- Two lists of keys in order, without repetitions and with the same members, are the same. -/
theorem Ordered.eq_of_mem_iff {keys keys' : List Key} (h : Ordered keys) (h' : Ordered keys')
    (hnodup : keys.Nodup) (hnodup' : keys'.Nodup) (hmem : ∀ k, k ∈ keys ↔ k ∈ keys') :
    keys = keys' := by
  refine List.Perm.eq_of_pairwise ?_ h h' ((List.perm_ext_iff_of_nodup hnodup hnodup').2 hmem)
  exact fun a b _ _ hab hba => rank_injective (hab.antisymm hba)

end Key

namespace Queue

variable {α : Type}

/-! ## Scans -/

theorem isStale_eq_false_iff {entries : List (Handle × Entry α)} {k : Key} :
    isStale entries k = false ↔ ∃ e, lookup k.handle entries = some e ∧ e.deadline = k.deadline := by
  unfold isStale
  split
  · rename_i e he
    simp [he]
  · rename_i he
    simp [he]

theorem lookup_eq_none_of_not_mem {entries : List (Handle × Entry α)} {h : Handle}
    (hnot : h ∉ entries.map Prod.fst) : lookup h entries = none := by
  refine List.lookup_eq_none_iff.2 fun x hx => ?_
  exact bne_iff_ne.2 fun heq => hnot (List.mem_map.2 ⟨x, hx, heq.symm⟩)

theorem lookup_erase {g h : Handle} {entries : List (Handle × Entry α)} {e : Entry α} :
    lookup g (erase h entries) = some e ↔ g ≠ h ∧ lookup g entries = some e := by
  by_cases hgh : g = h
  · simp [hgh]
  · simp [hgh, lookup_erase_of_ne hgh]

/-- The keys that count in a scan: each timer's first key with the timer's own deadline. -/
def hits (entries : List (Handle × Entry α)) : List Key → List Key
  | [] => []
  | k :: rest =>
    if isStale entries k then hits entries rest else k :: hits (erase k.handle entries) rest

theorem sublist_hits (entries : List (Handle × Entry α)) (keys : List Key) :
    (hits entries keys).Sublist keys := by
  induction keys generalizing entries with
  | nil => exact .refl _
  | cons k rest ih =>
    rw [hits]
    split
    · exact (ih entries).cons k
    · exact (ih _).cons_cons k

theorem mem_hits {entries : List (Handle × Entry α)} {keys : List Key} {k : Key} :
    k ∈ hits entries keys ↔ k ∈ keys ∧ isStale entries k = false := by
  induction keys generalizing entries with
  | nil => simp [hits]
  | cons x rest ih =>
    rw [hits]
    split
    · rename_i hx
      rw [ih, List.mem_cons]
      constructor
      · exact fun ⟨hk, hlive⟩ => ⟨.inr hk, hlive⟩
      · rintro ⟨rfl | hk, hlive⟩
        · simp [hx] at hlive
        · exact ⟨hk, hlive⟩
    · rename_i hx
      obtain ⟨e, he, hdeadline⟩ := isStale_eq_false_iff.1 (by simpa using hx)
      rw [List.mem_cons, List.mem_cons, ih]
      simp only [isStale_eq_false_iff, lookup_erase]
      constructor
      · rintro (rfl | ⟨hk, e', ⟨-, he'⟩, hdeadline'⟩)
        · exact ⟨.inl rfl, e, he, hdeadline⟩
        · exact ⟨.inr hk, e', he', hdeadline'⟩
      · rintro ⟨rfl | hk, e', he', hdeadline'⟩
        · exact .inl rfl
        · -- a key of the same timer that counts has the same deadline, so it is the same key
          by_cases hhandle : k.handle = x.handle
          · rw [hhandle, he, Option.some.injEq] at he'
            obtain ⟨kd, kh⟩ := k
            obtain ⟨xd, xh⟩ := x
            simp only at hhandle hdeadline hdeadline'
            subst he'
            exact .inl (by rw [← hdeadline, ← hdeadline', hhandle])
          · exact .inr ⟨hk, e', ⟨hhandle, he'⟩, hdeadline'⟩

/-- A scan counts one key of a timer at most. -/
theorem nodup_hits (entries : List (Handle × Entry α)) (keys : List Key) :
    ((hits entries keys).map (·.handle)).Nodup := by
  induction keys generalizing entries with
  | nil => exact List.nodup_nil
  | cons k rest ih =>
    rw [hits]
    split
    · exact ih entries
    · refine List.nodup_cons.2 ⟨fun hk => ?_, ih _⟩
      obtain ⟨x, hx, hhandle⟩ := List.mem_map.1 hk
      obtain ⟨e, he, -⟩ := isStale_eq_false_iff.1 (mem_hits.1 hx).2
      exact (lookup_erase.1 he).1 hhandle

theorem hits_congr {entries entries' : List (Handle × Entry α)} {keys : List Key}
    (h : ∀ k ∈ keys, lookup k.handle entries = lookup k.handle entries') :
    hits entries keys = hits entries' keys := by
  induction keys generalizing entries entries' with
  | nil => rfl
  | cons k rest ih =>
    have hk := h k List.mem_cons_self
    have hrest := fun x hx => h x (List.mem_cons_of_mem k hx)
    have hstale : isStale entries k = isStale entries' k := by simp only [isStale, hk]
    have herase : hits (erase k.handle entries) rest = hits (erase k.handle entries') rest := by
      refine ih fun x hx => ?_
      by_cases hxk : x.handle = k.handle
      · simp [hxk]
      · rw [lookup_erase_of_ne hxk, lookup_erase_of_ne hxk, hrest x hx]
    rw [hits, hits, hstale, ih hrest, herase]

end Queue

end NetReactor.Timer
