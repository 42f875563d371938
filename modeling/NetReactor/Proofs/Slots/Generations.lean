import Mathlib.Algebra.Group.Nat.Defs
import NetReactor.Proofs.Slots.History

/-!
# How long an identifier stays good

A slot's generation counts its releases, in 32 bits. So **an identifier tells how often its slot had been
released when it was issued**: as long as no slot is released 2^32 times, none is issued twice and none
that was removed names anything again, however often its slot is filled anew (`lasting_calls`). The bound
is exact: a slot that was released 2^32 times issues its first identifier again.
-/

namespace NetReactor

namespace Arena

variable {α : Type}

/-! ## Slots under a visit -/

theorem getElem?_visitFrom {σ : Type} (f : TransportId → α → σ → α × σ) (i : Nat)
    (slots : List (Slot α)) (s : σ) (k : Nat) :
    ((visitFrom f i slots s).1[k]?).map (fun slot => (slot.generation, slot.value.isSome)) =
      (slots[k]?).map fun slot => (slot.generation, slot.value.isSome) := by
  induction slots generalizing i s k with
  | nil => rfl
  | cons slot slots ih =>
    obtain ⟨g, value⟩ := slot
    cases value <;> cases k <;> simp [visitFrom, ih]

/-- A visit changes values only, and neither fills a slot nor frees one. -/
theorem getElem?_map (a : Arena α) (f : TransportId → α → α) (i : Nat) :
    ((a.map f).slots[i]?).map (fun slot => (slot.generation, slot.value.isSome)) =
      (a.slots[i]?).map fun slot => (slot.generation, slot.value.isSome) := by
  have h := getElem?_visitFrom (fun id v (_ : Unit) => (f id v, ())) 0 a.slots.toList () i
  simpa [map, visit] using h

theorem contains_eq (a : Arena α) (id : TransportId) : a.contains id =
    ((a.slots[id.slot]?).map fun slot => (slot.generation, slot.value.isSome)).any
      (· = (id.generation, true)) := by
  rw [Bool.eq_iff_iff, contains_iff]
  simp only [get?_eq_some]
  rcases a.slots[id.slot]? with _ | ⟨g, _ | v⟩ <;> simp

theorem contains_map (a : Arena α) (f : TransportId → α → α) (id : TransportId) :
    (a.map f).contains id = a.contains id := by
  rw [contains_eq, getElem?_map, ← contains_eq]

theorem generation_map (a : Arena α) (f : TransportId → α → α) (i : Nat) :
    (a.map f).generation i = a.generation i := by
  have h := congrArg (Option.map Prod.fst) (getElem?_map a f i)
  simp only [Option.map_map] at h
  exact congrArg (Option.getD · 0) h

theorem sound_map {a : Arena α} (ha : a.Sound) (f : TransportId → α → α) : (a.map f).Sound where
  nodup := ha.nodup
  vacant i hi := by
    obtain ⟨g, hg⟩ := ha.vacant i hi
    have h := getElem?_map a f i
    rw [hg, Option.map_some, Option.map_eq_some_iff] at h
    obtain ⟨⟨g', v⟩, hslot, heq⟩ := h
    obtain rfl : v = none := by simpa using congrArg Prod.snd heq
    exact ⟨g', hslot⟩

theorem contains_modify (a : Arena α) (id : TransportId) (f : α → α) (id' : TransportId) :
    (a.modify id f).contains id' = a.contains id' := by
  rw [contains, get?_modify, Option.isSome_map]
  rfl

theorem contains_remove (a : Arena α) (id id' : TransportId) :
    (a.remove id).2.contains id' = (a.contains id' && decide (id' ≠ id)) := by
  rw [contains, get?_remove]
  by_cases hid : id' = id
  · simp [hid]
  · simp [hid, contains]

/-! ## The slot that is filled -/

/-- The slots on the stack have numbers of 32 bits, even where the table has outgrown them. -/
def Numbered (a : Arena α) : Prop := ∀ i ∈ a.free, i < UInt32.size

theorem Numbered.withVacancy {a : Arena α} (ha : a.Numbered) : a.withVacancy.2 < UInt32.size := by
  unfold Arena.withVacancy
  split
  · rename_i i rest hfree
    exact ha i (by simp [hfree])
  · exact UInt32.toNat_lt _

theorem Numbered.insertWith {a : Arena α} (ha : a.Numbered) (build : TransportId → α) :
    (a.insertWith build).2.Numbered := by
  intro i hi
  rw [free_insertWith] at hi
  exact ha i (List.mem_of_mem_tail hi)

theorem Numbered.remove {a : Arena α} (ha : a.Numbered) (id : TransportId) :
    (a.remove id).2.Numbered := by
  cases h : a.get? id with
  | none => rwa [remove_of_none h]
  | some v =>
    intro i hi
    have hfree : (a.remove id).2.free = id.slot :: a.free := by simp only [Arena.remove, h]
    rw [hfree, List.mem_cons] at hi
    rcases hi with rfl | hi
    · exact UInt32.toNat_lt _
    · exact ha i hi

/-- **The new identifier is the slot that is filled with that slot's generation, and it names what was
stored.** Every other slot is left as it is, except that one may be made. -/
structure Issues (a : Arena α) (build : TransportId → α) : Prop where
  generation : (a.insertWith build).1.generation = a.generation (a.insertWith build).1.slot
  stored : (a.insertWith build).2.get? (a.insertWith build).1 = some (build (a.insertWith build).1)
  others : ∀ i < a.slots.size, i ≠ (a.insertWith build).1.slot →
    (a.insertWith build).2.slots[i]? = a.slots[i]?

theorem issues_insertWith {a : Arena α} (ha : a.Sound) (hnumbered : a.Numbered)
    (build : TransportId → α) : a.Issues build := by
  obtain ⟨hslot, hgeneration⟩ := id_insertWith_of_lt ha build hnumbered.withVacancy
  refine ⟨hslot ▸ hgeneration, ?_, fun i hi hne => ?_⟩
  · rw [get?_eq_some, slots_insertWith ha, if_pos hslot, hslot, hgeneration]
  · rw [slots_insertWith ha, if_neg (hslot ▸ hne)]
    unfold withVacancy
    split
    · rfl
    · exact Array.getElem?_push_lt hi ▸ (Array.getElem?_eq_getElem hi).symm

/-- What is named after a value was stored is the new identifier, or was named before. -/
theorem contains_of_insertWith {a : Arena α} (ha : a.Sound) (hnumbered : a.Numbered)
    {build : TransportId → α} {id : TransportId} (h : (a.insertWith build).2.contains id = true) :
    id = (a.insertWith build).1 ∨ a.contains id = true := by
  obtain ⟨v, hv⟩ := contains_iff.1 h
  obtain ⟨hslot, hgeneration⟩ := id_insertWith_of_lt ha build hnumbered.withVacancy
  rw [get?_eq_some, slots_insertWith ha] at hv
  by_cases hid : id.slot = a.withVacancy.2
  · rw [if_pos hid] at hv
    have hg : a.generation id.slot = id.generation := congrArg Slot.generation (Option.some.inj hv)
    exact .inl (TransportId.eq_of_slot (hid.trans hslot.symm) (by rw [← hg, hid, hgeneration]))
  · rw [if_neg hid, ← get?_eq_some, get?_withVacancy] at hv
    exact .inr (contains_iff.2 ⟨v, hv⟩)

theorem contains_insertWith {a : Arena α} (ha : a.Sound) {build : TransportId → α}
    (hfits : (a.insertWith build).2.Fits) (id : TransportId) :
    (a.insertWith build).2.contains id = (decide (id = (a.insertWith build).1) || a.contains id) := by
  rw [contains, get?_insertWith ha hfits]
  by_cases hid : id = (a.insertWith build).1
  · simp [hid]
  · simp [hid, contains]

theorem get?_of_not_contains {a : Arena α} {id : TransportId} (h : a.contains id = false) :
    a.get? id = none :=
  Option.isNone_iff_eq_none.1 (by simpa [contains] using h)

/-- An identifier whose generation is not its slot's names nothing. -/
theorem not_contains_of_generation {a : Arena α} {id : TransportId}
    (h : id.generation ≠ a.generation id.slot) : a.contains id = false := by
  rw [Bool.eq_false_iff]
  intro hlive
  obtain ⟨v, hv⟩ := contains_iff.1 hlive
  exact h (generation_of_get? hv)

/-- Nothing can be done with an identifier. -/
structure Refuses (a : Arena α) (id : TransportId) : Prop where
  get : a.get? id = none
  contains : a.contains id = false
  modify : ∀ f, a.modify id f = a
  remove : a.remove id = (none, a)

theorem refuses_of_not_contains {a : Arena α} {id : TransportId} (h : a.contains id = false) :
    a.Refuses id where
  get := get?_of_not_contains h
  contains := h
  modify := modify_of_none (get?_of_not_contains h)
  remove := remove_of_none (get?_of_not_contains h)

end Arena

/-- An arena, the identifiers it issued and those that were removed, in order. -/
structure Register (α : Type) where
  arena : Arena α
  issued : List TransportId
  removed : List TransportId

namespace Register

variable {α : Type}

def start : Register α := ⟨.empty, [], []⟩

def call (g : Register α) : Arena.Call α → Register α
  | .insert build =>
    { g with
      arena := (g.arena.insertWith build).2
      issued := g.issued ++ [(g.arena.insertWith build).1] }
  | .modify id f => { g with arena := g.arena.modify id f }
  | .remove id =>
    { g with
      arena := (g.arena.remove id).2
      removed := if (g.arena.remove id).1.isSome then g.removed ++ [id] else g.removed }
  | .map f => { g with arena := g.arena.map f }

def calls (g : Register α) (cs : List (Arena.Call α)) : Register α := cs.foldl call g

/-- How often a slot was released. -/
def releases (g : Register α) (i : Nat) : Nat := g.removed.countP (·.slot = i)

/-- The identifier a slot was filled under first. -/
def first? (g : Register α) (i : Nat) : Option TransportId := g.issued.find? (·.slot = i)

/-! ## What every call keeps -/

/-- The account of the slots and identifiers. -/
structure Sound (g : Register α) : Prop where
  arena : g.arena.Sound
  numbered : g.arena.Numbered
  generation : ∀ i, g.arena.generation i = UInt32.ofNat (g.releases i)
  issued : ∀ id, g.arena.contains id = true → id ∈ g.issued
  passed : ∀ id ∈ g.removed, id ∈ g.issued ∧
    ∃ k < g.releases id.slot, id.generation = UInt32.ofNat k
  first : ∀ i id, g.first? i = some id → id.generation = 0
  settled : g.arena.Fits → ∀ id ∈ g.issued, g.arena.contains id = true ∨ id ∈ g.removed
  distinct : (∀ i, g.releases i < UInt32.size) → g.arena.Fits → g.issued.Nodup

theorem sound_start : (start : Register α).Sound where
  arena := Arena.sound_empty
  numbered i hi := absurd hi List.not_mem_nil
  generation _ := rfl
  issued id hid := by
    obtain ⟨v, hv⟩ := Arena.contains_iff.1 hid
    exact absurd (hv.symm.trans (Arena.get?_empty id)) (Option.some_ne_none v)
  passed id hid := absurd hid List.not_mem_nil
  first i id hid := absurd hid (Option.some_ne_none id).symm
  settled _ id hid := absurd hid List.not_mem_nil
  distinct _ _ := List.nodup_nil

/-- A slot that was never filled was never released. -/
theorem Sound.releases_of_first {g : Register α} (hg : g.Sound) {i : Nat} (h : g.first? i = none) :
    g.releases i = 0 := by
  rw [first?, List.find?_eq_none] at h
  rw [releases, List.countP_eq_zero]
  intro id hid
  exact h id (hg.passed id hid).1

/-- A removed identifier has a generation its slot has left behind, unless the generations went round. -/
theorem Sound.not_contains {g : Register α} (hg : g.Sound) {id : TransportId} (hid : id ∈ g.removed)
    (hbound : g.releases id.slot < UInt32.size) : g.arena.contains id = false := by
  obtain ⟨-, k, hk, hgeneration⟩ := hg.passed id hid
  refine Arena.not_contains_of_generation fun heq => Nat.ne_of_lt hk ?_
  rw [hgeneration, hg.generation] at heq
  have heq := congrArg UInt32.toNat heq
  rwa [UInt32.toNat_ofNat_of_lt' (Nat.lt_trans hk hbound), UInt32.toNat_ofNat_of_lt' hbound] at heq

/-- An identifier that is issued is new, unless the generations went round. -/
theorem Sound.fresh {g : Register α} (hg : g.Sound) {build : TransportId → α}
    (hbound : ∀ i, g.releases i < UInt32.size) (hfits : (g.arena.insertWith build).2.Fits) :
    (g.arena.insertWith build).1 ∉ g.issued := by
  intro hmem
  have hbefore := Nat.le_trans (Arena.size_le_insertWith g.arena build) hfits
  rcases hg.settled hbefore _ hmem with hlive | hremoved
  · obtain ⟨v, hv⟩ := Arena.contains_iff.1 hlive
    exact Option.some_ne_none v (hv.symm.trans (Arena.get?_of_slot_eq hg.arena hfits rfl))
  · obtain ⟨-, k, hk, hgeneration⟩ := hg.passed _ hremoved
    rw [(Arena.issues_insertWith hg.arena hg.numbered build).generation, hg.generation] at hgeneration
    have heq := congrArg UInt32.toNat hgeneration
    rw [UInt32.toNat_ofNat_of_lt' (hbound _),
      UInt32.toNat_ofNat_of_lt' (Nat.lt_trans hk (hbound _))] at heq
    exact Nat.ne_of_gt hk heq

theorem Sound.insert {g : Register α} (hg : g.Sound) (build : TransportId → α) :
    (g.call (.insert build)).Sound where
  arena := Arena.sound_insertWith hg.arena build
  numbered := hg.numbered.insertWith build
  generation i := (Arena.generation_insertWith hg.arena build i).trans (hg.generation i)
  issued id hid := by
    rcases Arena.contains_of_insertWith hg.arena hg.numbered hid with rfl | hbefore
    · exact List.mem_append_right _ (List.mem_singleton.2 rfl)
    · exact List.mem_append_left _ (hg.issued id hbefore)
  passed id hid := ⟨List.mem_append_left _ (hg.passed id hid).1, (hg.passed id hid).2⟩
  first i id hid := by
    rw [first?, call, List.find?_append] at hid
    cases hfirst : g.first? i with
    | some id' =>
      rw [first?] at hfirst
      rw [hfirst, Option.some_or] at hid
      exact hg.first i id (hfirst.trans hid)
    | none =>
      have hreleases := hg.releases_of_first hfirst
      rw [first?] at hfirst
      rw [hfirst, Option.none_or] at hid
      obtain rfl := List.mem_singleton.1 (List.mem_of_find?_eq_some hid)
      have hslot : (g.arena.insertWith build).1.slot = i := by simpa using List.find?_some hid
      rw [(Arena.issues_insertWith hg.arena hg.numbered build).generation, hslot, hg.generation,
        hreleases]
      rfl
  settled hfits id hid := by
    rw [call, Arena.contains_insertWith hg.arena hfits]
    rcases List.mem_append.1 hid with hbefore | hnew
    · have hfitted := Nat.le_trans (Arena.size_le_insertWith g.arena build) hfits
      rcases hg.settled hfitted id hbefore with hlive | hremoved
      · exact .inl (by rw [hlive, Bool.or_true])
      · exact .inr hremoved
    · exact .inl (by rw [List.mem_singleton.1 hnew, decide_eq_true rfl, Bool.true_or])
  distinct hbound hfits := by
    have hfitted := Nat.le_trans (Arena.size_le_insertWith g.arena build) hfits
    refine List.nodup_append.2 ⟨hg.distinct hbound hfitted, List.nodup_singleton _, ?_⟩
    intro id hbefore id' hnew heq
    rw [List.mem_singleton.1 hnew] at heq
    exact hg.fresh hbound hfits (heq ▸ hbefore)

/-- A call that neither fills a slot nor frees one changes nothing of the account. -/
theorem Sound.same {g g' : Register α} (hg : g.Sound) (hissued : g'.issued = g.issued)
    (hremoved : g'.removed = g.removed) (harena : g'.arena.Sound)
    (hfree : g'.arena.free = g.arena.free) (hsize : g'.arena.slots.size = g.arena.slots.size)
    (hgeneration : ∀ i, g'.arena.generation i = g.arena.generation i)
    (hcontains : ∀ id, g'.arena.contains id = g.arena.contains id) : g'.Sound := by
  obtain ⟨a, issued, removed⟩ := g
  obtain ⟨a', issued', removed'⟩ := g'
  obtain rfl : issued' = issued := hissued
  obtain rfl : removed' = removed := hremoved
  exact {
    arena := harena
    numbered := fun i hi => hg.numbered i (hfree ▸ hi)
    generation := fun i => (hgeneration i).trans (hg.generation i)
    issued := fun id hid => hg.issued id ((hcontains id).symm.trans hid)
    passed := hg.passed
    first := hg.first
    settled := fun hfits id hid => by
      rw [hcontains]
      exact hg.settled (Arena.fits_of_size hsize hfits) id hid
    distinct := fun hbound hfits => hg.distinct hbound (Arena.fits_of_size hsize hfits) }

theorem releases_append (g : Register α) (a : Arena α) (id : TransportId) (i : Nat) :
    ({ g with arena := a, removed := g.removed ++ [id] } : Register α).releases i =
      g.releases i + if i = id.slot then 1 else 0 := by
  rw [releases, List.countP_append, List.countP_singleton, releases]
  simp only [decide_eq_true_eq, eq_comm (a := i)]

theorem call_remove_of_some {g : Register α} {id : TransportId} {v : α}
    (h : g.arena.get? id = some v) : g.call (.remove id) =
      { g with arena := (g.arena.remove id).2, removed := g.removed ++ [id] } := by
  simp only [call, Arena.fst_remove_of_some h, Option.isSome_some, if_true]

theorem call_remove_of_none {g : Register α} {id : TransportId} (h : g.arena.get? id = none) :
    g.call (.remove id) = g := by
  simp only [call, Arena.remove_of_none h, Option.isSome_none, Bool.false_eq_true, if_false]

theorem Sound.remove {g : Register α} (hg : g.Sound) (id : TransportId) :
    (g.call (.remove id)).Sound := by
  cases hv : g.arena.get? id with
  | none => rwa [call_remove_of_none hv]
  | some v =>
    have hlive : id ∈ g.issued := hg.issued id (Arena.contains_iff.2 ⟨v, hv⟩)
    rw [call_remove_of_some hv]
    refine {
      arena := Arena.sound_remove hg.arena id
      numbered := hg.numbered.remove id
      generation := fun i => ?_
      issued := fun id' hid => ?_
      passed := fun id' hid => ?_
      first := hg.first
      settled := fun hfits id' hid => ?_
      distinct := fun hbound hfits =>
        hg.distinct (fun i => ?_) (Arena.fits_of_size (Arena.size_remove g.arena id) hfits) }
    · rw [releases_append]
      simp only [Arena.generation_remove hv, hg.generation]
      split
      · exact (UInt32.ofNat_add _ _).symm
      · rw [Nat.add_zero]
    · simp only [Arena.contains_remove, Bool.and_eq_true] at hid
      exact hg.issued id' hid.1
    · rw [releases_append]
      rcases List.mem_append.1 hid with hbefore | hnew
      · obtain ⟨hissued, k, hk, hgeneration⟩ := hg.passed id' hbefore
        exact ⟨hissued, k, Nat.lt_add_right _ hk, hgeneration⟩
      · obtain rfl := List.mem_singleton.1 hnew
        rw [if_pos rfl]
        refine ⟨hlive, g.releases id'.slot, Nat.lt_succ_self _, ?_⟩
        exact (Arena.generation_of_get? hv).trans (hg.generation _)
    · simp only [Arena.contains_remove, Bool.and_eq_true, decide_eq_true_eq]
      by_cases hsame : id' = id
      · exact .inr (List.mem_append_right _ (List.mem_singleton.2 hsame))
      · rcases hg.settled (Arena.fits_of_size (Arena.size_remove g.arena id) hfits) id' hid with hlive | hremoved
        · exact .inl ⟨hlive, hsame⟩
        · exact .inr (List.mem_append_left _ hremoved)
    · have hle := hbound i
      rw [releases_append] at hle
      exact Nat.lt_of_le_of_lt (Nat.le_add_right _ _) hle

theorem Sound.call {g : Register α} (hg : g.Sound) (c : Arena.Call α) : (g.call c).Sound := by
  cases c with
  | insert build => exact hg.insert build
  | remove id => exact hg.remove id
  | modify id f =>
    have hfree : (g.arena.modify id f).free = g.arena.free := by
      unfold Arena.modify
      split <;> rfl
    exact hg.same rfl rfl (Arena.sound_modify hg.arena id f) hfree (Arena.size_modify _ _ _)
      (Arena.generation_modify _ _ _) (Arena.contains_modify _ _ _)
  | map f =>
    exact hg.same rfl rfl (Arena.sound_map hg.arena f) rfl (Arena.slots_size_map _ _)
      (Arena.generation_map _ _) (Arena.contains_map _ _)

theorem Sound.calls {g : Register α} (hg : g.Sound) (cs : List (Arena.Call α)) :
    (g.calls cs).Sound := by
  induction cs generalizing g with
  | nil => exact hg
  | cons c cs ih => exact ih (hg.call c)

/-! ## A slot that goes round -/

section Round

variable (build : TransportId → α)

/-- Fills the first slot and empties it, `n` times. -/
def rounds : Nat → List (Arena.Call α)
  | 0 => []
  | n + 1 => rounds n ++ [.insert build, .remove ⟨0, UInt32.ofNat n⟩]

/-- What the first slot is after that. -/
def afterRounds : Nat → Arena α
  | 0 => .empty
  | n + 1 => ⟨#[⟨UInt32.ofNat (n + 1), none⟩], [0], 0⟩

theorem calls_append (g : Register α) (cs cs' : List (Arena.Call α)) :
    g.calls (cs ++ cs') = (g.calls cs).calls cs' :=
  List.foldl_append

theorem calls_rounds (n : Nat) : start.calls (rounds build n) =
    ⟨afterRounds n, (List.range n).map (⟨0, UInt32.ofNat ·⟩),
      (List.range n).map (⟨0, UInt32.ofNat ·⟩)⟩ := by
  induction n with
  | zero => rfl
  | succ n ih =>
    rw [rounds, calls_append, ih, List.range_succ, List.map_append]
    cases n with
    | zero => rfl
    | succ n =>
      simp [calls, call, afterRounds, Arena.insertWith, Arena.occupy, Arena.remove, Arena.get?,
        Arena.slot?, Option.filter, TransportId.slot, UInt32.ofNat_add]

theorem releases_rounds (n : Nat) : (start.calls (rounds build n)).releases 0 = n := by
  have hslot : ∀ id ∈ (start.calls (rounds build n)).removed, decide (id.slot = 0) = true := by
    simp [calls_rounds, TransportId.slot]
  rw [releases, List.countP_eq_length.2 hslot, calls_rounds]
  simp

/-- Between the rounds there is one slot, and what it is filled under next counts the rounds. -/
theorem insertWith_rounds (n : Nat) :
    (start.calls (rounds build (n + 1))).arena.slots.size = 1 ∧
      ((start.calls (rounds build (n + 1))).arena.insertWith build).1 = ⟨0, UInt32.ofNat (n + 1)⟩ := by
  rw [calls_rounds]
  exact ⟨rfl, rfl⟩

end Round

/-! ## What identifiers are good for -/

/-- A new identifier is the number of the slot that is filled and how often that slot was released, modulo
2^32. One that was removed is refused, and no two are equal, until a slot was released 2^32 times; then the
slot begins anew with the identifier it issued first. To tell slots apart takes no more than 2^32 of them. -/
structure Lasting (g : Register α) : Prop where
  issues : ∀ build, g.arena.Issues build
  counts : ∀ build, (g.arena.insertWith build).1.generation.toNat =
    g.releases (g.arena.insertWith build).1.slot % 2 ^ 32
  refused : ∀ id ∈ g.removed, g.releases id.slot < 2 ^ 32 → g.arena.Refuses id
  distinct : (∀ i, g.releases i < 2 ^ 32) → g.arena.Fits → g.issued.Nodup
  again : ∀ build, g.releases (g.arena.insertWith build).1.slot = 2 ^ 32 →
    g.first? (g.arena.insertWith build).1.slot = some (g.arena.insertWith build).1

theorem Sound.counts {g : Register α} (hg : g.Sound) (build : TransportId → α) :
    (g.arena.insertWith build).1.generation.toNat =
      g.releases (g.arena.insertWith build).1.slot % 2 ^ 32 := by
  rw [(Arena.issues_insertWith hg.arena hg.numbered build).generation, hg.generation,
    UInt32.toNat_ofNat']

/-- The first identifier of a slot comes again when its generation is zero again. -/
theorem Sound.again {g : Register α} (hg : g.Sound) {build : TransportId → α}
    (h : g.releases (g.arena.insertWith build).1.slot = 2 ^ 32) :
    g.first? (g.arena.insertWith build).1.slot = some (g.arena.insertWith build).1 := by
  cases hfirst : g.first? (g.arena.insertWith build).1.slot with
  | none => exact absurd ((hg.releases_of_first hfirst).symm.trans h) (by decide)
  | some id =>
    have hslot : id.slot = (g.arena.insertWith build).1.slot := by
      simpa using List.find?_some hfirst
    have hzero : (g.arena.insertWith build).1.generation = 0 := by
      rw [← UInt32.toNat_inj, hg.counts, h]
      rfl
    rw [TransportId.eq_of_slot hslot ((hg.first _ _ hfirst).trans hzero.symm)]

theorem Sound.lasting {g : Register α} (hg : g.Sound) : g.Lasting where
  issues := Arena.issues_insertWith hg.arena hg.numbered
  counts := hg.counts
  refused _ hid hbound := Arena.refuses_of_not_contains (hg.not_contains hid hbound)
  distinct := hg.distinct
  again _ := hg.again

/-- A run of one slot in which its first identifier, long since removed, is issued again and names
the value that was stored last. -/
def GoesRound (g : Register α) (build : TransportId → α) : Prop :=
  g.arena.slots.size = 1 ∧ g.releases 0 = 2 ^ 32 ∧ (g.arena.insertWith build).1 ∈ g.removed ∧
    (g.arena.insertWith build).2.get? (g.arena.insertWith build).1 =
      some (build (g.arena.insertWith build).1)

theorem goesRound_rounds (build : TransportId → α) :
    (start.calls (rounds build (2 ^ 32))).GoesRound build := by
  obtain ⟨n, hn⟩ : ∃ n, 2 ^ 32 = n + 1 := ⟨2 ^ 32 - 1, rfl⟩
  have hg : (start.calls (rounds build (n + 1))).Sound := sound_start.calls _
  obtain ⟨hsize, hid⟩ := insertWith_rounds build n
  rw [GoesRound, hn]
  have hzero : UInt32.ofNat (n + 1) = UInt32.ofNat 0 := by
    rw [← hn]
    rfl
  refine ⟨hsize, releases_rounds build _, ?_, (hg.lasting.issues build).stored⟩
  rw [hid, calls_rounds, hzero]
  exact List.mem_map.2 ⟨0, List.mem_range.2 (Nat.succ_pos n), rfl⟩

/-- **Whatever is stored, changed and removed from an empty arena on, its identifiers last until a slot was
released 2^32 times**, and no longer: in some run that ends just there, a removed identifier names
something again. -/
theorem lasting_calls (cs : List (Arena.Call α)) (build : TransportId → α) :
    (start.calls cs).Lasting ∧ ∃ cs', (start.calls cs').GoesRound build :=
  ⟨(sound_start.calls cs).lasting, rounds build (2 ^ 32), goesRound_rounds build⟩

end Register

end NetReactor
