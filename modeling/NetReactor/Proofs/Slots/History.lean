import NetReactor.Proofs.Slots

/-!
# What a history of calls makes of an arena

An arena that is filled and emptied in any order keeps its account of itself: **its stack holds every
empty slot once and no other, in the order in which the slots were freed, and its counter counts the
rest**. What an identifier names can then be told from the calls alone: what was stored under it and
since changed, until it was removed. The walks over an arena meet just these identifiers, by slot.
-/

namespace NetReactor

namespace Arena

variable {α : Type}

/-! ## The empty slots and the counter -/

/-- Slot `i` is there and holds nothing. -/
def vacant (a : Arena α) (i : Nat) : Bool := a.slots[i]?.any (·.value.isNone)

theorem vacant_iff {a : Arena α} {i : Nat} :
    a.vacant i = true ↔ ∃ g, a.slots[i]? = some ⟨g, none⟩ := by
  unfold vacant
  rcases h : a.slots[i]? with _ | ⟨g, _ | v⟩ <;> simp

/-- The stack names every empty slot, and the counter counts the others. -/
structure Exact (a : Arena α) : Prop extends Sound a where
  listed : ∀ i, a.vacant i = true → i ∈ a.free
  counted : a.size = a.slots.countP (·.value.isSome)

theorem exact_empty : (empty : Arena α).Exact where
  toSound := sound_empty
  listed := by simp [vacant, empty]
  counted := rfl

theorem Exact.mem_free {a : Arena α} (ha : a.Exact) {i : Nat} : i ∈ a.free ↔ a.vacant i = true :=
  ⟨fun hi => vacant_iff.2 (ha.vacant i hi), ha.listed i⟩

theorem free_insertWith (a : Arena α) (build : TransportId → α) :
    (a.insertWith build).2.free = a.free.tail := by
  unfold insertWith
  split <;> simp_all [occupy]

theorem slots_size_insertWith (a : Arena α) (build : TransportId → α) :
    (a.insertWith build).2.slots.size =
      if a.free = [] then a.slots.size + 1 else a.slots.size := by
  unfold insertWith
  split <;> simp_all [occupy]

/-- The slot at hand is the one that was freed last; without one it is a new one. -/
theorem slot_insertWith {a : Arena α} (ha : a.Sound) {build : TransportId → α}
    (hfits : (a.insertWith build).2.Fits) :
    (a.insertWith build).1.slot = a.free.head?.getD a.slots.size := by
  rw [(id_insertWith ha hfits).1]
  rw [Fits, slots_size_insertWith] at hfits
  unfold withVacancy
  split
  · rename_i i rest hfree
    simp [hfree]
  · rename_i hfree
    rw [if_pos hfree] at hfits
    simp [hfree, UInt32.toNat_ofNat_of_lt' hfits]

/-- Before a value is stored its slot is empty, be it freed or new. -/
theorem empty_withVacancy {a : Arena α} (ha : a.Sound) {build : TransportId → α}
    (hfits : (a.insertWith build).2.Fits) :
    ∃ g, a.withVacancy.1.slots[(a.insertWith build).1.slot]? = some ⟨g, none⟩ := by
  rw [slot_insertWith ha hfits]
  unfold withVacancy
  split
  · rename_i i rest hfree
    simpa [hfree] using ha.vacant i (by simp [hfree])
  · rename_i hfree
    exact ⟨0, by simp [hfree]⟩

theorem vacant_withVacancy {a : Arena α} {i : Nat} (hi : i ≠ a.free.head?.getD a.slots.size) :
    a.withVacancy.1.vacant i = a.vacant i := by
  unfold withVacancy
  split
  · rfl
  · rename_i hfree
    have hne : i ≠ a.slots.size := by simpa [hfree] using hi
    simp [vacant, Array.getElem?_push, hne]

theorem vacant_insertWith {a : Arena α} (ha : a.Sound) {build : TransportId → α}
    (hfits : (a.insertWith build).2.Fits) (i : Nat) :
    (a.insertWith build).2.vacant i = (a.vacant i && i != (a.insertWith build).1.slot) := by
  have hslot := (id_insertWith ha hfits).1
  by_cases hi : i = (a.insertWith build).1.slot
  · have hvalue := slots_insertWith ha build i
    rw [if_pos (hi.trans hslot)] at hvalue
    simp [vacant, hvalue, ← hi]
  · have hsame := slots_insertWith ha build i
    rw [if_neg (fun h => hi (h.trans hslot.symm))] at hsame
    have hkept := vacant_withVacancy (fun h => hi (h.trans (slot_insertWith ha hfits).symm))
    have hsame : (a.insertWith build).2.vacant i = a.withVacancy.1.vacant i := by
      simp only [vacant, hsame]
    simp [hsame, hkept, hi]

theorem size_after_insertWith (a : Arena α) (build : TransportId → α) :
    (a.insertWith build).2.size = a.size + 1 := by
  unfold insertWith
  split <;> rfl

theorem countP_withVacancy (a : Arena α) :
    a.withVacancy.1.slots.countP (·.value.isSome) = a.slots.countP (·.value.isSome) := by
  unfold withVacancy
  split
  · rfl
  · simp

/-- **An arena keeps its account when it stores.** -/
theorem exact_insertWith {a : Arena α} (ha : a.Exact) {build : TransportId → α}
    (hfits : (a.insertWith build).2.Fits) : (a.insertWith build).2.Exact where
  toSound := sound_insertWith ha.toSound build
  listed i hi := by
    rw [vacant_insertWith ha.toSound hfits] at hi
    obtain ⟨hvacant, hne⟩ : a.vacant i = true ∧ i ≠ (a.insertWith build).1.slot := by
      simpa using hi
    rw [slot_insertWith ha.toSound hfits] at hne
    have hmem := ha.listed i hvacant
    rw [free_insertWith]
    cases hfree : a.free with
    | nil => simp [hfree] at hmem
    | cons j rest =>
      rw [hfree] at hmem hne
      exact (List.mem_cons.1 hmem).resolve_left (by simpa using hne)
  counted := by
    obtain ⟨hlt, -⟩ := slot_withVacancy ha.toSound
    obtain ⟨g, hempty⟩ := empty_withVacancy ha.toSound hfits
    rw [(id_insertWith ha.toSound hfits).1] at hempty
    obtain ⟨_, hempty⟩ := Array.getElem?_eq_some_iff.1 hempty
    rw [size_after_insertWith, ha.counted, ← countP_withVacancy, insertWith_eq]
    simp [occupy, Array.setIfInBounds, hlt, Array.countP_set, hempty]

theorem modify_of_none {a : Arena α} {id : TransportId} (h : a.get? id = none) (f : α → α) :
    a.modify id f = a := by
  simp only [modify, h]

theorem remove_of_none {a : Arena α} {id : TransportId} (h : a.get? id = none) :
    a.remove id = (none, a) := by
  simp only [remove, h]

theorem fst_remove_of_some {a : Arena α} {id : TransportId} {v : α} (h : a.get? id = some v) :
    (a.remove id).1 = some v := by
  simp only [remove, h]

theorem vacant_modify (a : Arena α) (id : TransportId) (f : α → α) (i : Nat) :
    (a.modify id f).vacant i = a.vacant i := by
  cases h : a.get? id with
  | none => rw [modify_of_none h]
  | some v =>
    unfold vacant
    rw [slots_modify h]
    split
    · rename_i hi
      simp [hi, get?_eq_some.1 h]
    · rfl

theorem exact_modify {a : Arena α} (ha : a.Exact) (id : TransportId) (f : α → α) :
    (a.modify id f).Exact := by
  cases h : a.get? id with
  | none => rwa [modify_of_none h]
  | some v =>
    obtain ⟨hlt, hget⟩ := Array.getElem?_eq_some_iff.1 (get?_eq_some.1 h)
    refine ⟨sound_modify ha.toSound id f, fun i hi => ?_, ?_⟩
    · rw [vacant_modify] at hi
      simpa only [modify, h] using ha.listed i hi
    · have hpos : 0 < a.slots.countP (·.value.isSome) :=
        Array.countP_pos_iff.2 ⟨_, Array.getElem_mem hlt, by simp [hget]⟩
      simp only [modify, h, ha.counted, Array.setIfInBounds, hlt, dif_pos, Array.countP_set, hget]
      simp
      omega

theorem vacant_remove {a : Arena α} {id : TransportId} {v : α} (h : a.get? id = some v) (i : Nat) :
    (a.remove id).2.vacant i = (a.vacant i || i == id.slot) := by
  unfold vacant
  rw [slots_remove h]
  by_cases hi : i = id.slot <;> simp [hi]

/-- **An arena keeps its account when it gives a value away.** -/
theorem exact_remove {a : Arena α} (ha : a.Exact) (id : TransportId) : (a.remove id).2.Exact := by
  cases h : a.get? id with
  | none => rwa [remove_of_none h]
  | some v =>
    obtain ⟨hlt, hget⟩ := Array.getElem?_eq_some_iff.1 (get?_eq_some.1 h)
    refine ⟨sound_remove ha.toSound id, fun i hi => ?_, ?_⟩
    · have hfree : (a.remove id).2.free = id.slot :: a.free := by simp only [remove, h]
      rw [hfree, List.mem_cons]
      have hor : a.vacant i = true ∨ i = id.slot := by simpa [vacant_remove h] using hi
      rcases hor with hvacant | heq
      · exact .inr (ha.listed i hvacant)
      · exact .inl heq
    · simp only [remove, h, ha.counted, Array.setIfInBounds, hlt, dif_pos, Array.countP_set, hget]
      simp

/-! ## Walks -/

/-- The live values among the slots from number `i` on. -/
def itemsFrom (i : Nat) (slots : List (Slot α)) : List (TransportId × α) :=
  (slots.zipIdx i).filterMap fun (slot, i) =>
    slot.value.map fun v => (⟨UInt32.ofNat i, slot.generation⟩, v)

theorem itemsFrom_none (i : Nat) (g : UInt32) (slots : List (Slot α)) :
    itemsFrom i (⟨g, none⟩ :: slots) = itemsFrom (i + 1) slots := by
  simp [itemsFrom]

theorem itemsFrom_some (i : Nat) (g : UInt32) (v : α) (slots : List (Slot α)) :
    itemsFrom i (⟨g, some v⟩ :: slots) = (⟨UInt32.ofNat i, g⟩, v) :: itemsFrom (i + 1) slots := by
  simp [itemsFrom]

theorem length_itemsFrom (i : Nat) (slots : List (Slot α)) :
    (itemsFrom i slots).length = slots.countP (·.value.isSome) := by
  induction slots generalizing i with
  | nil => rfl
  | cons slot slots ih =>
    obtain ⟨g, value⟩ := slot
    cases value with
    | none => simp [itemsFrom_none, ih]
    | some v => simp [itemsFrom_some, ih]

theorem le_of_mem_itemsFrom {i : Nat} {slots : List (Slot α)} (h : i + slots.length ≤ UInt32.size) :
    ∀ p ∈ itemsFrom i slots, i ≤ p.1.slot := by
  induction slots generalizing i with
  | nil => simp [itemsFrom]
  | cons slot slots ih =>
    obtain ⟨g, value⟩ := slot
    rw [List.length_cons] at h
    have later := ih (i := i + 1) (by omega)
    cases value with
    | none =>
      intro p hp
      rw [itemsFrom_none] at hp
      exact Nat.le_of_succ_le (later p hp)
    | some v =>
      intro p hp
      rw [itemsFrom_some, List.mem_cons] at hp
      rcases hp with rfl | hp
      · have hlt : i < UInt32.size := by omega
        simp [TransportId.slot, UInt32.toNat_ofNat_of_lt' hlt]
      · exact Nat.le_of_succ_le (later p hp)

theorem pairwise_itemsFrom {i : Nat} {slots : List (Slot α)} (h : i + slots.length ≤ UInt32.size) :
    (itemsFrom i slots).Pairwise (·.1.slot < ·.1.slot) := by
  induction slots generalizing i with
  | nil => simp [itemsFrom]
  | cons slot slots ih =>
    obtain ⟨g, value⟩ := slot
    rw [List.length_cons] at h
    have rest := ih (i := i + 1) (by omega)
    cases value with
    | none => rwa [itemsFrom_none]
    | some v =>
      rw [itemsFrom_some, List.pairwise_cons]
      refine ⟨fun p hp => ?_, rest⟩
      have hlt : i < UInt32.size := by omega
      have hle : i + 1 ≤ p.1.slot := le_of_mem_itemsFrom (by omega) p hp
      have hslot : (UInt32.ofNat i).toNat = i := UInt32.toNat_ofNat_of_lt' hlt
      exact lt_of_eq_of_lt hslot hle

/-- **The identifiers are listed by slot.** -/
theorem pairwise_ids {a : Arena α} (hfits : a.Fits) : a.ids.Pairwise (·.slot < ·.slot) :=
  List.pairwise_map.2 (pairwise_itemsFrom (by simpa using hfits))

/-- An arena without an empty slot has as many values as slots. -/
theorem length_toList {a : Arena α} (ha : a.Exact) (hfull : a.free = []) :
    a.toList.length = a.slots.size := by
  have hall : ∀ slot ∈ a.slots, slot.value.isSome = true := by
    intro slot hslot
    obtain ⟨i, hlt, rfl⟩ := Array.mem_iff_getElem.1 hslot
    have hvacant : a.vacant i ≠ true := fun h => by simpa [hfull] using ha.listed i h
    cases hvalue : a.slots[i].value with
    | none => exact absurd (by simp [vacant, hlt, hvalue]) hvacant
    | some v => rfl
  have hcount := length_itemsFrom 0 a.slots.toList
  rw [Array.countP_toList, Array.countP_eq_size.2 hall] at hcount
  exact hcount

/-- A walk over named values in their order. -/
def walk {σ : Type} (f : TransportId → α → σ → α × σ) :
    List (TransportId × α) → σ → List (TransportId × α) × σ
  | [], s => ([], s)
  | (id, v) :: items, s =>
    let (v, s) := f id v s
    let (items, s) := walk f items s
    ((id, v) :: items, s)

theorem items_visitFrom {σ : Type} (f : TransportId → α → σ → α × σ) (i : Nat)
    (slots : List (Slot α)) (s : σ) :
    (itemsFrom i (visitFrom f i slots s).1, (visitFrom f i slots s).2) =
      walk f (itemsFrom i slots) s := by
  induction slots generalizing i s with
  | nil => rfl
  | cons slot slots ih =>
    obtain ⟨g, value⟩ := slot
    cases value with
    | none => simp [visitFrom, itemsFrom_none, ← ih]
    | some v => simp [visitFrom, itemsFrom_some, walk, ← ih]

/-- **A visit meets the live values in the order in which they are listed.** -/
theorem toList_visit {σ : Type} (a : Arena α) (f : TransportId → α → σ → α × σ) (s : σ) :
    ((a.visit f s).1.toList, (a.visit f s).2) = walk f a.toList s :=
  items_visitFrom f 0 a.slots.toList s

theorem walk_pure (f : TransportId → α → α) (items : List (TransportId × α)) :
    (walk (fun id v (_ : Unit) => (f id v, ())) items ()).1 =
      items.map fun (id, v) => (id, f id v) := by
  induction items with
  | nil => rfl
  | cons p items ih => simp [walk, ih]

theorem toList_map (a : Arena α) (f : TransportId → α → α) :
    (a.map f).toList = a.toList.map fun (id, v) => (id, f id v) := by
  rw [← walk_pure, ← toList_visit]
  rfl

/-- A visit changes values only. -/
theorem shape_visitFrom {σ : Type} (f : TransportId → α → σ → α × σ) (i : Nat)
    (slots : List (Slot α)) (s : σ) :
    (visitFrom f i slots s).1.map (·.value.isSome) = slots.map (·.value.isSome) := by
  induction slots generalizing i s with
  | nil => rfl
  | cons slot slots ih =>
    obtain ⟨g, value⟩ := slot
    cases value <;> simp [visitFrom, ih]

theorem shape_map (a : Arena α) (f : TransportId → α → α) :
    (a.map f).slots.toList.map (·.value.isSome) = a.slots.toList.map (·.value.isSome) :=
  shape_visitFrom _ 0 a.slots.toList ()

theorem slots_size_map (a : Arena α) (f : TransportId → α → α) :
    (a.map f).slots.size = a.slots.size := by
  simpa using congrArg List.length (shape_map a f)

theorem vacant_map (a : Arena α) (f : TransportId → α → α) (i : Nat) :
    (a.map f).vacant i = a.vacant i := by
  have hshape := congrArg (·[i]?) (shape_map a f)
  simp only [List.getElem?_map, Array.getElem?_toList] at hshape
  unfold vacant
  cases h : a.slots[i]? with
  | none => simp_all
  | some slot =>
    obtain ⟨slot', h', heq⟩ : ∃ slot', (a.map f).slots[i]? = some slot' ∧
        slot'.value.isSome = slot.value.isSome := by simpa [h] using hshape
    rw [h']
    simp only [Option.any_some, ← Option.not_isSome, heq]

theorem exact_map {a : Arena α} (ha : a.Exact) (f : TransportId → α → α) : (a.map f).Exact where
  nodup := ha.nodup
  vacant i hi := vacant_iff.1 ((vacant_map a f i).trans (ha.mem_free.1 hi))
  listed i hi := ha.listed i ((vacant_map a f i).symm.trans hi)
  counted := by
    have hcount := congrArg (List.countP (· == true)) (shape_map a f)
    rw [List.countP_map, List.countP_map] at hcount
    rw [← Array.countP_toList]
    refine Eq.trans (ha.counted.trans ?_) (hcount.symm.trans ?_)
    · rw [← Array.countP_toList]
      exact List.countP_congr fun _ _ => by simp
    · exact List.countP_congr fun _ _ => by simp

theorem get?_map {a : Arena α} (hfits : a.Fits) (f : TransportId → α → α) (id : TransportId) :
    (a.map f).get? id = (a.get? id).map (f id) := by
  have hfits' : (a.map f).Fits := by rwa [Fits, slots_size_map]
  rw [Option.ext_iff]
  intro w
  rw [← mem_toList hfits', toList_map, List.mem_map, Option.map_eq_some_iff]
  constructor
  · rintro ⟨⟨id', v⟩, hmem, heq⟩
    obtain ⟨rfl, rfl⟩ := Prod.mk.inj heq
    exact ⟨v, (mem_toList hfits).1 hmem, rfl⟩
  · rintro ⟨v, hv, rfl⟩
    exact ⟨(id, v), (mem_toList hfits).2 hv, rfl⟩

end Arena

/-! ## Calls -/

/-- What changes an arena. Looking something up, or listing, leaves it as it is. -/
inductive Arena.Call (α : Type) where
  | insert (build : TransportId → α)
  | modify (id : TransportId) (f : α → α)
  | remove (id : TransportId)
  | map (f : TransportId → α → α)

/-- An arena, and what the calls on it say: what each identifier stands for, and the slots that were
freed, the latest first. -/
structure History (α : Type) where
  arena : Arena α
  named : TransportId → Option α
  freed : List Nat

namespace History

variable {α : Type}

def start : History α := ⟨.empty, fun _ => none, []⟩

/-- The record is kept from the identifiers that are handed out and in, without a look at the slots. -/
def call (h : History α) : Arena.Call α → History α
  | .insert build =>
    { h with
      arena := (h.arena.insertWith build).2
      named := fun id => if id = (h.arena.insertWith build).1 then some (build id) else h.named id }
  | .modify id f =>
    { h with
      arena := h.arena.modify id f
      named := fun id' => if id' = id then (h.named id).map f else h.named id' }
  | .remove id =>
    { arena := (h.arena.remove id).2
      named := fun id' => if id' = id then none else h.named id'
      freed := if (h.named id).isSome then id.slot :: h.freed else h.freed }
  | .map f => { h with arena := h.arena.map f, named := fun id => (h.named id).map (f id) }

def calls (h : History α) (cs : List (Arena.Call α)) : History α := cs.foldl call h

/-- The arena agrees with the record. -/
structure Sound (h : History α) : Prop where
  exact : h.arena.Exact
  fits : h.arena.Fits
  named : ∀ id, h.arena.get? id = h.named id
  free : h.arena.free = (h.freed.filter h.arena.vacant).eraseDups

theorem sound_start : (start : History α).Sound where
  exact := Arena.exact_empty
  fits := Nat.zero_le _
  named := Arena.get?_empty
  free := rfl

theorem slots_size_le_call (h : History α) (c : Arena.Call α) :
    h.arena.slots.size ≤ (h.call c).arena.slots.size := by
  cases c with
  | insert build => exact Arena.size_le_insertWith _ _
  | modify id f => exact Nat.le_of_eq (Arena.size_modify _ _ _).symm
  | remove id => exact Nat.le_of_eq (Arena.size_remove _ _).symm
  | map f => exact Nat.le_of_eq (Arena.slots_size_map _ _).symm

theorem slots_size_le_calls (h : History α) (cs : List (Arena.Call α)) :
    h.arena.slots.size ≤ (h.calls cs).arena.slots.size := by
  induction cs generalizing h with
  | nil => exact Nat.le_refl _
  | cons c cs ih => exact Nat.le_trans (slots_size_le_call h c) (ih (h.call c))

/-! ### The order of the free slots -/

theorem head?_eraseDups (l : List Nat) : l.eraseDups.head? = l.head? := by
  cases l with
  | nil => rfl
  | cons i rest => simp [List.eraseDups_cons]

theorem tail_eraseDups (l : List Nat) (n : Nat) :
    l.eraseDups.tail = (l.filter (· != l.eraseDups.head?.getD n)).eraseDups := by
  rw [head?_eraseDups]
  cases l with
  | nil => rfl
  | cons i rest =>
    rw [List.head?_cons, Option.getD_some, List.filter_cons_of_neg (by simp), List.eraseDups_cons]
    rfl

/-- A slot that is taken leaves the order of the others as it is. -/
theorem free_insert {h : History α} (hh : h.Sound) {build : TransportId → α}
    (hfits : (h.arena.insertWith build).2.Fits) :
    (h.arena.insertWith build).2.free =
      (h.freed.filter (h.arena.insertWith build).2.vacant).eraseDups := by
  have hvacant : (h.arena.insertWith build).2.vacant = fun i =>
      i != h.arena.free.head?.getD h.arena.slots.size && h.arena.vacant i := by
    funext i
    rw [Arena.vacant_insertWith hh.exact.toSound hfits,
      Arena.slot_insertWith hh.exact.toSound hfits, Bool.and_comm]
  rw [hvacant, ← List.filter_filter, Arena.free_insertWith, hh.free]
  exact tail_eraseDups _ _

/-- A slot that is freed comes before the others. -/
theorem free_remove {h : History α} (hh : h.Sound) {id : TransportId} {v : α}
    (hv : h.arena.get? id = some v) :
    (h.arena.remove id).2.free =
      ((id.slot :: h.freed).filter (h.arena.remove id).2.vacant).eraseDups := by
  have hnot : h.arena.vacant id.slot = false := by
    simp [Arena.vacant, Arena.get?_eq_some.1 hv]
  have hvacant : (h.arena.remove id).2.vacant = fun i => h.arena.vacant i || i == id.slot :=
    funext fun i => Arena.vacant_remove hv i
  have hothers : (h.freed.filter fun i => h.arena.vacant i || i == id.slot).filter
      (fun i => !i == id.slot) = h.freed.filter h.arena.vacant := by
    rw [List.filter_filter]
    refine List.filter_congr fun i _ => ?_
    by_cases hi : i = id.slot
    · simp [hi, hnot]
    · have hne : (i == id.slot) = false := beq_eq_false_iff_ne.2 hi
      simp [hne]
  have hfree : (h.arena.remove id).2.free = id.slot :: h.arena.free := by
    simp only [Arena.remove, hv]
  rw [hfree, hvacant, List.filter_cons_of_pos (by simp), List.eraseDups_cons, hothers, hh.free]

/-- **Every call keeps the arena and the record in agreement.** -/
theorem Sound.call {h : History α} (hh : h.Sound) (c : Arena.Call α)
    (hfits : (h.call c).arena.Fits) : (h.call c).Sound := by
  cases c with
  | insert build =>
    refine ⟨Arena.exact_insertWith hh.exact hfits, hfits, fun id => ?_, free_insert hh hfits⟩
    simp only [History.call, ← hh.named]
    exact Arena.get?_insertWith hh.exact.toSound hfits id
  | modify id f =>
    refine ⟨Arena.exact_modify hh.exact id f, hfits, fun id' => ?_, ?_⟩
    · simp only [History.call, Arena.get?_modify, hh.named]
      by_cases heq : id' = id
      · simp [heq]
      · simp [heq]
    · have hvacant := funext (Arena.vacant_modify h.arena id f)
      simp only [History.call, hvacant, ← hh.free]
      unfold Arena.modify
      split <;> rfl
  | remove id =>
    refine ⟨Arena.exact_remove hh.exact id, hfits, fun id' => ?_, ?_⟩
    · rw [History.call, Arena.get?_remove, hh.named]
    · cases hv : h.arena.get? id with
      | none =>
        have hnamed : h.named id = none := (hh.named id).symm.trans hv
        simp only [History.call, hnamed, Arena.remove_of_none hv]
        exact hh.free
      | some v =>
        have hnamed : h.named id = some v := (hh.named id).symm.trans hv
        simpa only [History.call, hnamed, Option.isSome_some, if_true] using free_remove hh hv
  | map f =>
    refine ⟨Arena.exact_map hh.exact f, hfits, fun id => ?_, ?_⟩
    · simp only [History.call, Arena.get?_map hh.fits, hh.named]
    · have hvacant := funext (Arena.vacant_map h.arena f)
      simp only [History.call, hvacant, ← hh.free]
      rfl

theorem Sound.calls {h : History α} (hh : h.Sound) (cs : List (Arena.Call α))
    (hfits : (h.calls cs).arena.Fits) : (h.calls cs).Sound := by
  induction cs generalizing h with
  | nil => exact hh
  | cons c cs ih =>
    have hnext : (h.call c).arena.Fits := Nat.le_trans (slots_size_le_calls (h.call c) cs) hfits
    exact ih (hh.call c hnext) hfits

/-! ### What every history comes to -/

/-- Storing takes the slot that was freed last, or else a new one; no identifier stands for anything
in that slot before, and all others stand for what they did. -/
structure Stores (h : History α) (build : TransportId → α) : Prop where
  slot : (h.arena.insertWith build).1.slot =
    (h.freed.find? h.arena.vacant).getD h.arena.slots.size
  grows : (h.arena.insertWith build).2.slots.size =
    if h.arena.free = [] then h.arena.slots.size + 1 else h.arena.slots.size
  unused : ∀ id, id.slot = (h.arena.insertWith build).1.slot → h.named id = none
  get : ∀ id, (h.arena.insertWith build).2.get? id =
    if id = (h.arena.insertWith build).1 then some (build id) else h.named id

/-- An identifier is answered by what it stands for; to change or remove it concerns nothing else. One
that stands for nothing is refused. -/
structure Names (h : History α) (id : TransportId) : Prop where
  get : h.arena.get? id = h.named id
  contains : h.arena.contains id = (h.named id).isSome
  modify : ∀ f id', (h.arena.modify id f).get? id' =
    if id' = id then (h.named id).map f else h.named id'
  taken : (h.arena.remove id).1 = h.named id
  remove : ∀ id', (h.arena.remove id).2.get? id' = if id' = id then none else h.named id'
  refused : h.named id = none → (∀ f, h.arena.modify id f = h.arena) ∧ h.arena.remove id = (none, h.arena)

/-- The identifiers that stand for something are listed by slot, with what they stand for, and a visit
meets them in that order. -/
structure Lists (h : History α) : Prop where
  ids : h.arena.ids.Pairwise (·.slot < ·.slot)
  mem_ids : ∀ id, id ∈ h.arena.ids ↔ (h.named id).isSome
  items : h.arena.toList = h.arena.ids.filterMap fun id => (h.named id).map (id, ·)
  length : h.arena.toList.length = h.arena.size
  visit : ∀ {σ : Type} (f : TransportId → α → σ → α × σ) (s : σ),
    ((h.arena.visit f s).1.toList, (h.arena.visit f s).2) = Arena.walk f h.arena.toList s

/-- The stack holds every empty slot once and no other, the latest first, and the counter counts the
rest. -/
structure Lawful (h : History α) : Prop where
  nodup : h.arena.free.Nodup
  free : ∀ i, i ∈ h.arena.free ↔ ∃ g, h.arena.slots[i]? = some ⟨g, none⟩
  order : h.arena.free = (h.freed.filter h.arena.vacant).eraseDups
  size : h.arena.size = h.arena.slots.countP (·.value.isSome)
  isEmpty : h.arena.isEmpty = true ↔ ∀ id, h.named id = none
  stores : ∀ build, (h.arena.insertWith build).2.Fits → h.Stores build
  names : ∀ id, h.Names id
  lists : h.Lists

theorem Sound.stores {h : History α} (hh : h.Sound) {build : TransportId → α}
    (hfits : (h.arena.insertWith build).2.Fits) : h.Stores build where
  slot := by
    rw [Arena.slot_insertWith hh.exact.toSound hfits, hh.free, head?_eraseDups, List.head?_filter]
  grows := Arena.slots_size_insertWith _ _
  unused id hid := (hh.named id).symm.trans (Arena.get?_of_slot_eq hh.exact.toSound hfits hid)
  get id := by rw [Arena.get?_insertWith hh.exact.toSound hfits, hh.named]

theorem Sound.names {h : History α} (hh : h.Sound) (id : TransportId) : h.Names id where
  get := hh.named id
  contains := congrArg Option.isSome (hh.named id)
  modify f id' := by
    rw [Arena.get?_modify, hh.named]
    by_cases heq : id' = id
    · simp [heq]
    · simp [heq]
  taken := by
    rw [← hh.named]
    cases hv : h.arena.get? id with
    | none => rw [Arena.remove_of_none hv]
    | some v => exact Arena.fst_remove_of_some hv
  remove id' := by rw [Arena.get?_remove, hh.named]
  refused hnone := by
    have hnone : h.arena.get? id = none := (hh.named id).trans hnone
    exact ⟨Arena.modify_of_none hnone, Arena.remove_of_none hnone⟩

theorem Sound.mem_ids {h : History α} (hh : h.Sound) (id : TransportId) :
    id ∈ h.arena.ids ↔ (h.named id).isSome := by
  rw [← hh.named, Option.isSome_iff_exists]
  constructor
  · intro hid
    obtain ⟨⟨id', v⟩, hmem, heq⟩ := List.mem_map.1 hid
    obtain rfl : id' = id := heq
    exact ⟨v, (Arena.mem_toList hh.fits).1 hmem⟩
  · rintro ⟨v, hv⟩
    exact Arena.mem_ids_of_get? hv

theorem Sound.length {h : History α} (hh : h.Sound) : h.arena.toList.length = h.arena.size := by
  rw [hh.exact.counted, ← Array.countP_toList]
  exact Arena.length_itemsFrom 0 _

theorem Sound.lists {h : History α} (hh : h.Sound) : h.Lists where
  ids := Arena.pairwise_ids hh.fits
  mem_ids := hh.mem_ids
  items := by
    have hvalue : ∀ p ∈ h.arena.toList, (h.named p.1).map (p.1, ·) = some p := by
      intro ⟨id, v⟩ hmem
      rw [← hh.named, (Arena.mem_toList hh.fits).1 hmem, Option.map_some]
    rw [Arena.ids, List.filterMap_map]
    calc h.arena.toList
      _ = h.arena.toList.filterMap some := List.filterMap_some.symm
      _ = _ := List.filterMap_congr fun p hp => (hvalue p hp).symm
  length := hh.length
  visit f s := Arena.toList_visit h.arena f s

theorem Sound.isEmpty {h : History α} (hh : h.Sound) :
    h.arena.isEmpty = true ↔ ∀ id, h.named id = none := by
  rw [Arena.isEmpty, beq_iff_eq, ← hh.length, List.length_eq_zero_iff,
    List.eq_nil_iff_forall_not_mem]
  constructor
  · intro hnone id
    rw [← hh.named, Option.eq_none_iff_forall_ne_some]
    exact fun v hv => hnone (id, v) (Arena.mem_toList_of_get? hv)
  · rintro hnone ⟨id, v⟩ hmem
    rw [Arena.mem_toList hh.fits, hh.named, hnone] at hmem
    exact Option.some_ne_none v hmem.symm

/-- **Whatever is stored, changed and removed from an empty arena on, under whichever identifiers, as
long as its slots can be numbered.** -/
theorem lawful_calls (cs : List (Arena.Call α)) (hfits : (start.calls cs).arena.Fits) :
    (start.calls cs).Lawful := by
  have hsound := sound_start.calls cs hfits
  refine ⟨hsound.exact.nodup, fun i => ?_, hsound.free, hsound.exact.counted, hsound.isEmpty,
    fun build => hsound.stores, hsound.names, hsound.lists⟩
  rw [hsound.exact.mem_free, Arena.vacant_iff]

/-- Two of three values are removed, one of them again, and the next takes the slot that was freed last. -/
theorem lawful_with_reused_slot :
    let h := (start : History Nat).calls
      [.insert fun _ => 10, .insert fun _ => 11, .insert fun _ => 12, .remove ⟨0, 0⟩, .remove ⟨1, 0⟩,
        .remove ⟨1, 0⟩, .insert fun _ => 13]
    h.arena.Fits ∧ h.Lawful ∧ h.arena.toList = [(⟨1, 1⟩, 13), (⟨2, 0⟩, 12)] ∧ h.arena.free = [0] :=
  ⟨by decide, lawful_calls _ (by decide), by decide, by decide⟩

end History

end NetReactor
