import Mathlib.Data.List.Nodup
import NetReactor.Arena

/-!
# What identifiers name

As long as no slot number exceeds 32 bits, **an identifier names what was stored under it until it is
removed, and nothing else changes what it names**. The arena must keep its stack of empty slots right
for that (`Sound`), which every operation does. A slot's generation advances with each removal from it
and with nothing else.
-/

namespace NetReactor

theorem TransportId.eq_of_slot {a b : TransportId} (hslot : a.slot = b.slot)
    (hgeneration : a.generation = b.generation) : a = b := by
  obtain ⟨i, g⟩ := a
  obtain ⟨j, g'⟩ := b
  obtain rfl : i = j := UInt32.toNat_inj.1 hslot
  obtain rfl : g = g' := hgeneration
  rfl

namespace Arena

variable {α : Type}

/-- The slots on the stack are empty, and each is there once. -/
structure Sound (a : Arena α) : Prop where
  nodup : a.free.Nodup
  vacant : ∀ i ∈ a.free, ∃ g, a.slots[i]? = some ⟨g, none⟩

/-- How often a slot was released, modulo 2^32; not at all if there is no such slot. -/
def generation (a : Arena α) (i : Nat) : UInt32 := (a.slots[i]?.map (·.generation)).getD 0

/-- The slots can all be named. A slot is made only when none is free, so there are as many as values were
stored at once. -/
abbrev Fits (a : Arena α) : Prop := a.slots.size ≤ UInt32.size

theorem fits_of_size {a a' : Arena α} (hsize : a'.slots.size = a.slots.size) (h : a'.Fits) : a.Fits :=
  Nat.le_trans (Nat.le_of_eq hsize.symm) h

theorem get?_eq_some {a : Arena α} {id : TransportId} {v : α} :
    a.get? id = some v ↔ a.slots[id.slot]? = some ⟨id.generation, some v⟩ := by
  unfold get? slot?
  cases h : a.slots[id.slot]? with
  | none => simp
  | some s =>
    obtain ⟨g, v'⟩ := s
    by_cases hg : g = id.generation
    · simp [Option.filter, hg]
    · simp [Option.filter, hg]

theorem generation_of_get? {a : Arena α} {id : TransportId} {v : α} (h : a.get? id = some v) :
    id.generation = a.generation id.slot := by
  simp [generation, get?_eq_some.1 h]

theorem get?_empty (id : TransportId) : (empty : Arena α).get? id = none := by
  simp [get?, slot?, empty]

theorem sound_empty : (empty : Arena α).Sound := ⟨List.nodup_nil, by simp [empty]⟩

theorem contains_iff {a : Arena α} {id : TransportId} :
    a.contains id = true ↔ ∃ v, a.get? id = some v := by
  rw [contains, Option.isSome_iff_exists]

/-! ## Storing -/

/-- The arena with a slot at hand, and that slot: an empty one, unless the slots are too many. -/
def withVacancy (a : Arena α) : Arena α × Nat :=
  match a.free with
  | i :: rest => ({ a with free := rest }, i)
  | [] => ({ a with slots := a.slots.push ⟨0, none⟩ }, (UInt32.ofNat a.slots.size).toNat)

theorem insertWith_eq (a : Arena α) (build : TransportId → α) :
    a.insertWith build = a.withVacancy.1.occupy a.withVacancy.2 build := by
  obtain ⟨slots, free⟩ := a
  cases free <;> rfl

theorem generation_withVacancy (a : Arena α) (i : Nat) :
    a.withVacancy.1.generation i = a.generation i := by
  unfold withVacancy
  split
  · rfl
  · by_cases hi : i = a.slots.size
    · simp [generation, hi]
    · simp [generation, Array.getElem?_push, hi]

/-- A slot that is made is empty, so nothing is named anew. -/
theorem get?_withVacancy (a : Arena α) (id : TransportId) :
    a.withVacancy.1.get? id = a.get? id := by
  unfold withVacancy
  split
  · rfl
  · rw [Option.ext_iff]
    intro v
    rw [get?_eq_some, get?_eq_some]
    by_cases hi : id.slot = a.slots.size
    · simp [hi]
    · simp [Array.getElem?_push, hi]

/-- The slot at hand is there, and not on the stack. -/
theorem slot_withVacancy {a : Arena α} (ha : a.Sound) :
    a.withVacancy.2 < a.withVacancy.1.slots.size ∧ a.withVacancy.2 ∉ a.withVacancy.1.free := by
  unfold withVacancy
  split
  · rename_i i rest hfree
    obtain ⟨g, hg⟩ := ha.vacant i (by simp [hfree])
    have hnodup := ha.nodup
    rw [hfree] at hnodup
    exact ⟨(Array.getElem?_eq_some_iff.1 hg).1, (List.nodup_cons.1 hnodup).1⟩
  · rename_i hfree
    refine ⟨?_, by simp [hfree]⟩
    rw [Array.size_push, UInt32.toNat_ofNat']
    exact Nat.lt_succ_of_le (Nat.mod_le _ _)

theorem sound_withVacancy {a : Arena α} (ha : a.Sound) : a.withVacancy.1.Sound := by
  unfold withVacancy
  split
  · rename_i i rest hfree
    obtain ⟨hnodup, hvacant⟩ := ha
    rw [hfree] at hnodup hvacant
    exact ⟨(List.nodup_cons.1 hnodup).2, fun j hj => hvacant j (List.mem_cons_of_mem i hj)⟩
  · rename_i hfree
    exact ⟨ha.nodup, by simp [hfree]⟩

theorem size_insertWith (a : Arena α) (build : TransportId → α) :
    (a.insertWith build).2.slots.size = a.withVacancy.1.slots.size := by
  rw [insertWith_eq]
  simp [occupy]

theorem size_le_insertWith (a : Arena α) (build : TransportId → α) :
    a.slots.size ≤ (a.insertWith build).2.slots.size := by
  rw [size_insertWith]
  unfold withVacancy
  split <;> simp

theorem slots_insertWith {a : Arena α} (ha : a.Sound) (build : TransportId → α) (i : Nat) :
    (a.insertWith build).2.slots[i]? =
      if i = a.withVacancy.2 then
        some ⟨a.generation i, some (build (a.insertWith build).1)⟩
      else a.withVacancy.1.slots[i]? := by
  obtain ⟨hlt, -⟩ := slot_withVacancy ha
  rw [insertWith_eq, ← generation_withVacancy]
  by_cases hi : i = a.withVacancy.2
  · subst hi
    simp [occupy, generation, hlt]
  · simp [occupy, hi, Ne.symm hi]

theorem sound_insertWith {a : Arena α} (ha : a.Sound) (build : TransportId → α) :
    (a.insertWith build).2.Sound := by
  obtain ⟨-, hnot⟩ := slot_withVacancy ha
  have hfree : (a.insertWith build).2.free = a.withVacancy.1.free := by
    rw [insertWith_eq]
    rfl
  refine ⟨hfree ▸ (sound_withVacancy ha).nodup, fun i hi => ?_⟩
  rw [hfree] at hi
  have hne : i ≠ a.withVacancy.2 := fun heq => hnot (heq ▸ hi)
  rw [slots_insertWith ha, if_neg hne]
  exact (sound_withVacancy ha).vacant i hi

theorem generation_insertWith {a : Arena α} (ha : a.Sound) (build : TransportId → α) (i : Nat) :
    (a.insertWith build).2.generation i = a.generation i := by
  rw [generation, slots_insertWith ha]
  split
  · rfl
  · exact generation_withVacancy a i

/-- The new identifier names the slot at hand, if that slot's number is one of 32 bits. -/
theorem id_insertWith_of_lt {a : Arena α} (ha : a.Sound) (build : TransportId → α)
    (hbound : a.withVacancy.2 < UInt32.size) :
    (a.insertWith build).1.slot = a.withVacancy.2 ∧
      (a.insertWith build).1.generation = a.generation a.withVacancy.2 := by
  obtain ⟨hlt, -⟩ := slot_withVacancy ha
  rw [insertWith_eq, ← generation_withVacancy]
  refine ⟨?_, by simp [occupy, generation, hlt]⟩
  simp only [occupy, TransportId.slot, UInt32.toNat_ofNat']
  exact Nat.mod_eq_of_lt hbound

theorem id_insertWith {a : Arena α} (ha : a.Sound) {build : TransportId → α}
    (hfits : (a.insertWith build).2.Fits) :
    (a.insertWith build).1.slot = a.withVacancy.2 ∧
      (a.insertWith build).1.generation = a.generation a.withVacancy.2 := by
  obtain ⟨hlt, -⟩ := slot_withVacancy ha
  exact id_insertWith_of_lt ha build (Nat.lt_of_lt_of_le hlt (size_insertWith a build ▸ hfits))

/-- Nothing is named by the new identifier's slot before. -/
theorem get?_of_slot_eq {a : Arena α} (ha : a.Sound) {build : TransportId → α}
    (hfits : (a.insertWith build).2.Fits) {id : TransportId}
    (hid : id.slot = (a.insertWith build).1.slot) : a.get? id = none := by
  obtain ⟨hslot, -⟩ := id_insertWith ha hfits
  rw [Option.eq_none_iff_forall_ne_some]
  intro v hv
  have hv := get?_eq_some.1 hv
  rw [hid, hslot] at hv
  rw [Fits, size_insertWith] at hfits
  unfold withVacancy at hv hfits
  split at hv
  · rename_i i rest hfree
    obtain ⟨g, hg⟩ := ha.vacant i (by simp [hfree])
    simp [hg] at hv
  · rename_i hfree
    simp only [hfree, Array.size_push] at hfits
    rw [UInt32.toNat_ofNat_of_lt' hfits] at hv
    simp at hv

/-- **The new identifier names what was stored, and every other what it named before.** -/
theorem get?_insertWith {a : Arena α} (ha : a.Sound) {build : TransportId → α}
    (hfits : (a.insertWith build).2.Fits) (id : TransportId) :
    (a.insertWith build).2.get? id =
      if id = (a.insertWith build).1 then some (build id) else a.get? id := by
  obtain ⟨hslot, hgeneration⟩ := id_insertWith ha hfits
  have hiff : id = (a.insertWith build).1 ↔
      id.slot = a.withVacancy.2 ∧ id.generation = a.generation id.slot := by
    constructor
    · rintro rfl
      exact ⟨hslot, hslot ▸ hgeneration⟩
    · rintro ⟨hs, hg⟩
      exact TransportId.eq_of_slot (hs.trans hslot.symm) (by rw [hg, hs, hgeneration])
  rw [Option.ext_iff]
  intro v
  rw [get?_eq_some, slots_insertWith ha]
  by_cases hid : id.slot = a.withVacancy.2
  · have hnone := get?_of_slot_eq ha hfits (hid.trans hslot.symm)
    by_cases hg : id.generation = a.generation id.slot
    · rw [if_pos hid, if_pos (hiff.2 ⟨hid, hg⟩), ← hiff.2 ⟨hid, hg⟩, hg]
      simp
    · rw [if_pos hid, if_neg (fun heq => hg (hiff.1 heq).2), hnone]
      simp [Ne.symm hg]
  · rw [if_neg hid, if_neg (fun heq => hid (hiff.1 heq).1), ← get?_withVacancy, get?_eq_some]

/-! ## Changing and removing -/

theorem slots_modify {a : Arena α} {id : TransportId} {v : α} (h : a.get? id = some v) (f : α → α)
    (i : Nat) : (a.modify id f).slots[i]? =
      if i = id.slot then some ⟨id.generation, some (f v)⟩ else a.slots[i]? := by
  obtain ⟨hlt, hget⟩ := Array.getElem?_eq_some_iff.1 (get?_eq_some.1 h)
  simp only [modify, h]
  by_cases hi : i = id.slot
  · subst hi
    simp [hlt]
  · simp [hi, Ne.symm hi]

theorem size_modify (a : Arena α) (id : TransportId) (f : α → α) :
    (a.modify id f).slots.size = a.slots.size := by
  unfold modify
  split <;> simp

theorem get?_modify (a : Arena α) (id : TransportId) (f : α → α) (id' : TransportId) :
    (a.modify id f).get? id' = (a.get? id').map fun v => if id' = id then f v else v := by
  cases h : a.get? id with
  | none =>
    have hsame : a.modify id f = a := by simp only [modify, h]
    rw [hsame]
    by_cases hid : id' = id
    · simp [hid, h]
    · simp [hid]
  | some v =>
    have hv := get?_eq_some.1 h
    rw [Option.ext_iff]
    intro w
    rw [get?_eq_some, slots_modify h, Option.map_eq_some_iff]
    simp only [get?_eq_some]
    by_cases hid : id'.slot = id.slot
    · rw [if_pos hid, hid, hv]
      by_cases hg : id'.generation = id.generation
      · have heq : id' = id := TransportId.eq_of_slot hid hg
        simp [heq]
      · have hne : id' ≠ id := fun heq => hg (heq ▸ rfl)
        simp [hne, Ne.symm hg]
    · have hne : id' ≠ id := fun heq => hid (heq ▸ rfl)
      simp [hid, hne]

theorem generation_modify (a : Arena α) (id : TransportId) (f : α → α) (i : Nat) :
    (a.modify id f).generation i = a.generation i := by
  cases h : a.get? id with
  | none => simp only [modify, h]
  | some v =>
    unfold generation
    rw [slots_modify h]
    split
    · rename_i hi
      simp [hi, get?_eq_some.1 h]
    · rfl

theorem sound_modify {a : Arena α} (ha : a.Sound) (id : TransportId) (f : α → α) :
    (a.modify id f).Sound := by
  cases h : a.get? id with
  | none => simpa only [modify, h] using ha
  | some v =>
    have hfree : (a.modify id f).free = a.free := by simp only [modify, h]
    refine ⟨hfree ▸ ha.nodup, fun i hi => ?_⟩
    obtain ⟨g, hg⟩ := ha.vacant i (hfree ▸ hi)
    have hne : i ≠ id.slot := by
      rintro rfl
      simp [get?_eq_some.1 h] at hg
    exact ⟨g, by rw [slots_modify h, if_neg hne, hg]⟩

theorem slots_remove {a : Arena α} {id : TransportId} {v : α} (h : a.get? id = some v) (i : Nat) :
    (a.remove id).2.slots[i]? =
      if i = id.slot then some ⟨id.generation + 1, none⟩ else a.slots[i]? := by
  obtain ⟨hlt, hget⟩ := Array.getElem?_eq_some_iff.1 (get?_eq_some.1 h)
  simp only [remove, h]
  by_cases hi : i = id.slot
  · subst hi
    simp [hlt]
  · simp [hi, Ne.symm hi]

theorem size_remove (a : Arena α) (id : TransportId) :
    (a.remove id).2.slots.size = a.slots.size := by
  unfold remove
  split <;> simp

/-- **A removed identifier names nothing, and every other what it named before.** -/
theorem get?_remove (a : Arena α) (id id' : TransportId) :
    (a.remove id).2.get? id' = if id' = id then none else a.get? id' := by
  cases h : a.get? id with
  | none =>
    have hsame : (a.remove id).2 = a := by simp only [remove, h]
    rw [hsame]
    by_cases hid : id' = id
    · simp [hid, h]
    · simp [hid]
  | some v =>
    have hv := get?_eq_some.1 h
    rw [Option.ext_iff]
    intro w
    rw [get?_eq_some, slots_remove h]
    by_cases hid : id'.slot = id.slot
    · rw [if_pos hid]
      by_cases heq : id' = id
      · simp [heq]
      · have hg : ¬ id.generation = id'.generation := fun hg => heq (TransportId.eq_of_slot hid hg.symm)
        have hnone : a.get? id' ≠ some w := fun hw => by
          have hw := get?_eq_some.1 hw
          rw [hid, hv] at hw
          simp [hg] at hw
        simp [heq, hnone]
    · have hne : id' ≠ id := fun heq => hid (heq ▸ rfl)
      rw [if_neg hid, if_neg hne, get?_eq_some]

theorem generation_remove {a : Arena α} {id : TransportId} {v : α} (h : a.get? id = some v)
    (i : Nat) : (a.remove id).2.generation i =
      if i = id.slot then a.generation i + 1 else a.generation i := by
  unfold generation
  rw [slots_remove h]
  split
  · rename_i hi
    simp [hi, get?_eq_some.1 h]
  · rfl

theorem sound_remove {a : Arena α} (ha : a.Sound) (id : TransportId) : (a.remove id).2.Sound := by
  cases h : a.get? id with
  | none => simpa only [remove, h] using ha
  | some v =>
    have hfree : (a.remove id).2.free = id.slot :: a.free := by simp only [remove, h]
    have hnot : id.slot ∉ a.free := fun hmem => by
      obtain ⟨g, hg⟩ := ha.vacant _ hmem
      simp [get?_eq_some.1 h] at hg
    refine ⟨hfree ▸ List.nodup_cons.2 ⟨hnot, ha.nodup⟩, fun i hi => ?_⟩
    rw [slots_remove h]
    split
    · exact ⟨_, rfl⟩
    · rename_i hne
      rw [hfree] at hi
      exact ha.vacant i ((List.mem_cons.1 hi).resolve_left hne)

/-! ## The list of what is stored -/

/-- A live value is listed, however many slots there are. -/
theorem mem_toList_of_get? {a : Arena α} {id : TransportId} {v : α} (h : a.get? id = some v) :
    (id, v) ∈ a.toList := by
  rw [get?_eq_some] at h
  refine List.mem_filterMap.2 ⟨(⟨id.generation, some v⟩, id.slot), ?_, by simp [TransportId.slot]⟩
  exact List.mem_zipIdx_iff_getElem?.2 (by simpa using h)

theorem mem_ids_of_get? {a : Arena α} {id : TransportId} {v : α} (h : a.get? id = some v) :
    id ∈ a.ids :=
  List.mem_map.2 ⟨(id, v), mem_toList_of_get? h, rfl⟩

theorem mem_toList {a : Arena α} (hfits : a.Fits) {id : TransportId} {v : α} :
    (id, v) ∈ a.toList ↔ a.get? id = some v := by
  refine ⟨fun hmem => ?_, mem_toList_of_get?⟩
  rw [get?_eq_some]
  obtain ⟨⟨⟨g, v'⟩, i⟩, hat, hx⟩ := List.mem_filterMap.1 hmem
  obtain ⟨w, rfl, hid⟩ := Option.map_eq_some_iff.1 hx
  obtain ⟨rfl, rfl⟩ := Prod.mk.inj hid
  have hi := List.mem_zipIdx_iff_getElem?.1 hat
  have hlt : i < UInt32.size := by
    obtain ⟨hlt, -⟩ := List.getElem?_eq_some_iff.1 hi
    exact Nat.lt_of_lt_of_le (by simpa using hlt) hfits
  have hslot : (UInt32.ofNat i).toNat = i := UInt32.toNat_ofNat_of_lt' hlt
  simpa only [TransportId.slot, hslot, Array.getElem?_toList] using hi

end Arena

end NetReactor
