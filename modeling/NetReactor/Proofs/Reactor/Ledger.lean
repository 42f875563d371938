import Mathlib.Logic.Relation
import NetReactor.Event
import NetReactor.Proofs.Slots
import NetReactor.Transport

/-!
# What is told of each connection

The connections that a run has made, in order, the slots they are kept in, and what was told
(`Ledger`). **Of every connection the same story is told**: success, packets, and its loss once it is out of
its slot (`Tale`). Identifiers tell connections apart as long as no slot is released 2^32 times, since a
slot's generation counts its losses; and a slot is empty before its next connection is announced.
-/

namespace NetReactor

namespace Event

/-- Whether an event is about a connection of that identifier. -/
def about (id : TransportId) (e : Event) : Bool := e.handle?.any (·.id = id)

/-- Whether an event tells of a loss from a slot. -/
def frees (slot : Nat) : Event → Bool
  | .connectionLost _ _ h => h.id.slot = slot
  | _ => false

/-- Whether an event announces a connection. -/
def announces (h : Handle) (e : Event) : Prop :=
  ∃ channel status, e = .connectResponse channel status (some h)

/-- Whether an event tells of a connection's loss. -/
def loses (h : Handle) (e : Event) : Prop := ∃ channel status, e = .connectionLost channel status h

end Event

/-- A run's connections, its slots, and its events. -/
structure Ledger where
  handles : List Handle
  transports : Arena Transport
  log : List Emission

namespace Ledger

/-- What was told about an identifier. -/
def events (v : Ledger) (id : TransportId) : List Event :=
  (v.log.map (·.event)).filter (·.about id)

/-- How often a slot was released. -/
def released (v : Ledger) (slot : Nat) : Nat := v.log.countP (·.event.frees slot)

/-- The connection that is kept under an identifier. -/
def holder (v : Ledger) (id : TransportId) : Option Handle := (v.transports.get? id).map (·.handle)

def tell (v : Ledger) (m : Emission) : Ledger := { v with log := v.log ++ [m] }

/-- A connection's loss is told, and its slot released. -/
def lost (v : Ledger) (id : TransportId) (m : Emission) : Ledger :=
  { v.tell m with transports := (v.transports.remove id).2 }

/-- One change. -/
inductive Move : Ledger → Ledger → Prop
  | keep {v : Ledger} (id : TransportId) {f : Transport → Transport} (hf : ∀ t, (f t).handle = t.handle) :
      Move v { v with transports := v.transports.modify id f }
  | refuse {v : Ledger} {m : Emission} (hm : m.event.handle? = none) : Move v (v.tell m)
  | packet {v : Ledger} {id : TransportId} {h : Handle} {m : Emission} (hh : v.holder id = some h)
      {channel : Nat} {payload : Bytes} (hm : m.event = .packet channel h payload) : Move v (v.tell m)
  | announce {v : Ledger} {build : TransportId → Transport} {h : Handle} {m : Emission}
      (hbuild : ∀ id, (build id).handle.id = id)
      (hh : (build (v.transports.insertWith build).1).handle = h)
      (hm : m.event = .connectResponse h.channel Status.ok (some h)) :
      Move v { handles := v.handles ++ [h]
               transports := (v.transports.insertWith build).2
               log := v.log ++ [m] }
  | lose {v : Ledger} {id : TransportId} {h : Handle} {m : Emission} {status : Status}
      (hh : v.holder id = some h) (hm : m.event = .connectionLost h.channel status h) :
      Move v (v.lost id m)

/-- The beginning of a connection's story: success, and packets. -/
def Begun (h : Handle) (events : List Event) : Prop :=
  ∃ packets, events = .connectResponse h.channel Status.ok (some h) :: packets ∧
    ∀ e ∈ packets, ∃ channel payload, e = .packet channel h payload

/-- The whole story: a connection is in its slot, or its loss was told last. -/
inductive Tale (v : Ledger) (h : Handle) : Prop
  | held (hin : v.holder h.id = some h) (hbegun : Begun h (v.events h.id))
  | lost (hout : v.holder h.id = none)
      (hgone : h.id.generation.toNat < v.released h.id.slot) {begun : List Event} {status : Status}
      (hevents : v.events h.id = begun ++ [.connectionLost h.channel status h]) (hbegun : Begun h begun)

/-- Of two connections in one slot, the first one's loss is told before the second is announced. -/
def Ordered (log : List Emission) (h h' : Handle) : Prop :=
  h.id.slot = h'.id.slot → ∀ {before m after}, log = before ++ m :: after → m.event.announces h' →
    ∃ m' ∈ before, m'.event.loses h

/-- What every change keeps. -/
structure Sound (v : Ledger) : Prop where
  arena : v.transports.Sound
  generation : ∀ slot, v.transports.generation slot = UInt32.ofNat (v.released slot)
  held : ∀ {id h}, v.holder id = some h → h.id = id ∧ h ∈ v.handles
  distinct : (v.handles.map (·.id)).Nodup
  known : ∀ m ∈ v.log, ∀ {h}, m.event.handle? = some h → h ∈ v.handles
  tale : ∀ h ∈ v.handles, v.Tale h
  ordered : v.handles.Pairwise (Ordered v.log)

/-! ## What one more event adds -/

variable {v v' w : Ledger} {m : Emission} {h h' : Handle}

theorem events_tell (v : Ledger) (m : Emission) (id : TransportId) :
    (v.tell m).events id = v.events id ++ if m.event.about id then [m.event] else [] := by
  simp only [events, tell, List.map_append, List.filter_append, List.map_cons, List.map_nil]
  congr 1
  by_cases hm : m.event.about id = true <;> simp [hm]

theorem released_tell (v : Ledger) (m : Emission) (slot : Nat) :
    (v.tell m).released slot = v.released slot + if m.event.frees slot then 1 else 0 := by
  simp only [released, tell, List.countP_append, List.countP_singleton]

theorem about_of_handle {e : Event} (he : e.handle? = some h) (id : TransportId) :
    e.about id = decide (h.id = id) := by
  simp [Event.about, he]

theorem not_about_of_none {e : Event} (he : e.handle? = none) (id : TransportId) : e.about id = false := by
  simp [Event.about, he]

/-- A new event is the last of a log, or splits the log as before. -/
theorem split_append {log before after : List Emission} {m n : Emission}
    (h : log ++ [n] = before ++ m :: after) :
    (log = before ∧ n = m) ∨ ∃ rest, log = before ++ m :: rest := by
  rcases List.eq_nil_or_concat after with rfl | ⟨rest, last, rfl⟩
  · obtain ⟨hlog, hn⟩ := List.append_inj' h rfl
    exact .inl ⟨hlog, List.head_eq_of_cons_eq hn⟩
  · refine .inr ⟨rest, ?_⟩
    have h : log ++ [n] = (before ++ m :: rest) ++ [last] := by simpa using h
    exact (List.append_inj' h rfl).1

/-- An event that does not announce the second keeps the order. -/
theorem Ordered.append {log : List Emission} (ho : Ordered log h h')
    (hm : ¬ m.event.announces h') : Ordered (log ++ [m]) h h' := by
  intro hslot before n after hlog hn
  rcases split_append hlog with ⟨-, rfl⟩ | ⟨rest, hlog⟩
  · exact absurd hn hm
  · exact ho hslot hlog hn

/-- A run begins with nothing. -/
theorem sound_nil : Sound ⟨[], .empty, []⟩ where
  arena := Arena.sound_empty
  generation := by simp [Arena.generation, Arena.empty, released]
  held := by simp [holder, Arena.get?_empty]
  distinct := List.nodup_nil
  known := by simp
  tale := by simp
  ordered := .nil

/-- Identifiers tell the connections apart. -/
theorem Sound.eq_of_id (hv : v.Sound) (hh : h ∈ v.handles) (hh' : h' ∈ v.handles)
    (hid : h.id = h'.id) : h = h' :=
  List.inj_on_of_nodup_map hv.distinct hh hh' hid

/-- What is told of others leaves a connection's story alone. -/
theorem Tale.of_not_about (ht : v.Tale h) (hlog : w.log = v.log ++ [m])
    (hholder : w.holder h.id = v.holder h.id) (hm : m.event.about h.id = false) : w.Tale h := by
  have hevents : w.events h.id = v.events h.id := by
    rw [show w.events h.id = (v.tell m).events h.id by rw [events, events, hlog, tell], events_tell, hm]
    simp
  have hreleased : v.released h.id.slot ≤ w.released h.id.slot := by
    rw [released, released, hlog, List.countP_append]
    exact Nat.le_add_right _ _
  cases ht with
  | held hin hbegun => exact .held (hholder.trans hin) (hevents ▸ hbegun)
  | lost hout hgone htold hbegun =>
    exact .lost (hholder.trans hout) (Nat.lt_of_lt_of_le hgone hreleased) (hevents.trans htold) hbegun

/-- One more event, of a connection that is known. -/
theorem known_append {log : List Emission} {hs : List Handle}
    (hlog : ∀ n ∈ log, ∀ {h}, n.event.handle? = some h → h ∈ hs)
    (hm : ∀ {h}, m.event.handle? = some h → h ∈ hs) :
    ∀ n ∈ log ++ [m], ∀ {h}, n.event.handle? = some h → h ∈ hs := by
  intro n hn h hh
  rcases List.mem_append.1 hn with hn | hn
  · exact hlog n hn hh
  · rw [List.mem_singleton.1 hn] at hh
    exact hm hh

/-- Nothing was told about an identifier that was never given out. -/
theorem Sound.events_eq_nil (hv : v.Sound) {id : TransportId} (hnew : ∀ h ∈ v.handles, h.id ≠ id) :
    v.events id = [] := by
  refine List.filter_eq_nil_iff.2 fun e he habout => ?_
  obtain ⟨n, hn, rfl⟩ := List.mem_map.1 he
  cases hevent : n.event.handle? with
  | none => simp [not_about_of_none hevent] at habout
  | some h =>
    rw [about_of_handle hevent, decide_eq_true_eq] at habout
    exact hnew h (hv.known n hn hevent) habout

/-- The loss of a connection that is out of its slot was told. -/
theorem Sound.exists_loses (hv : v.Sound) (hh : h ∈ v.handles) (hout : v.holder h.id = none) :
    ∃ m ∈ v.log, m.event.loses h := by
  cases hv.tale h hh with
  | held hin hbegun => simp [hout] at hin
  | @lost _ hgone begun status htold hbegun =>
    have hlast : Event.connectionLost h.channel status h ∈ v.events h.id := by
      rw [htold]
      exact List.mem_append_right _ List.mem_cons_self
    obtain ⟨m, hm, hevent⟩ := List.mem_map.1 (List.mem_filter.1 hlast).1
    exact ⟨m, hm, h.channel, status, hevent⟩

/-! ## One change keeps all that -/

/-- A replaced transport is still its connection's. -/
theorem holder_modify (v : Ledger) (id : TransportId) {f : Transport → Transport}
    (hf : ∀ t, (f t).handle = t.handle) (id' : TransportId) :
    holder { v with transports := v.transports.modify id f } id' = v.holder id' := by
  rw [holder, holder, Arena.get?_modify, Option.map_map]
  refine congrFun (congrArg _ (funext fun t => ?_)) _
  by_cases hid : id' = id <;> simp [hid, hf]

/-- Replaced transports of the same connections make no difference. -/
theorem sound_keep (hv : v.Sound) (id : TransportId) {f : Transport → Transport}
    (hf : ∀ t, (f t).handle = t.handle) : Sound { v with transports := v.transports.modify id f } := by
  have hholder := holder_modify v id hf
  refine ⟨Arena.sound_modify hv.arena id f, fun slot => ?_, fun {id' h} hh => ?_, hv.distinct, hv.known,
    fun h hh => ?_, hv.ordered⟩
  · rw [Arena.generation_modify, hv.generation]
    rfl
  · exact hv.held (hholder id' ▸ hh)
  · cases hv.tale h hh with
    | held hin hbegun => exact .held ((hholder h.id).trans hin) hbegun
    | lost hout hgone htold hbegun => exact .lost ((hholder h.id).trans hout) hgone htold hbegun

/-- An answer without a connection is no part of any story. -/
theorem sound_refuse (hv : v.Sound) (hm : m.event.handle? = none) : (v.tell m).Sound := by
  have hfrees : ∀ slot, m.event.frees slot = false := by
    intro slot
    cases he : m.event <;> simp_all [Event.frees, Event.handle?]
  refine ⟨hv.arena, fun slot => ?_, hv.held, hv.distinct, known_append hv.known (by simp [hm]),
    fun h hh => ?_, hv.ordered.imp fun ho => ho.append ?_⟩
  · rw [released_tell, hfrees]
    exact hv.generation slot
  · exact (hv.tale h hh).of_not_about rfl rfl (not_about_of_none hm h.id)
  · rintro ⟨channel, status, heq⟩
    simp [heq, Event.handle?] at hm

/-- **A packet belongs to a connection whose story has begun.** -/
theorem sound_packet (hv : v.Sound) {id : TransportId} (hh : v.holder id = some h) {channel : Nat}
    {payload : Bytes} (hm : m.event = .packet channel h payload) : (v.tell m).Sound := by
  obtain ⟨rfl, hmem⟩ := hv.held hh
  have hhandle : m.event.handle? = some h := by rw [hm]; rfl
  have hfrees : ∀ slot, m.event.frees slot = false := fun slot => by rw [hm]; rfl
  have hknown : ∀ {h'}, m.event.handle? = some h' → h' ∈ v.handles := fun hh' =>
    Option.some.inj (hhandle.symm.trans hh') ▸ hmem
  refine ⟨hv.arena, fun slot => ?_, hv.held, hv.distinct, known_append hv.known hknown,
    fun h' hh' => ?_, hv.ordered.imp fun ho => ho.append ?_⟩
  · rw [released_tell, hfrees]
    exact hv.generation slot
  · by_cases hid : h.id = h'.id
    · obtain rfl := hv.eq_of_id hmem hh' hid
      cases hv.tale h hmem with
      | held hin hbegun =>
        obtain ⟨packets, htold, hpackets⟩ := hbegun
        refine .held hin ⟨packets ++ [m.event], ?_, fun e he => ?_⟩
        · rw [events_tell, about_of_handle hhandle, htold]
          simp
        · rcases List.mem_append.1 he with he | he
          · exact hpackets e he
          · exact ⟨channel, payload, (List.mem_singleton.1 he).trans hm⟩
      | lost hout hgone htold hbegun => simp [hh] at hout
    · refine (hv.tale h' hh').of_not_about rfl rfl ?_
      rw [about_of_handle hhandle]
      simp [hid]
  · rintro ⟨channel', status, heq⟩
    simp [hm] at heq

theorem holder_lost (v : Ledger) (id id' : TransportId) (m : Emission) :
    (v.lost id m).holder id' = if id' = id then none else v.holder id' := by
  rw [holder, lost, Arena.get?_remove]
  split
  · rfl
  · rfl

/-- The lost connection's slot is released once more, and no other. -/
theorem generation_lost (hv : v.Sound) (hh : v.holder h.id = some h) {status : Status}
    (hm : m.event = .connectionLost h.channel status h) (slot : Nat) :
    (v.lost h.id m).transports.generation slot = UInt32.ofNat ((v.lost h.id m).released slot) := by
  obtain ⟨t, ht, -⟩ := Option.map_eq_some_iff.1 hh
  have hfrees : m.event.frees slot = decide (h.id.slot = slot) := by rw [hm]; rfl
  refine (Arena.generation_remove ht slot).trans ?_
  change _ = UInt32.ofNat ((v.tell m).released slot)
  rw [released_tell, hfrees, hv.generation]
  by_cases hslot : slot = h.id.slot
  · rw [if_pos hslot, if_pos (by simp [hslot])]
    exact (UInt32.ofNat_add _ _).symm
  · rw [if_neg hslot, if_neg (by simp [Ne.symm hslot])]
    rfl

theorem tale_lost (hv : v.Sound) (hh : v.holder h.id = some h) (hmem : h ∈ v.handles)
    {status : Status} (hm : m.event = .connectionLost h.channel status h)
    (hbound : v.released h.id.slot < UInt32.size) : (v.lost h.id m).Tale h := by
  obtain ⟨t, ht, -⟩ := Option.map_eq_some_iff.1 hh
  have hhandle : m.event.handle? = some h := by rw [hm]; rfl
  have hfrees : m.event.frees h.id.slot = true := by rw [hm]; simp [Event.frees]
  cases hv.tale h hmem with
  | held hin hbegun =>
    have htold : (v.tell m).events h.id =
        v.events h.id ++ [.connectionLost h.channel status h] := by
      rw [events_tell, about_of_handle hhandle, hm]
      simp
    refine .lost (by rw [holder_lost, if_pos rfl]) ?_ htold hbegun
    change _ < (v.tell m).released h.id.slot
    rw [released_tell, hfrees, Arena.generation_of_get? ht, hv.generation,
      UInt32.toNat_ofNat_of_lt' hbound]
    exact Nat.lt_succ_self _
  | lost hout hgone htold hbegun => simp [hh] at hout

/-- **A loss ends its connection's story, and frees its slot.** -/
theorem sound_lost (hv : v.Sound) {id : TransportId} (hh : v.holder id = some h) {status : Status}
    (hm : m.event = .connectionLost h.channel status h)
    (hbound : v.released id.slot < UInt32.size) : (v.lost id m).Sound := by
  obtain ⟨rfl, hmem⟩ := hv.held hh
  have hhandle : m.event.handle? = some h := by rw [hm]; rfl
  have hknown : ∀ {h'}, m.event.handle? = some h' → h' ∈ v.handles := fun hh' =>
    Option.some.inj (hhandle.symm.trans hh') ▸ hmem
  refine ⟨Arena.sound_remove hv.arena _, generation_lost hv hh hm, fun {id' h'} hh' => ?_, hv.distinct,
    known_append hv.known hknown, fun h' hh' => ?_, hv.ordered.imp fun ho => ho.append ?_⟩
  · rw [holder_lost] at hh'
    split at hh'
    · simp at hh'
    · exact hv.held hh'
  · by_cases hid : h.id = h'.id
    · obtain rfl := hv.eq_of_id hmem hh' hid
      exact tale_lost hv hh hmem hm hbound
    · refine (hv.tale h' hh').of_not_about rfl ?_ ?_
      · rw [holder_lost, if_neg (Ne.symm hid)]
      · rw [about_of_handle hhandle]
        simp [hid]
  · rintro ⟨channel', status', heq⟩
    simp [hm] at heq

section Announce

variable {build : TransportId → Transport} (hbuild : ∀ id, (build id).handle.id = id)
  (hh : (build (v.transports.insertWith build).1).handle = h)

include hbuild hh

theorem id_of_announced : h.id = (v.transports.insertWith build).1 := hh ▸ hbuild _

/-- **A new connection's identifier was never given out before**: what was in its slot is lost, and its
generation is later. -/
theorem fresh_of_announced (hv : v.Sound) (hfits : (v.transports.insertWith build).2.Fits)
    (hbound : v.released h.id.slot < UInt32.size) {h' : Handle} (hmem : h' ∈ v.handles) :
    h'.id ≠ h.id ∧ (h'.id.slot = h.id.slot → v.holder h'.id = none) := by
  have hid := id_of_announced hbuild hh
  have hvacant : h'.id.slot = h.id.slot → v.holder h'.id = none := by
    intro hslot
    rw [holder, Arena.get?_of_slot_eq hv.arena hfits (hslot.trans (congrArg _ hid))]
    rfl
  refine ⟨fun hsame => ?_, hvacant⟩
  cases hv.tale h' hmem with
  | held hin hbegun => simp [hvacant (congrArg _ hsame)] at hin
  | lost hout hgone htold hbegun =>
    obtain ⟨hslot, hgeneration⟩ := Arena.id_insertWith hv.arena hfits
    have hcurrent : h.id.generation = UInt32.ofNat (v.released h.id.slot) := by
      rw [← hv.generation, hid, hgeneration, hslot]
    rw [hsame, hcurrent, UInt32.toNat_ofNat_of_lt' hbound] at hgone
    exact absurd hgone (Nat.lt_irrefl _)

theorem holder_of_announced (harena : v.transports.Sound)
    (hfits : (v.transports.insertWith build).2.Fits) (log : List Emission) (id : TransportId) :
    holder ⟨v.handles ++ [h], (v.transports.insertWith build).2, log⟩ id =
      if id = h.id then some h else v.holder id := by
  have hid := id_of_announced hbuild hh
  rw [holder, Arena.get?_insertWith harena hfits, ← hid]
  split
  · rename_i heq
    rw [heq, hid, Option.map_some, hh]
  · rfl

/-- What was told before holds of the order, and the new connection comes after the slot's last. -/
theorem ordered_announced (hv : v.Sound) (hfits : (v.transports.insertWith build).2.Fits)
    (hbound : v.released h.id.slot < UInt32.size)
    (hm : m.event = .connectResponse h.channel Status.ok (some h)) :
    (v.handles ++ [h]).Pairwise (Ordered (v.log ++ [m])) := by
  have hfresh : ∀ h' ∈ v.handles, h'.id ≠ h.id ∧ (h'.id.slot = h.id.slot → v.holder h'.id = none) :=
    fun _ hmem => fresh_of_announced hbuild hh hv hfits hbound hmem
  have hkept : v.handles.Pairwise (Ordered (v.log ++ [m])) := by
    refine hv.ordered.imp_of_mem fun {h₁ h₂} _ hmem ho => ho.append ?_
    rintro ⟨channel, status, heq⟩
    rw [hm] at heq
    obtain rfl : h = h₂ := by simpa using (Event.connectResponse.inj heq).2.2
    exact (hfresh h hmem).1 rfl
  refine List.pairwise_append.2 ⟨hkept, List.pairwise_singleton _ _, fun h' hmem h'' hh'' => ?_⟩
  obtain rfl := List.mem_singleton.1 hh''
  intro hslot before n after hlog hannounces
  rcases split_append hlog with ⟨rfl, rfl⟩ | ⟨rest, hlog⟩
  · exact hv.exists_loses hmem ((hfresh h' hmem).2 hslot)
  · -- nothing announced the new connection before
    obtain ⟨channel, status, heq⟩ := hannounces
    have htold : n ∈ v.log := hlog ▸ List.mem_append_right _ List.mem_cons_self
    exact absurd rfl (hfresh _ (hv.known n htold (by rw [heq]; rfl))).1

/-- **An announcement begins the story of a new connection.** -/
theorem sound_announce (hv : v.Sound) (hfits : (v.transports.insertWith build).2.Fits)
    (hbound : v.released h.id.slot < UInt32.size)
    (hm : m.event = .connectResponse h.channel Status.ok (some h)) :
    Sound ⟨v.handles ++ [h], (v.transports.insertWith build).2, v.log ++ [m]⟩ := by
  have hnew : ∀ h' ∈ v.handles, h'.id ≠ h.id := fun _ hmem =>
    (fresh_of_announced hbuild hh hv hfits hbound hmem).1
  have hholder := holder_of_announced hbuild hh hv.arena hfits (v.log ++ [m])
  have hhandle : m.event.handle? = some h := by rw [hm]; rfl
  have hfrees : ∀ slot, m.event.frees slot = false := fun slot => by rw [hm]; rfl
  have hknown : ∀ {h'}, m.event.handle? = some h' → h' ∈ v.handles ++ [h] := fun hh' =>
    List.mem_append_right _ (List.mem_singleton.2 (Option.some.inj (hh'.symm.trans hhandle)))
  refine ⟨Arena.sound_insertWith hv.arena build, fun slot => ?_, fun {id h'} hh' => ?_, ?_,
    known_append (fun n hn {_} hh' => List.mem_append_left _ (hv.known n hn hh')) hknown,
    fun h' hh' => ?_, ordered_announced hbuild hh hv hfits hbound hm⟩
  · rw [Arena.generation_insertWith hv.arena, hv.generation]
    change _ = UInt32.ofNat ((v.tell m).released slot)
    rw [released_tell, hfrees]
    rfl
  · rw [hholder] at hh'
    split at hh'
    · rename_i hid
      obtain rfl := Option.some.inj hh'
      exact ⟨hid.symm, List.mem_append_right _ List.mem_cons_self⟩
    · exact ⟨(hv.held hh').1, List.mem_append_left _ (hv.held hh').2⟩
  · rw [List.map_append, List.map_cons, List.map_nil, List.nodup_append]
    refine ⟨hv.distinct, by simp, fun id hid id' hid' heq => ?_⟩
    obtain ⟨h', hmem, rfl⟩ := List.mem_map.1 hid
    exact hnew h' hmem (heq.trans (List.mem_singleton.1 hid'))
  · rcases List.mem_append.1 hh' with hmem | hmem
    · have hne := hnew h' hmem
      refine (hv.tale h' hmem).of_not_about rfl ?_ ?_
      · rw [hholder, if_neg hne]
      · rw [about_of_handle hhandle]
        simp [Ne.symm hne]
    · obtain rfl := List.mem_singleton.1 hmem
      refine .held (by rw [hholder, if_pos rfl]) ⟨[], ?_, by simp⟩
      change (v.tell m).events h'.id = _
      rw [events_tell, hv.events_eq_nil hnew, about_of_handle hhandle, hm]
      simp

end Announce

theorem Move.released_le (hm : Move v v') (slot : Nat) : v.released slot ≤ v'.released slot := by
  cases hm with
  | keep id hf => exact Nat.le_refl _
  | _ =>
    simp only [released, lost, tell, List.countP_append]
    exact Nat.le_add_right _ _

/-- **Every change keeps every story.** -/
theorem Move.sound (hm : Move v v') (hv : v.Sound) (hfits : v'.transports.Fits)
    (hbound : ∀ slot, v'.released slot < UInt32.size) : v'.Sound := by
  have hbefore := fun slot => Nat.lt_of_le_of_lt (hm.released_le slot) (hbound slot)
  cases hm with
  | keep id hf => exact sound_keep hv id hf
  | refuse hm => exact sound_refuse hv hm
  | packet hh hm => exact sound_packet hv hh hm
  | announce hbuild hh hm => exact sound_announce hbuild hh hv hfits (hbefore _) hm
  | lose hh hm => exact sound_lost hv hh hm (hbefore _)

theorem Move.size_le (hm : Move v v') : v.transports.slots.size ≤ v'.transports.slots.size := by
  cases hm with
  | keep id hf => exact Nat.le_of_eq (Arena.size_modify _ _ _).symm
  | announce hbuild hh hm => exact Arena.size_le_insertWith _ _
  | lose hh hm => exact Nat.le_of_eq (Arena.size_remove _ _).symm
  | _ => exact Nat.le_refl _

/-- Any number of changes. -/
def Moves : Ledger → Ledger → Prop := Relation.ReflTransGen Move

theorem Moves.released_le (h : Moves v v') (slot : Nat) : v.released slot ≤ v'.released slot := by
  induction h with
  | refl => exact Nat.le_refl _
  | tail _ hm ih => exact Nat.le_trans ih (hm.released_le slot)

theorem Moves.sound (h : Moves v v') (hv : v.Sound) (hfits : v'.transports.Fits)
    (hbound : ∀ slot, v'.released slot < UInt32.size) : v'.Sound := by
  induction h with
  | refl => exact hv
  | tail _ hm ih =>
    have hfits₀ := Nat.le_trans hm.size_le hfits
    have hbound₀ := fun slot => Nat.lt_of_le_of_lt (hm.released_le slot) (hbound slot)
    exact hm.sound (ih hfits₀ hbound₀) hfits hbound

end Ledger

end NetReactor
