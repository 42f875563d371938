import NetReactor.Proofs.Reactor.Story
import NetReactor.Proofs.Slots.History

/-!
# Every connection is lost once

A connection is open as long as its transport is in its slot, and **its loss is told once, when it is
taken out** (`Balanced`, `Agree`). Connections are told apart by their serial numbers here, so this holds
however often a slot is released; the slots only have to be few enough to be named.
-/

namespace NetReactor

/-- Whether an event tells of a connection's loss can be decided. -/
instance (h : Handle) (e : Event) : Decidable (e.loses h) :=
  match e with
  | .connectionLost channel status h' =>
    decidable_of_iff (h' = h) ⟨fun heq => ⟨channel, status, heq ▸ rfl⟩, fun ⟨_, _, heq⟩ => by simp_all⟩
  | .connectResponse .. => isFalse fun ⟨_, _, heq⟩ => by simp at heq
  | .packet .. => isFalse fun ⟨_, _, heq⟩ => by simp at heq

theorem Event.handle?_of_loses {h : Handle} {e : Event} (he : e.loses h) : e.handle? = some h := by
  obtain ⟨channel, status, rfl⟩ := he
  rfl

/-! ## Losses in the ledger -/

namespace Ledger

/-- How often a connection's loss was told. -/
def losses (v : Ledger) (h : Handle) : Nat := v.log.countP (·.event.loses h)

/-- The slots keep account of themselves, and a connection's loss was told once it is out of its slot. -/
structure Balanced (v : Ledger) : Prop where
  arena : v.transports.Exact
  held : ∀ {id h}, v.holder id = some h → h.id = id ∧ h ∈ v.handles
  known : ∀ m ∈ v.log, ∀ {h}, m.event.handle? = some h → h ∈ v.handles
  losses : ∀ h ∈ v.handles, v.losses h = if v.holder h.id = some h then 0 else 1

variable {v v' w : Ledger} {m : Emission} {h h' : Handle}

theorem losses_append (hlog : w.log = v.log ++ [m]) (h : Handle) :
    w.losses h = v.losses h + if m.event.loses h then 1 else 0 := by
  simp [losses, hlog, List.countP_append, List.countP_singleton]

/-- An event that tells of no loss leaves the count. -/
theorem losses_same (hlog : w.log = v.log ++ [m]) (hm : ¬ m.event.loses h) : w.losses h = v.losses h := by
  rw [losses_append hlog, if_neg hm]
  rfl

theorem balanced_nil : Balanced ⟨[], .empty, []⟩ where
  arena := Arena.exact_empty
  held := by simp [holder, Arena.get?_empty]
  known := by simp
  losses := by simp

theorem balanced_keep (hv : v.Balanced) (id : TransportId) {f : Transport → Transport}
    (hf : ∀ t, (f t).handle = t.handle) :
    Balanced { v with transports := v.transports.modify id f } where
  arena := Arena.exact_modify hv.arena id f
  held hh := hv.held (holder_modify v id hf _ ▸ hh)
  known := hv.known
  losses h hh := by
    rw [holder_modify v id hf]
    exact hv.losses h hh

/-- What is told without a loss, of a known connection if of any, leaves the balance. -/
theorem balanced_tell (hv : v.Balanced) (hknown : ∀ {h}, m.event.handle? = some h → h ∈ v.handles)
    (hm : ∀ h, ¬ m.event.loses h) : (v.tell m).Balanced where
  arena := hv.arena
  held := hv.held
  known := known_append hv.known hknown
  losses h hh := by
    have hsame : (v.tell m).losses h = v.losses h := losses_same rfl (hm h)
    exact hsame.trans (hv.losses h hh)

/-- **A new connection is in its slot, and nothing was told of it.** -/
theorem balanced_announce (hv : v.Balanced) {build : TransportId → Transport}
    (hbuild : ∀ id, (build id).handle.id = id)
    (hh : (build (v.transports.insertWith build).1).handle = h)
    (hm : m.event = .connectResponse h.channel Status.ok (some h))
    (hfits : (v.transports.insertWith build).2.Fits) (hnew : h ∉ v.handles) :
    Balanced ⟨v.handles ++ [h], (v.transports.insertWith build).2, v.log ++ [m]⟩ := by
  have hholder := holder_of_announced hbuild hh hv.arena.toSound hfits (v.log ++ [m])
  have hnone : v.holder h.id = none := by
    have hslot := id_of_announced hbuild hh
    rw [holder, Arena.get?_of_slot_eq hv.arena.toSound hfits (congrArg _ hslot)]
    rfl
  have hhandle : m.event.handle? = some h := by rw [hm]; rfl
  have hquiet : ∀ h', ¬ m.event.loses h' := by
    rintro h' ⟨channel, status, heq⟩
    simp [hm] at heq
  refine ⟨Arena.exact_insertWith hv.arena hfits, fun {id h'} hh' => ?_, ?_, fun h' hh' => ?_⟩
  · rw [hholder] at hh'
    split at hh'
    · rename_i hid
      obtain rfl := Option.some.inj hh'
      exact ⟨hid.symm, List.mem_append_right _ List.mem_cons_self⟩
    · exact ⟨(hv.held hh').1, List.mem_append_left _ (hv.held hh').2⟩
  · refine known_append (fun n hn {h'} hh' => List.mem_append_left _ (hv.known n hn hh')) ?_
    intro h' hh'
    obtain rfl : h = h' := Option.some.inj (hhandle.symm.trans hh')
    exact List.mem_append_right _ List.mem_cons_self
  · rw [losses_same (v := v) rfl (hquiet h'), hholder]
    rcases List.mem_append.1 hh' with hmem | hmem
    · have hne : h' ≠ h := fun heq => hnew (heq ▸ hmem)
      rw [hv.losses h' hmem]
      by_cases hid : h'.id = h.id
      · simp [hid, hnone, hne.symm]
      · rw [if_neg hid]
    · obtain rfl := List.mem_singleton.1 hmem
      rw [if_pos rfl, if_pos rfl, losses, List.countP_eq_zero]
      intro n hn hloses
      exact hnew (hv.known n hn (Event.handle?_of_loses (of_decide_eq_true hloses)))

/-- **A loss that is told is the connection's first, and it is out of its slot.** -/
theorem balanced_lost (hv : v.Balanced) {id : TransportId} {status : Status}
    (hh : v.holder id = some h) (hm : m.event = .connectionLost h.channel status h) :
    (v.lost id m).Balanced := by
  obtain ⟨rfl, hmem⟩ := hv.held hh
  have hhandle : m.event.handle? = some h := by rw [hm]; rfl
  refine ⟨Arena.exact_remove hv.arena _, fun {id' h'} hh' => ?_, known_append hv.known ?_, fun h' hh' => ?_⟩
  · rw [holder_lost] at hh'
    split at hh'
    · simp at hh'
    · exact hv.held hh'
  · intro h' hh'
    exact Option.some.inj (hhandle.symm.trans hh') ▸ hmem
  · rw [holder_lost]
    by_cases heq : h' = h
    · subst heq
      have htold : m.event.loses h' := ⟨h'.channel, status, hm⟩
      rw [losses_append (v := v) rfl, if_pos htold, hv.losses h' hmem, if_pos hh, if_pos rfl,
        if_neg (Option.some_ne_none h').symm]
    · have hquiet : ¬ m.event.loses h' := by
        rintro ⟨channel, status', hlost⟩
        rw [hm] at hlost
        exact heq (Event.connectionLost.inj hlost).2.2.symm
      rw [losses_same (v := v) rfl hquiet, hv.losses h' hh']
      by_cases hid : h'.id = h.id
      · simp [hid, hh, Ne.symm heq]
      · rw [if_neg hid]

theorem Move.handles_grow (hm : Move v v') : v.handles <+: v'.handles := by
  cases hm with
  | announce hbuild hh hm => exact List.prefix_append _ _
  | _ => exact List.prefix_refl _

/-- **Every change keeps the balance**, as long as the connections made are all different. -/
theorem Move.balanced (hm : Move v v') (hv : v.Balanced) (hfits : v'.transports.Fits)
    (hnodup : v'.handles.Nodup) : v'.Balanced := by
  cases hm with
  | keep id hf => exact balanced_keep hv id hf
  | refuse hm =>
    refine balanced_tell hv (by simp [hm]) fun h hloses => ?_
    simp [Event.handle?_of_loses hloses] at hm
  | @packet id h m hh channel payload hm =>
    refine balanced_tell hv (fun {h'} hh' => ?_) fun h' hloses => ?_
    · rw [hm] at hh'
      exact Option.some.inj hh' ▸ (hv.held hh).2
    · obtain ⟨channel', status, heq⟩ := hloses
      simp [hm] at heq
  | announce hbuild hh hm =>
    have hnew := (List.nodup_append.1 hnodup).2.2
    exact balanced_announce hv hbuild hh hm hfits fun hmem =>
      hnew _ hmem _ List.mem_cons_self rfl
  | lose hh hm => exact balanced_lost hv hh hm

theorem Moves.balanced (h : Moves v v') (hv : v.Balanced) (hfits : v'.transports.Fits)
    (hnodup : v'.handles.Nodup) : v'.Balanced := by
  induction h with
  | refl => exact hv
  | tail _ hm ih =>
    have hfits₀ := Nat.le_trans hm.size_le hfits
    exact hm.balanced (ih hfits₀ (hnodup.sublist hm.handles_grow.sublist)) hfits hnodup

end Ledger

/-! ## Serial numbers -/

/-- Each connection has its place for its number. -/
def Numbered (handles : List Handle) : Prop := ∀ (k : Nat) h, handles[k]? = some h → h.serial = k

theorem Numbered.nodup {handles : List Handle} (h : Numbered handles) : handles.Nodup := by
  refine List.nodup_iff_getElem?_ne_getElem?.2 fun j k hjk hlt heq => ?_
  have hj := h j _ (List.getElem?_eq_getElem (Nat.lt_trans hjk hlt))
  have hk := h k _ (List.getElem?_eq_getElem hlt)
  rw [List.getElem?_eq_getElem hlt, List.getElem?_eq_getElem (Nat.lt_trans hjk hlt),
    Option.some.injEq] at heq
  exact Nat.ne_of_lt hjk (hj.symm.trans ((congrArg Handle.serial heq).trans hk))

theorem Numbered.getElem? {handles : List Handle} (h : Numbered handles) {x : Handle}
    (hx : x ∈ handles) : handles[x.serial]? = some x := by
  obtain ⟨k, hk⟩ := List.mem_iff_getElem?.1 hx
  exact h k x hk ▸ hk

theorem Numbered.append {handles : List Handle} (h : Numbered handles) {x : Handle}
    (hx : x.serial = handles.length) : Numbered (handles ++ [x]) := by
  intro k y hy
  rcases Nat.lt_or_ge k handles.length with hlt | hge
  · rw [List.getElem?_append_left hlt] at hy
    exact h k y hy
  · rw [List.getElem?_append_right hge] at hy
    obtain ⟨hzero, hy⟩ := List.getElem?_eq_some_iff.1 hy
    have hk : k = handles.length := by
      have hlt : k - handles.length < 1 := hzero
      omega
    subst hk
    rw [← hx, ← hy]
    simp

/-! ## Open connections -/

/-- Which connections there are, and which are open. -/
def Service.roll (s : Service) : List (Handle × Bool) :=
  s.connections.toList.map fun c => (c.handle, c.isOpen)

/-- Of the connections from `made` on, those are open that are held. -/
def Agree (made : Nat) (roll : List (Handle × Bool)) (holder : TransportId → Option Handle) : Prop :=
  ∀ (k : Nat) h b, made ≤ k → roll[k]? = some (h, b) → (b = true ↔ holder h.id = some h)

section Agree

variable {made : Nat} {roll : List (Handle × Bool)} {holder holder' : TransportId → Option Handle}
  {h : Handle}

theorem agree_announce (hr : Agree made roll holder) (hnumbered : Numbered (roll.map (·.1)))
    (hserial : h.serial = roll.length) (hnone : holder h.id = none)
    (hholder : ∀ id, holder' id = if id = h.id then some h else holder id) :
    Agree made (roll ++ [(h, true)]) holder' := by
  intro k h' b hk hat
  rw [hholder]
  rcases Nat.lt_or_ge k roll.length with hlt | hge
  · rw [List.getElem?_append_left hlt] at hat
    have hne : h' ≠ h := by
      rintro rfl
      have hnum : h'.serial = k := hnumbered k h' (by rw [List.getElem?_map, hat]; rfl)
      omega
    rw [hr k h' b hk hat]
    by_cases hid : h'.id = h.id
    · simp [hid, hnone, hne.symm]
    · rw [if_neg hid]
  · rw [List.getElem?_append_right hge] at hat
    obtain ⟨hzero, hat⟩ := List.getElem?_eq_some_iff.1 hat
    have hk : k - roll.length = 0 := by
      have hlt : k - roll.length < 1 := hzero
      omega
    simp only [hk, List.getElem_cons_zero, Prod.mk.injEq] at hat
    obtain ⟨rfl, rfl⟩ := hat
    simp

theorem agree_lost (hr : Agree made roll holder) (hnumbered : Numbered (roll.map (·.1)))
    (hheld : holder h.id = some h) (hin : h ∈ roll.map (·.1))
    (hholder : ∀ id, holder' id = if id = h.id then none else holder id) :
    Agree made (roll.modify h.serial fun p => (p.1, false)) holder' := by
  intro k h' b hk hat
  rw [hholder]
  rw [List.getElem?_modify] at hat
  obtain ⟨⟨h₀, b₀⟩, hbefore, heq⟩ := Option.map_eq_some_iff.1 hat
  have hnum : h₀.serial = k := hnumbered k h₀ (by rw [List.getElem?_map, hbefore]; rfl)
  by_cases hserial : h.serial = k
  · obtain ⟨rfl, rfl⟩ : h₀ = h' ∧ false = b := by simpa [hserial] using heq
    have hsame : h₀ = h := by
      have hplace := hnumbered.getElem? hin
      rw [hserial, List.getElem?_map, hbefore, Option.map_some, Option.some.injEq] at hplace
      exact hplace
    simp [hsame]
  · obtain ⟨rfl, rfl⟩ : h₀ = h' ∧ b₀ = b := by simpa [hserial] using heq
    have hne : h₀ ≠ h := fun hsame => hserial (hsame ▸ hnum)
    rw [hr k h₀ b₀ hk hbefore]
    by_cases hid : h₀.id = h.id
    · simp [hid, hheld, hne.symm]
    · rw [if_neg hid]

end Agree

namespace Reactor

variable {σ : Type} {r r' : Reactor σ} {i told made : Nat}

/-- What a run's connections, slots and events keep. -/
structure Booked (r : Reactor σ) (told made : Nat) : Prop where
  counts : r.Counts told made
  numbered : Numbered r.service.handles
  balanced : (r.ledger told made).Balanced
  agree : Agree made r.service.roll (r.ledger told made).holder

theorem map_roll (s : Service) : s.roll.map (·.1) = s.handles := by
  simp [Service.roll, Service.handles, Function.comp_def]

theorem roll_of_stage {s s' : Service} (h : s'.stage = s.stage) : s'.roll = s.roll :=
  congrArg (fun x => x.2.2.1) h

/-- A transport that is held has its connection. -/
theorem Booked.connection? (hr : r.Booked told made) {id : TransportId} {t : Transport}
    (ht : r.transports.get? id = some t) : ∃ c, r.service.connection? t.handle = some c := by
  have hholder : (r.ledger told made).holder id = some t.handle := congrArg (Option.map _) ht
  have hmem := List.mem_of_mem_drop (hr.balanced.held hholder).2
  obtain ⟨c, hc, -⟩ := Option.map_eq_some_iff.1 (List.getElem?_map.symm.trans (hr.numbered.getElem? hmem))
  exact ⟨c, (Array.getElem?_toList ..).symm.trans hc⟩

/-- Timers, commands and the like are no part of it. -/
theorem Booked.congr (hr : r.Booked told made)
    (hconnections : r'.service.connections = r.service.connections)
    (hemitted : r'.service.emitted = r.service.emitted) (htransports : r'.transports = r.transports) :
    r'.Booked told made := by
  have hhandles : r'.service.handles = r.service.handles := by
    rw [Service.handles, Service.handles, hconnections]
  have hledger : r'.ledger told made = r.ledger told made := by
    rw [ledger, ledger, hhandles, hemitted, htransports]
  have hroll : r'.service.roll = r.service.roll := by rw [Service.roll, Service.roll, hconnections]
  refine ⟨⟨hemitted ▸ hr.counts.told, hhandles ▸ hr.counts.made⟩, hhandles ▸ hr.numbered,
    hledger ▸ hr.balanced, ?_⟩
  rw [hledger, hroll]
  exact hr.agree

theorem roll_close (s : Service) (h : Handle) (status : Status) :
    (s.updateConnection h (·.close status)).roll = s.roll.modify h.serial fun p => (p.1, false) := by
  refine List.ext_getElem? fun k => ?_
  simp only [Service.roll, Service.updateConnection, Array.toList_modify, List.getElem?_map,
    List.getElem?_modify]
  cases s.connections.toList[k]? with
  | none => rfl
  | some c => by_cases hk : h.serial = k <;> simp [hk, Connection.close]

variable [Host σ]

theorem roll_addTransport (r : Reactor σ) (i : Nat) (mask : ChannelMask) (d : Descriptor) :
    (r.addTransport i mask d).2.service.roll =
      r.service.roll ++ [((r.addTransport i mask d).1, true)] := by
  simp [addTransport, Service.roll, Connection.ofHandle, watchFor]

theorem serial_addTransport (r : Reactor σ) (i : Nat) (mask : ChannelMask) (d : Descriptor) :
    (r.addTransport i mask d).1.serial = r.service.handles.length := by
  simp [addTransport, Service.handles]

/-- Serial numbers are given out one after the other. -/
theorem Move.numbered (h : Move i r r') (hr : Numbered r.service.handles) :
    Numbered r'.service.handles := by
  have hadded : ∀ mask d, Numbered (r.addTransport i mask d).2.service.handles := by
    intro mask d
    rw [handles_addTransport]
    exact hr.append (serial_addTransport r i mask d)
  cases h with
  | aside hservice hchannels htransports => rwa [hservice]
  | play hplay => rwa [handles_of_stage (Service.Plays.stage (.single hplay))]
  | announce mask d => exact hadded mask d
  | greet mask d hplays channel payload =>
    have hplayed := handles_of_stage hplays.stage
    exact hplayed ▸ hadded mask d
  | @lose id t s status ht hi hplays =>
    have hplayed := handles_of_stage hplays.stage
    have hclosed := handles_close r.service t.handle status
    exact (hplayed.trans hclosed) ▸ hr
  | _ => exact hr

omit [Host σ] in
theorem agree_congr (hr : Agree made r.service.roll (r.ledger told made).holder)
    (hstage : r'.service.stage = r.service.stage) (htransports : r'.transports = r.transports) :
    Agree made r'.service.roll (r'.ledger told made).holder := by
  rw [ledger_congr told made hstage htransports, roll_of_stage hstage]
  exact hr

/-- A connection that is announced is open and held. -/
theorem agree_announced (hr : r.Booked told made) (mask : ChannelMask) (d : Descriptor)
    (hfits : (r.announced i mask d).transports.Fits) :
    Agree made (r.announced i mask d).service.roll ((r.announced i mask d).ledger told made).holder := by
  let h := (r.addTransport i mask d).1
  have hsound : r.transports.Sound := hr.balanced.arena.toSound
  have hnone : (r.ledger told made).holder h.id = none := by
    have hget : r.transports.get? h.id = none := Arena.get?_of_slot_eq hsound hfits rfl
    exact congrArg (Option.map _) hget
  have hholder : ∀ id, ((r.announced i mask d).ledger told made).holder id =
      if id = h.id then some h else (r.ledger told made).holder id := by
    intro id
    have hget := congrArg (Option.map (·.handle)) (get?_addTransport hsound hfits id)
    refine hget.trans ?_
    split <;> rfl
  have hserial : h.serial = r.service.roll.length := by
    rw [← List.length_map (fun p : Handle × Bool => p.1), map_roll]
    exact serial_addTransport r i mask d
  have hroll : (r.announced i mask d).service.roll = r.service.roll ++ [(h, true)] :=
    roll_addTransport r i mask d
  rw [hroll]
  exact agree_announce hr.agree (map_roll r.service ▸ hr.numbered) hserial hnone hholder

omit [Host σ] in
/-- A connection that is lost is closed and in no slot. -/
theorem agree_lose (hr : r.Booked told made) {id : TransportId} {t : Transport} {s : Service}
    (status : Status) (ht : r.transports.get? id = some t)
    (hplays : (r.farewell t status).service.Plays s) :
    Agree made s.roll
      (ledger { r with service := s, transports := (r.transports.remove id).2 } told made).holder := by
  have hheld : (r.ledger told made).holder id = some t.handle := congrArg (Option.map _) ht
  obtain ⟨hid, hmem⟩ := hr.balanced.held hheld
  have hroll : s.roll = r.service.roll.modify t.handle.serial fun p => (p.1, false) :=
    (roll_of_stage hplays.stage).trans (roll_close r.service t.handle status)
  have hin : t.handle ∈ r.service.roll.map (·.1) := by
    rw [map_roll]
    exact List.mem_of_mem_drop hmem
  rw [hroll]
  refine agree_lost hr.agree (map_roll r.service ▸ hr.numbered) (hid ▸ hheld) hin fun id' => ?_
  simp only [Ledger.holder, ledger, Arena.get?_remove, hid]
  split <;> rfl

theorem Move.agree (h : Move i r r') (hr : r.Booked told made) (hfits : r'.transports.Fits) :
    Agree made r'.service.roll (r'.ledger told made).holder := by
  cases h with
  | aside hservice hchannels htransports =>
    exact agree_congr hr.agree (congrArg Service.stage hservice) htransports
  | play hplay => exact agree_congr hr.agree (Service.Plays.stage (.single hplay)) rfl
  | @transport id f hf =>
    intro k h b hk hat
    have hholder := Ledger.holder_modify (r.ledger told made) id hf h.id
    exact (hr.agree k h b hk hat).trans (hholder ▸ Iff.rfl)
  | announce mask d => exact agree_announced hr mask d hfits
  | greet mask d hplays channel payload =>
    have hannounced := agree_announced hr mask d hfits
    rw [← roll_of_stage hplays.stage] at hannounced
    exact hannounced
  | lose status ht hi hplays => exact agree_lose hr status ht hplays
  | _ => exact hr.agree

theorem Move.booked (h : Move i r r') (hr : r.Booked told made) (hfits : r'.transports.Fits) :
    r'.Booked told made := by
  have hnumbered := h.numbered hr.numbered
  have hmoves := h.ledger hr.counts hr.balanced.arena.toSound hfits
  exact ⟨h.counts hr.counts, hnumbered,
    hmoves.balanced hr.balanced hfits (hnumbered.nodup.sublist (List.drop_sublist _ _)),
    h.agree hr hfits⟩

theorem Trail.booked (h : Trail r r') (hr : r.Booked told made) (hfits : r'.transports.Fits) :
    r'.Booked told made :=
  h.keeps_fitting (P := (·.Booked told made)) (fun hmove _ hfits hr => hmove.booked hr hfits)
    hr.balanced.arena.toSound hr hfits

theorem Trail.numbered (h : Trail r r') (hr : Numbered r.service.handles) :
    Numbered r'.service.handles :=
  h.keeps (P := fun r' => Numbered r'.service.handles) (fun hmove => hmove.numbered) hr

/-- A teardown's end concerns no connection. -/
theorem handles_teardown (r : Reactor σ) : r.teardown.service.handles = r.closed.service.handles := by
  rw [teardown_eq]
  rfl

end Reactor

namespace Course

variable {σ : Type} [Host σ] {x y : Course σ}

theorem Advance.numbered (h : x.Advance y) (hx : Numbered x.service.handles) :
    Numbered y.service.handles := by
  cases h with
  | handled h => exact h.trail.numbered hx
  | poll hdue => exact hx
  | fire hdue => exact (Reactor.trail_fire _ _).numbered hx
  | stop hdue =>
    have hclosed := (Reactor.trail_closed x.reactor).numbered hx
    exact Reactor.handles_teardown x.reactor ▸ hclosed
  | start hrunning hdue callback endpoints =>
    rw [Service.start_of_not_running hrunning]
    exact hx

/-- Every connection a service ever makes has its own number. -/
theorem Reachable.numbered (h : x.Reachable) : Numbered x.service.handles := by
  obtain ⟨o, w, hsteps⟩ := h
  induction hsteps with
  | refl => simp [Numbered, service, new, Reactor.new, Service.handles, Service.ofOptions]
  | tail _ hstep ih => exact hstep.advance.numbered ih

theorem Advance.booked (h : x.Advance y) (hnumbered : Numbered x.service.handles)
    (hx : x.reactor.transports.Fits → x.reactor.Booked x.told x.made)
    (hfits : y.reactor.transports.Fits) : y.reactor.Booked y.told y.made := by
  cases h with
  | handled h => exact h.trail.booked (hx (h.trail.fits hfits)) hfits
  | poll hdue => exact (hx hfits).congr rfl rfl rfl
  | @fire e rest hdue =>
    have htrail := Reactor.trail_fire x.reactor e
    exact htrail.booked (hx (htrail.fits hfits)) hfits
  | stop hdue =>
    have htrail := Reactor.trail_closed x.reactor
    have hclosed := htrail.booked (hx (htrail.fits hfits)) hfits
    have hteardown := Reactor.teardown_eq x.reactor
    exact hclosed.congr (by rw [hteardown]; rfl) (by rw [hteardown]; rfl) (by rw [hteardown]; rfl)
  | start hrunning hdue callback endpoints =>
    rw [Service.start_of_not_running hrunning]
    have hmade : x.service.connections.size ≤ x.service.handles.length := by simp [Service.handles]
    refine ⟨⟨by simp [Reactor.new], hmade⟩, hnumbered, ?_, fun k h b hk hat => ?_⟩
    · have hnothing : ∀ {v : Ledger}, v = ⟨[], .empty, []⟩ → v.Balanced := fun heq =>
        heq ▸ Ledger.balanced_nil
      refine hnothing (Ledger.mk.injEq .. ▸ ⟨?_, rfl, ?_⟩)
      · simp [Reactor.new, Service.handles, ← Array.length_toList]
      · simp [Reactor.new, ← Array.length_toList]
    · obtain ⟨hlt, -⟩ := List.getElem?_eq_some_iff.1 hat
      have hlength : x.service.roll.length = x.service.connections.size := by simp [Service.roll]
      exact absurd (Nat.lt_of_lt_of_eq hlt hlength) (Nat.not_lt.2 hk)

/-- **A run's connections are open while they are held, and each is lost once.** -/
theorem Reachable.booked (h : x.Reachable) (hfits : x.reactor.transports.Fits) :
    x.reactor.Booked x.told x.made := by
  obtain ⟨o, w, hsteps⟩ := h
  induction hsteps with
  | refl =>
    refine ⟨⟨Nat.zero_le _, Nat.zero_le _⟩, Reachable.numbered ⟨o, w, .refl⟩, Ledger.balanced_nil, ?_⟩
    intro k h b _ hat
    simp [new, Reactor.new, Service.roll, Service.ofOptions] at hat
  | tail hsteps hstep ih =>
    exact hstep.advance.booked (Reachable.numbered ⟨o, w, hsteps⟩) ih hfits

end Course

end NetReactor
