import NetReactor.Proofs.Reactor.Custody
import NetReactor.Proofs.Reactor.Losses

/-!
# What a run leaves behind

**A loop that sees it is to stop leaves nothing open** (`ended_of_stopping`): every connection it ever
announced is closed and its loss was told once, no channel is open, no slot is taken, and nothing is
watched, timed or asked for any more. Callbacks that are told of the losses may ask for what they like;
it is dropped with the rest.
-/

namespace NetReactor

namespace Arena

variable {α : Type}

/-- Takes the values of these identifiers out. -/
def removeAll (a : Arena α) (ids : List TransportId) : Arena α := ids.foldl (fun a id => (a.remove id).2) a

theorem get?_removeAll (a : Arena α) (ids : List TransportId) (id : TransportId) :
    (a.removeAll ids).get? id = if id ∈ ids then none else a.get? id := by
  induction ids generalizing a with
  | nil => rfl
  | cons first rest ih =>
    have hrest := ih (a.remove first).2
    refine hrest.trans ?_
    rw [get?_remove]
    by_cases hfirst : id = first
    · simp [hfirst]
    · simp [hfirst]

theorem slots_size_removeAll (a : Arena α) (ids : List TransportId) :
    (a.removeAll ids).slots.size = a.slots.size := by
  induction ids generalizing a with
  | nil => rfl
  | cons first rest ih => exact (ih _).trans (size_remove a first)

/-- Nothing is stored. -/
structure IsVoid (a : Arena α) : Prop where
  get : ∀ id, a.get? id = none
  list : a.toList = []
  isEmpty : a.isEmpty = true

theorem isVoid_of_get? {a : Arena α} (ha : a.Exact) (hfits : a.Fits) (hnone : ∀ id, a.get? id = none) :
    a.IsVoid := by
  have hlist : a.toList = [] := by
    rw [List.eq_nil_iff_forall_not_mem]
    rintro ⟨id, v⟩ hmem
    rw [mem_toList hfits, hnone] at hmem
    exact Option.some_ne_none v hmem.symm
  have hsize : a.size = a.toList.length := by
    rw [ha.counted, ← Array.countP_toList]
    exact (length_itemsFrom 0 _).symm
  exact ⟨hnone, hlist, by simp [Arena.isEmpty, hsize, hlist]⟩

end Arena

namespace Reactor

variable {σ : Type} [Host σ] {r : Reactor σ}

theorem transports_loseAll (ids : List TransportId) (r : Reactor σ) :
    (ids.foldl (fun r id => r.loseTransport id Status.closedHere) r).transports =
      r.transports.removeAll ids := by
  induction ids generalizing r with
  | nil => rfl
  | cons id rest ih =>
    refine (ih _).trans ?_
    rw [transports_loseTransport]
    rfl

theorem transports_closeAll (ids : List TransportId) (r : Reactor σ) :
    (ids.foldl closeTransport r).transports = r.transports.removeAll ids := by
  induction ids generalizing r with
  | nil => rfl
  | cons id rest ih =>
    refine (ih _).trans ?_
    rw [transports_closeTransport]
    rfl

theorem transports_shutdownChannel (r : Reactor σ) (i : Nat) :
    (r.shutdownChannel i).transports = r.transports.removeAll ((r.silenced i).transportsOf i) := by
  have hclosed := transports_closeAll ((r.silenced i).transportsOf i) (r.silenced i)
  have hkept : ∀ r' : Reactor σ,
      ((r'.updateChannel i ({ · with peers := [] })).setState i .closed).transports = r'.transports :=
    fun _ => rfl
  rw [shutdownChannel_eq, hkept, hclosed, transports_silenced]

/-- Shutdowns take some transports out. -/
theorem exists_transports_shutdowns (is : List Nat) (r : Reactor σ) :
    ∃ ids, (is.foldl shutdownChannel r).transports = r.transports.removeAll ids := by
  induction is generalizing r with
  | nil => exact ⟨[], rfl⟩
  | cons i rest ih =>
    obtain ⟨ids, hrest⟩ := ih (r.shutdownChannel i)
    refine ⟨(r.silenced i).transportsOf i ++ ids, hrest.trans ?_⟩
    rw [transports_shutdownChannel, Arena.removeAll, Arena.removeAll, Arena.removeAll, List.foldl_append]

/-- A teardown takes all of them out. -/
theorem get?_closed (r : Reactor σ) (id : TransportId) : r.closed.transports.get? id = none := by
  let r₁ := r.transports.ids.foldl (fun r id => r.loseTransport id Status.closedHere) r
  have hlost : r₁.transports.get? id = none := by
    rw [transports_loseAll, Arena.get?_removeAll]
    split
    · rfl
    · rename_i hnot
      rw [Option.eq_none_iff_forall_ne_some]
      exact fun t ht => hnot (Arena.mem_ids_of_get? ht)
  obtain ⟨ids, hshut⟩ := exists_transports_shutdowns (List.range r₁.channels.length) r₁
  have hget : r.closed.transports.get? id = (r₁.transports.removeAll ids).get? id :=
    congrArg (·.get? id) hshut
  rw [hget, Arena.get?_removeAll, hlost, ite_self]

theorem slots_size_closed (r : Reactor σ) :
    r.closed.transports.slots.size = r.transports.slots.size := by
  let r₁ := r.transports.ids.foldl (fun r id => r.loseTransport id Status.closedHere) r
  obtain ⟨ids, hshut⟩ := exists_transports_shutdowns (List.range r₁.channels.length) r₁
  have hsize : r.closed.transports.slots.size = (r₁.transports.removeAll ids).slots.size :=
    congrArg (·.slots.size) hshut
  rw [hsize, Arena.slots_size_removeAll, transports_loseAll, Arena.slots_size_removeAll]

/-- **Nothing stays watched.** -/
theorem watch_teardown (htidy : r.custody.Tidy) (hsound : r.transports.Sound)
    (hfits : r.closed.transports.Fits) (hshut : ∀ {j c}, r.closed.channel? j = some c → Shut c) :
    r.teardown.watch = [] := by
  have hclosed : r.closed.custody.Tidy := (moves_closed hsound hfits).tidy htidy
  have hsockets : ∀ (i : Nat) (d : Descriptor), r.closed.custody.sockets[i]? ≠ some (some d) := by
    intro i d hd
    obtain ⟨c, hc, hsocket⟩ := exists_of_socket hd
    simp [(hshut hc).socket] at hsocket
  have hheld : ∀ id, r.closed.custody.held id = none := fun id =>
    congrArg (Option.map _) (get?_closed r id)
  have honly := hclosed.interrupter hsockets hheld
  rw [List.eq_nil_iff_forall_not_mem]
  intro m hm
  obtain ⟨hm, hne⟩ := Custody.mem_deregister.1 hm
  exact hne (honly m hm)

end Reactor

namespace Course

variable {σ : Type} [Host σ] {x : Course σ}

/-- What is left of a run that ended. -/
structure Ended (x : Course σ) : Prop where
  /-- What was announced is lost, once, and closed. -/
  lost : ∀ m ∈ x.log, ∀ h, m.event.announces h →
    x.log.countP (·.event.loses h) = 1 ∧ x.service.isLive h = false
  states : x.service.states = List.replicate x.reactor.channels.length .closed
  slots : x.reactor.transports.IsVoid
  watch : x.reactor.watch = []
  timers : x.service.timers.entries = [] ∧ x.service.timers.keys = []
  commands : x.service.commands = []
  running : x.service.running = false

omit [Host σ] in
/-- A connection that is held no more is closed, and its loss was told once. -/
theorem lost_of_not_held (hbooked : x.reactor.Booked x.told x.made) {m : Emission} (hm : m ∈ x.log)
    {h : Handle} (hannounced : m.event.announces h) (hnone : x.reactor.transports.get? h.id = none) :
    x.log.countP (·.event.loses h) = 1 ∧ x.service.isLive h = false := by
  have hhandle : m.event.handle? = some h := by
    obtain ⟨channel, status, heq⟩ := hannounced
    rw [heq]
    rfl
  have hholder : x.ledger.holder h.id = none := congrArg (Option.map _) hnone
  have hmem : h ∈ x.ledger.handles := hbooked.balanced.known m hm hhandle
  refine ⟨?_, ?_⟩
  · have hlosses := hbooked.balanced.losses h hmem
    rw [show (x.reactor.ledger x.told x.made).holder h.id = none from hholder] at hlosses
    exact hlosses.trans (if_neg (Option.some_ne_none h).symm)
  · have hplace := hbooked.numbered.getElem? (List.mem_of_mem_drop hmem)
    have hmade : x.made ≤ h.serial := by
      obtain ⟨k, hk⟩ := List.mem_iff_getElem?.1 hmem
      have hk : x.service.handles[x.made + k]? = some h := List.getElem?_drop.symm.trans hk
      rw [hbooked.numbered _ _ hk]
      exact Nat.le_add_right _ _
    obtain ⟨c, hc, rfl⟩ := Option.map_eq_some_iff.1 (List.getElem?_map.symm.trans hplace)
    have hroll : x.service.roll[c.handle.serial]? = some (c.handle, c.isOpen) := by
      rw [Service.roll, List.getElem?_map, show x.service.connections.toList[c.handle.serial]? = some c
        from hc, Option.map_some]
    have hclosed : ¬ c.isOpen = true := fun hopen => by
      have hheld := (hbooked.agree _ _ _ hmade hroll).1 hopen
      exact Option.some_ne_none _ (hheld.symm.trans hholder)
    have hconnection : x.service.connection? c.handle = some c :=
      (Array.getElem?_toList ..).symm.trans hc
    simpa [Service.isLive, hconnection] using hclosed

theorem ended_teardown (h : x.Reachable) (hrunning : x.service.running = true)
    (hstopping : x.service.stopping = true) (hdue : x.due = []) (hfits : x.reactor.transports.Fits) :
    (x.withReactor x.reactor.teardown).Ended := by
  let y := x.withReactor x.reactor.teardown
  have hy : y.Reachable := h.step (.stop hrunning hstopping hdue)
  have hfits' : x.reactor.closed.transports.Fits := by
    rw [Arena.Fits, Reactor.slots_size_closed]
    exact hfits
  have hbooked : y.reactor.Booked y.told y.made := hy.booked hfits'
  have hnone : ∀ id, y.reactor.transports.get? id = none := Reactor.get?_closed x.reactor
  obtain ⟨hrest, hshut⟩ := Reactor.atRest_closed (h.kept.atRest hfits) hfits'
  refine ⟨fun m hm g hannounced => lost_of_not_held hbooked hm hannounced (hnone g.id), ?_,
    Arena.isVoid_of_get? hbooked.balanced.arena hfits' hnone,
    Reactor.watch_teardown (h.tidy hfits) h.kept.sound hfits' hshut, ⟨rfl, rfl⟩, rfl, rfl⟩
  have hmirrored : y.service.states = y.reactor.channels.map (·.state) := hy.kept.mirrored
  rw [hmirrored, List.eq_replicate_iff]
  refine ⟨List.length_map _, fun state hstate => ?_⟩
  obtain ⟨c, hc, rfl⟩ := List.mem_map.1 hstate
  obtain ⟨j, hj⟩ := List.mem_iff_getElem?.1 hc
  exact (hshut (j := j) hj).state

/-- **A loop that is to stop comes to its end and leaves nothing behind**, from whatever it had open. -/
theorem ended_of_stopping (h : x.Reachable) (hrunning : x.service.running = true)
    (hstopping : x.service.stopping = true) (hdue : x.due = []) (hfits : x.reactor.transports.Fits)
    (turns : Nat) :
    ∃ r, x.reactor.run (turns + 1) = (true, r) ∧ (x.withReactor r).Ended := by
  refine ⟨x.reactor.teardown, ?_, ended_teardown h hrunning hstopping hdue hfits⟩
  exact if_pos hstopping

open Simulation in
/-- One client is connected, the open of another is still queued, and a timer of the application's is set. -/
theorem ended_with_open_connection : ∃ (x : Course Prompt) (r : Reactor Prompt) (h : Handle),
    x.Reachable ∧ x.reactor.transports.get? h.id ≠ none ∧ x.reactor.watch.length = 2 ∧
    x.reactor.run 1 = (true, r) ∧ (x.withReactor r).Ended ∧
    (x.withReactor r).log.map (·.event) =
      [.connectResponse 0 Status.ok (some h), .connectionLost 0 Status.closedHere h] := by
  have hnew : (new Options.standard (⟨1, []⟩ : Prompt)).Reachable := ⟨_, _, .refl⟩
  have hstart := hnew.step (.start rfl rfl 0 [⟨"10.0.0.1", 80⟩, ⟨"10.0.0.2", 80⟩])
  have hasked := hstart.step (.request ⟨0⟩ (.openChannel 0 .tcpClient))
  have hconnected := hasked.step (.command (by rfl) (by rfl))
  have htimed := hconnected.step (.request ⟨0⟩ (.schedule (.ofMillis 50) false 0))
  have hagain := htimed.step (.request ⟨0⟩ (.openChannel 1 .tcpClient))
  have hstopped := hagain.step (.request ⟨0⟩ .stop)
  obtain ⟨r, hrun, hended⟩ := ended_of_stopping hstopped (by rfl) (by rfl) (by rfl) (by decide) 0
  obtain rfl := (Prod.mk.inj hrun).2
  refine ⟨_, _, ⟨0, ⟨0, 0⟩, 0, .tcpClient, none, none⟩, hstopped, ?_, by rfl, hrun, hended, by rfl⟩
  exact Option.isSome_iff_ne_none.1 (by rfl)

end Course

end NetReactor
