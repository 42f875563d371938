import NetReactor.Proofs.Reactor.Losses

/-!
# How long a handle means one connection

Handles compare by the identifier, and every run gives its identifiers out anew. **In one run different
connections never compare equal, and what is asked of a connection that is gone comes to nothing**; over a
service's lifetime two connections compare equal only if a run began between them
(`equal_only_across_restart`). After a restart a handle of an earlier run may well name a connection of the
new one, and closes it (`alias_after_restart`).
-/

namespace NetReactor

namespace Reactor

variable {σ : Type} [Host σ] {r r' : Reactor σ} {i : Nat}

theorem Move.handles_grow (h : Move i r r') : r.service.handles <+: r'.service.handles := by
  have hadded : ∀ mask d, r.service.handles <+: (r.addTransport i mask d).2.service.handles := by
    intro mask d
    rw [handles_addTransport]
    exact List.prefix_append _ _
  cases h with
  | aside hservice hchannels htransports => exact hservice ▸ List.prefix_refl _
  | play hplay =>
    have hplayed := handles_of_stage (Service.Plays.stage (.single hplay))
    exact hplayed ▸ List.prefix_refl _
  | announce mask d => exact hadded mask d
  | greet mask d hplays channel payload =>
    have hplayed := handles_of_stage hplays.stage
    exact hplayed ▸ hadded mask d
  | @lose id t s status ht hi hplays =>
    have hplayed := handles_of_stage hplays.stage
    have hclosed := handles_close r.service t.handle status
    exact (hplayed.trans hclosed) ▸ List.prefix_refl _
  | _ => exact List.prefix_refl _

/-- Connections are only ever added. -/
theorem Trail.handles_grow (h : Trail r r') : r.service.handles <+: r'.service.handles :=
  h.keeps (P := fun r' => r.service.handles <+: r'.service.handles)
    (fun hmove hgrown => hgrown.trans hmove.handles_grow) (List.prefix_refl _)

end Reactor

namespace Course

variable {σ : Type}

/-- The slots can be named, and none was released 2^32 times in the run. -/
structure Bounded (x : Course σ) : Prop where
  fits : x.reactor.transports.Fits
  released : ∀ slot, x.ledger.released slot < UInt32.size

variable [Host σ] {x y : Course σ} {o : Options} {w : σ}

/-- Any number of steps, through such states only. -/
abbrev Through : Course σ → Course σ → Prop := Along fun _ y => y.Bounded

omit [Host σ] in
/-- A run that told fewer events released nothing too often. -/
theorem bounded_of_length (hfits : x.reactor.transports.slots.size ≤ UInt32.size)
    (hlog : x.ledger.log.length < UInt32.size) : x.Bounded :=
  ⟨hfits, fun _ => Nat.lt_of_le_of_lt List.countP_le_length hlog⟩

omit [Host σ] in
theorem bounded_new : (new o w).Bounded := by
  refine bounded_of_length (Nat.zero_le _) ?_
  show 0 < UInt32.size
  decide

theorem Through.bounded (h : (new o w).Through x) : x.Bounded := by
  cases h with
  | refl => exact bounded_new
  | tail _ hstep => exact hstep.2

theorem Through.reachable (h : (new o w).Through x) : x.Reachable := ⟨o, w, h.steps⟩

theorem Advance.handles_grow (h : x.Advance y) : x.service.handles <+: y.service.handles := by
  cases h with
  | handled h => exact h.trail.handles_grow
  | poll hdue => exact List.prefix_refl _
  | fire hdue => exact (Reactor.trail_fire _ _).handles_grow
  | stop hdue =>
    have hclosed := (Reactor.trail_closed x.reactor).handles_grow
    exact Reactor.handles_teardown x.reactor ▸ hclosed
  | start hrunning hdue callback endpoints =>
    rw [Service.start_of_not_running hrunning]
    exact List.prefix_refl _

/-- A run begins after all that was made before it. -/
theorem Advance.made_le (h : x.Advance y) (hx : x.made ≤ x.service.handles.length) :
    y.made ≤ x.service.handles.length := by
  cases h with
  | start hrunning hdue callback endpoints => simp [Service.handles]
  | _ => exact hx

/-- **The connections of one run are told apart by their handles.** -/
theorem eq_of_equal (h : x.Reachable) (hx : x.Bounded) {k k' : Nat} {g g' : Handle}
    (hk : x.made ≤ k) (hk' : x.made ≤ k') (hg : x.service.handles[k]? = some g)
    (hg' : x.service.handles[k']? = some g') (hequal : g.equal g' = true) : k = k' := by
  have hsound := h.recorded.sound hx.fits hx.released
  have hplace : ∀ {j : Nat} {f : Handle}, x.made ≤ j → x.service.handles[j]? = some f →
      f ∈ x.ledger.handles := by
    intro j f hj hf
    refine List.mem_of_getElem? (i := j - x.made) ?_
    rw [ledger, Reactor.ledger, List.getElem?_drop, Nat.add_sub_cancel' hj]
    exact hf
  have hid : g.id = g'.id := of_decide_eq_true hequal
  obtain rfl := hsound.eq_of_id (hplace hk hg) (hplace hk' hg') hid
  rw [← h.numbered k g hg, h.numbered k' g hg']

/-- **Between two connections that compare equal a run began.** -/
theorem exists_restart (h : (new o w).Through x) {k k' : Nat} {g g' : Handle} (hlt : k < k')
    (hg : x.service.handles[k]? = some g) (hg' : x.service.handles[k']? = some g')
    (hequal : g.equal g' = true) :
    ∃ z, (new o w).Steps z ∧ z.Steps x ∧ k < z.made ∧ z.made ≤ k' := by
  induction h with
  | refl => simp [service, new, Reactor.new, Service.handles, Service.ofOptions] at hg
  | @tail x y hsteps hstep ih =>
    have hy : y.Reachable := ⟨o, w, (Along.steps hsteps).tail hstep.1⟩
    rcases Nat.lt_or_ge k' y.made with hbefore | hafter'
    · -- both were there before the step
      have hx : x.Reachable := ⟨o, w, Along.steps hsteps⟩
      have hmade := hstep.1.advance.made_le hx.recorded.counts.made
      have hkept : ∀ {j : Nat}, j ≤ k' → x.service.handles[j]? = y.service.handles[j]? := by
        intro j hj
        have hin : j < x.service.handles.length :=
          Nat.lt_of_le_of_lt hj (Nat.lt_of_lt_of_le hbefore hmade)
        obtain ⟨later, hlater⟩ := hstep.1.advance.handles_grow
        rw [← hlater, List.getElem?_append_left hin]
      obtain ⟨z, hz, hzx, hbetween⟩ := ih ((hkept (Nat.le_of_lt hlt)).trans hg)
        ((hkept (Nat.le_refl _)).trans hg')
      exact ⟨z, hz, hzx.tail hstep.1, hbetween⟩
    · rcases Nat.lt_or_ge k y.made with hbefore | hafter
      · exact ⟨y, (Along.steps hsteps).tail hstep.1, .refl, hbefore, hafter'⟩
      · exact absurd (eq_of_equal hy hstep.2 hafter hafter' hg hg' hequal) (Nat.ne_of_lt hlt)

/-- What is asked of a connection of the run that is gone comes to nothing. -/
theorem closeTransport_of_gone (h : x.Reachable) (hx : x.Bounded) {k : Nat} {c : Connection}
    (hk : x.made ≤ k) (hc : x.service.connections[k]? = some c) (hgone : c.isOpen = false) :
    x.reactor.closeTransport c.handle.id = x.reactor := by
  have hbooked := h.booked hx.fits
  have hsound := h.recorded.sound hx.fits hx.released
  have hat : x.service.connections.toList[k]? = some c := (Array.getElem?_toList ..).trans hc
  have hmem : c.handle ∈ x.ledger.handles := by
    refine List.mem_of_getElem? (i := k - x.made) ?_
    rw [ledger, Reactor.ledger, List.getElem?_drop, Nat.add_sub_cancel' hk, Service.handles,
      List.getElem?_map]
    exact congrArg _ hat
  have hroll : x.service.roll[k]? = some (c.handle, c.isOpen) := by
    rw [Service.roll, List.getElem?_map, hat, Option.map_some]
  refine Reactor.closeTransport_of_none ?_
  rw [Option.eq_none_iff_forall_ne_some]
  intro t ht
  -- what is held under the identifier can only be the connection itself
  have hheld : x.ledger.holder c.handle.id = some t.handle := congrArg (Option.map _) ht
  obtain ⟨hid, hin⟩ := hsound.held hheld
  have hsame : t.handle = c.handle := hsound.eq_of_id hin hmem hid
  have hopen := (hbooked.agree k _ _ hk hroll).2 (hsame ▸ hheld)
  simp [hgone] at hopen

/-- **Over a lifetime, two connections compare equal only if a run began between them**; and a connection of
the current run that is gone can no longer be closed, nor anything else under its identifier. -/
theorem equal_only_across_restart (h : (new o w).Through x) :
    (∀ {k k' : Nat} {c c' : Connection}, k < k' → x.service.connections[k]? = some c →
      x.service.connections[k']? = some c' → c.handle.equal c'.handle = true →
        ∃ z, (new o w).Steps z ∧ z.Steps x ∧ k < z.made ∧ z.made ≤ k') ∧
    (∀ {k : Nat} {c : Connection}, x.made ≤ k → x.service.connections[k]? = some c →
      c.isOpen = false → x.reactor.closeTransport c.handle.id = x.reactor) := by
  have hhandle : ∀ {k : Nat} {c : Connection}, x.service.connections[k]? = some c →
      x.service.handles[k]? = some c.handle := by
    intro k c hc
    have hat : x.service.connections.toList[k]? = some c := (Array.getElem?_toList ..).trans hc
    rw [Service.handles, List.getElem?_map, hat, Option.map_some]
  refine ⟨fun hlt hc hc' hequal => exists_restart h hlt (hhandle hc) (hhandle hc') hequal, ?_⟩
  intro k c hk hc hgone
  exact closeTransport_of_gone h.reachable h.bounded hk hc hgone

open Simulation in
/-- A client is connected, the service is stopped and started, and the client is connected twice over in one
slot: a run began between the two that compare equal, and the handle of the second is spent. -/
theorem spent_handle_in_reused_slot : ∃ (o : Options) (x : Course Prompt) (c c' c'' : Connection),
    (new o (⟨1, []⟩ : Prompt)).Through x ∧ x.service.connections[0]? = some c ∧
    x.service.connections[1]? = some c' ∧ x.service.connections[2]? = some c'' ∧
    c'.isOpen = false ∧ c''.isOpen = true ∧ c'.handle.id = ⟨0, 0⟩ ∧ c''.handle.id = ⟨0, 1⟩ ∧
    c.handle.equal c'.handle = true ∧
    (∃ z, (new o (⟨1, []⟩ : Prompt)).Steps z ∧ z.Steps x ∧ 0 < z.made ∧ z.made ≤ 1) ∧
    x.reactor.closeTransport c'.handle.id = x.reactor := by
  have hnew : (new Options.standard (⟨1, []⟩ : Prompt)).Through _ := .refl _
  have hstart := hnew.step (.start rfl rfl 0 [⟨"10.0.0.1", 80⟩]) (bounded_of_length (by decide) (by decide))
  have hasked := hstart.step (.request ⟨0⟩ (.openChannel 0 .tcpClient))
    (bounded_of_length (by decide) (by decide))
  have hconnected := hasked.step (.command (by rfl) (by rfl)) (bounded_of_length (by decide) (by decide))
  have hstopping := hconnected.step (.request ⟨0⟩ .stop) (bounded_of_length (by decide) (by decide))
  have hstopped := hstopping.step (.stop (by rfl) (by rfl) (by rfl))
    (bounded_of_length (by decide) (by decide))
  have hstart' := hstopped.step (.start (by rfl) (by rfl) 0 [⟨"10.0.0.1", 80⟩])
    (bounded_of_length (by decide) (by decide))
  have hasked' := hstart'.step (.request ⟨0⟩ (.openChannel 0 .tcpClient))
    (bounded_of_length (by decide) (by decide))
  have hconnected' := hasked'.step (.command (by rfl) (by rfl)) (bounded_of_length (by decide) (by decide))
  have hagain := hconnected'.step (.request ⟨0⟩ (.openChannel 0 .tcpClient))
    (bounded_of_length (by decide) (by decide))
  have hreopened := hagain.step (.command (by rfl) (by rfl)) (bounded_of_length (by decide) (by decide))
  obtain ⟨hrestart, hspent⟩ := equal_only_across_restart hreopened
  refine ⟨_, _, _, _, _, hreopened, by rfl, by rfl, by rfl, by rfl, by rfl, by rfl, by rfl, by rfl,
    ?_, ?_⟩
  · exact hrestart Nat.zero_lt_one (by rfl) (by rfl) (by rfl)
  · exact hspent (k := 1) (Nat.le_refl _) (by rfl) (by rfl)

open Simulation in
/-- **A handle of an earlier run names a connection of the next**: the two compare equal, and to reopen the
first, long closed, loses the second. -/
theorem alias_after_restart : ∃ (o : Options) (x y : Course Prompt) (c c' : Connection),
    (new o (⟨1, []⟩ : Prompt)).Through x ∧ x.service.connections[0]? = some c ∧
    x.service.connections[1]? = some c' ∧ c.isOpen = false ∧ c'.isOpen = true ∧
    c.handle.equal c'.handle = true ∧
    (x.reactor.closeTransport c.handle.id).service.isLive c'.handle = false ∧
    (x.withReactor { x.reactor with
      service := (x.service.perform ⟨0⟩ (.reopen c.handle)).2 }).Step y ∧
    y.service.isLive c'.handle = false := by
  have hnew : (new Options.standard (⟨1, []⟩ : Prompt)).Through _ := .refl _
  have hstart := hnew.step (.start rfl rfl 0 [⟨"10.0.0.1", 80⟩]) (bounded_of_length (by decide) (by decide))
  have hasked := hstart.step (.request ⟨0⟩ (.openChannel 0 .tcpClient))
    (bounded_of_length (by decide) (by decide))
  have hconnected := hasked.step (.command (by rfl) (by rfl)) (bounded_of_length (by decide) (by decide))
  have hstopping := hconnected.step (.request ⟨0⟩ .stop) (bounded_of_length (by decide) (by decide))
  have hstopped := hstopping.step (.stop (by rfl) (by rfl) (by rfl))
    (bounded_of_length (by decide) (by decide))
  have hstart' := hstopped.step (.start (by rfl) (by rfl) 0 [⟨"10.0.0.1", 80⟩])
    (bounded_of_length (by decide) (by decide))
  have hasked' := hstart'.step (.request ⟨0⟩ (.openChannel 0 .tcpClient))
    (bounded_of_length (by decide) (by decide))
  have hconnected' := hasked'.step (.command (by rfl) (by rfl)) (bounded_of_length (by decide) (by decide))
  exact ⟨_, _, _, _, _, hconnected', by rfl, by rfl, by rfl, by rfl, by rfl, by rfl,
    .command (by rfl) (by rfl), by rfl⟩

end Course

end NetReactor
