import NetReactor.Proofs.Reactor.Answers
import NetReactor.Proofs.Reactor.Ledger

/-!
# The story of every connection

**Whatever the loop does, of every connection that a run makes the same story is told**
(`storied_of_reachable`): an announcement with success, then packets, then the loss, once the identifier is
out of its slot, and nothing after. The connection is closed when its loss is told, and the next
connection in its slot is announced later. A run's ledger goes from change to change with every move of
the loop (`Move.ledger`).
-/

namespace NetReactor

open Timer (Expired)

/-- The connections of a service, in the order they were made. -/
def Service.handles (s : Service) : List Handle := s.connections.toList.map (·.handle)

namespace Reactor

variable {σ : Type}

/-- What a run has come to that began with so many events and connections. -/
def ledger (r : Reactor σ) (told made : Nat) : Ledger :=
  ⟨r.service.handles.drop made, r.transports, r.service.emitted.toList.drop told⟩

/-- Earlier runs' events and connections are still there. -/
structure Counts (r : Reactor σ) (told made : Nat) : Prop where
  told : told ≤ r.service.emitted.toList.length
  made : made ≤ r.service.handles.length

theorem handles_of_stage {s s' : Service} (h : s'.stage = s.stage) : s'.handles = s.handles := by
  have hconnections := congrArg (fun x => x.2.2.1.map Prod.fst) h
  simpa [Service.stage, Service.handles, Function.comp_def] using hconnections

theorem ledger_congr {r r' : Reactor σ} (told made : Nat) (hstage : r'.service.stage = r.service.stage)
    (htransports : r'.transports = r.transports) : r'.ledger told made = r.ledger told made := by
  rw [ledger, ledger, handles_of_stage hstage, htransports, show r'.service.emitted = r.service.emitted from
    congrArg (·.2.1) hstage]

theorem ledger_record {r : Reactor σ} {told made : Nat} (hr : r.Counts told made) (e : Event) :
    (r.record e).ledger told made = (r.ledger told made).tell (r.emission e) := by
  rw [ledger, emitted_record, List.drop_append_of_le_length hr.told]
  rfl

theorem counts_record {r : Reactor σ} {told made : Nat} (hr : r.Counts told made) (e : Event) :
    (r.record e).Counts told made := by
  refine ⟨?_, hr.made⟩
  rw [emitted_record, List.length_append]
  exact Nat.le_trans hr.told (Nat.le_add_right _ _)

theorem Counts.of_stage {r r' : Reactor σ} {told made : Nat} (hr : r.Counts told made)
    (hstage : r'.service.stage = r.service.stage) : r'.Counts told made := by
  refine ⟨?_, handles_of_stage hstage ▸ hr.made⟩
  rw [show r'.service.emitted = r.service.emitted from congrArg (·.2.1) hstage]
  exact hr.told

theorem handles_close (s : Service) (h : Handle) (status : Status) :
    (s.updateConnection h (·.close status)).handles = s.handles := by
  refine List.ext_getElem? fun k => ?_
  simp only [Service.handles, Service.updateConnection, List.getElem?_map, Array.toList_modify,
    List.getElem?_modify]
  cases s.connections.toList[k]? with
  | none => rfl
  | some c => split <;> simp [Connection.close]

variable [Host σ] {r r' : Reactor σ} {i : Nat} {told made : Nat}

theorem handles_addTransport (r : Reactor σ) (i : Nat) (mask : ChannelMask) (d : Descriptor) :
    (r.addTransport i mask d).2.service.handles =
      r.service.handles ++ [(r.addTransport i mask d).1] := by
  simp [addTransport, Service.handles, Connection.ofHandle, watchFor]

theorem counts_addTransport (hr : r.Counts told made) (i : Nat) (mask : ChannelMask) (d : Descriptor) :
    (r.addTransport i mask d).2.Counts told made := by
  refine ⟨hr.told, ?_⟩
  rw [handles_addTransport, List.length_append]
  exact Nat.le_trans hr.made (Nat.le_add_right _ _)

/-- **An announced connection is new to the ledger.** -/
theorem ledger_announced (hr : r.Counts told made) (i : Nat) (mask : ChannelMask) (d : Descriptor) :
    (r.ledger told made).Move ((r.announced i mask d).ledger told made) := by
  let h := (r.addTransport i mask d).1
  have hadded := counts_addTransport hr i mask d
  have hannounced : (r.announced i mask d).ledger told made =
      ⟨r.service.handles.drop made ++ [h], (r.addTransport i mask d).2.transports,
        r.service.emitted.toList.drop told ++
          [(r.addTransport i mask d).2.emission (.connectResponse i Status.ok (some h))]⟩ := by
    rw [announced, ledger_record hadded, Ledger.tell, ledger, handles_addTransport,
      List.drop_append_of_le_length hr.made]
    rfl
  rw [hannounced]
  exact .announce (v := r.ledger told made) (fun _ => rfl) rfl rfl

omit [Host σ] in
/-- **A lost connection's loss goes to the ledger**, whatever the application plays then. -/
theorem ledger_lost (hr : r.Counts told made) {id : TransportId} {t : Transport} {s : Service}
    (status : Status) (ht : r.transports.get? id = some t)
    (hplays : (r.farewell t status).service.Plays s) :
    (r.ledger told made).Move
      (ledger { r with service := s, transports := (r.transports.remove id).2 } told made) := by
  let r₁ : Reactor σ := { r with service := r.service.updateConnection t.handle (·.close status) }
  have hclosed : r₁.Counts told made :=
    ⟨hr.told, (handles_close r.service t.handle status).symm ▸ hr.made⟩
  have hsilent : r₁.ledger told made = r.ledger told made := by
    rw [ledger, ledger, show r₁.service.handles = r.service.handles from handles_close _ _ _]
    rfl
  have htold := ledger_record hclosed (.connectionLost t.handle.channel status t.handle)
  have hplayed : ledger { r.farewell t status with service := s } told made =
      (r.farewell t status).ledger told made := ledger_congr told made hplays.stage rfl
  have hholder : (r.ledger told made).holder id = some t.handle := congrArg (Option.map _) ht
  have hlost : ledger { r with service := s, transports := (r.transports.remove id).2 } told made =
      (r.ledger told made).lost id
        (r₁.emission (.connectionLost t.handle.channel status t.handle)) := by
    rw [Ledger.lost, ← hsilent, ← htold]
    obtain ⟨hhandles, -, hlog⟩ := Ledger.mk.inj hplayed
    exact congrArg₂ (Ledger.mk · (r.transports.remove id).2 ·) hhandles hlog
  rw [hlost]
  exact .lose hholder rfl

/-- Earlier runs' events and connections stay. -/
theorem Move.counts (h : Move i r r') (hr : r.Counts told made) : r'.Counts told made := by
  cases h with
  | aside hservice hchannels htransports => exact hr.of_stage (congrArg Service.stage hservice)
  | play hplay => exact hr.of_stage (Service.Plays.stage (.single hplay))
  | refuse h => exact counts_record hr _
  | packet ht channel payload => exact counts_record hr _
  | announce mask d => exact counts_record (counts_addTransport hr i mask d) _
  | @greet s mask d hplays channel payload =>
    have hannounced : (r.announced i mask d).Counts told made :=
      counts_record (counts_addTransport hr i mask d) _
    have hplayed : Counts { r.announced i mask d with service := s } told made :=
      hannounced.of_stage hplays.stage
    exact counts_record hplayed _
  | @lose id t s status ht hi hplays =>
    have hclosed : Counts { r with service := r.service.updateConnection t.handle (·.close status) }
        told made := ⟨hr.told, (handles_close r.service t.handle status).symm ▸ hr.made⟩
    have hfarewell : (r.farewell t status).Counts told made := counts_record hclosed _
    have hplayed : Counts { r.farewell t status with service := s } told made :=
      hfarewell.of_stage hplays.stage
    exact ⟨hplayed.told, hplayed.made⟩
  | _ => exact ⟨hr.told, hr.made⟩

/-- **A move changes the ledger by what it tells.** -/
theorem Move.ledger (h : Move i r r') (hr : r.Counts told made) (hsound : r.transports.Sound)
    (hfits : r'.transports.Fits) : (r.ledger told made).Moves (r'.ledger told made) := by
  have hsame : ∀ {r' : Reactor σ}, r'.service.stage = r.service.stage → r'.transports = r.transports →
      (r.ledger told made).Moves (r'.ledger told made) := fun hstage htransports => by
    rw [ledger_congr told made hstage htransports]
    exact .refl
  cases h with
  | aside hservice hchannels htransports => exact hsame (congrArg Service.stage hservice) htransports
  | play hplay => exact hsame (Service.Plays.stage (.single hplay)) rfl
  | transport id hf => exact .single (.keep id hf)
  | refuse h =>
    rw [ledger_record hr]
    exact .single (.refuse rfl)
  | @packet id t ht channel payload =>
    rw [ledger_record hr]
    have hholder : (r.ledger told made).holder id = some t.handle := congrArg (Option.map _) ht
    exact .single (.packet hholder rfl)
  | announce mask d => exact .single (ledger_announced hr i mask d)
  | @greet s mask d hplays channel payload =>
    let h := (r.addTransport i mask d).1
    let r₁ : Reactor σ := { r.announced i mask d with service := s }
    have hannounced : (r.announced i mask d).Counts told made :=
      counts_record (counts_addTransport hr i mask d) _
    have hplayed : r₁.ledger told made = (r.announced i mask d).ledger told made :=
      ledger_congr told made hplays.stage rfl
    have hholder : ((r.announced i mask d).ledger told made).holder h.id = some h := by
      have hget := get?_addTransport (i := i) hsound hfits h.id
      rw [if_pos rfl] at hget
      exact congrArg (Option.map _) hget
    have htold := ledger_record (r := r₁) (hannounced.of_stage hplays.stage) (.packet channel h payload)
    refine Relation.ReflTransGen.tail (.single (ledger_announced hr i mask d)) ?_
    rw [htold, hplayed]
    exact .packet hholder rfl
  | lose status ht hi hplays => exact .single (ledger_lost hr status ht hplays)
  | _ => exact .refl

theorem Trail.counts (h : Trail r r') (hr : r.Counts told made) : r'.Counts told made :=
  h.keeps (P := (·.Counts told made)) (fun hmove => hmove.counts) hr

theorem Trail.ledger (h : Trail r r') (hr : r.Counts told made) (hsound : r.transports.Sound)
    (hfits : r'.transports.Fits) : (r.ledger told made).Moves (r'.ledger told made) := by
  have hkept : r'.Counts told made ∧ (r.ledger told made).Moves (r'.ledger told made) :=
    h.keeps_fitting (P := fun r' => r'.Counts told made ∧ (r.ledger told made).Moves (r'.ledger told made))
      (fun hmove hsound hfits hr => ⟨hmove.counts hr.1,
        Relation.ReflTransGen.trans hr.2 (hmove.ledger hr.1 hsound hfits)⟩) hsound ⟨hr, .refl⟩ hfits
  exact hkept.2

end Reactor

namespace Course

variable {σ : Type}

/-- The current run's connections, slots and events. -/
def ledger (x : Course σ) : Ledger := x.reactor.ledger x.told x.made

variable [Host σ] {x y : Course σ}

/-- The ledger is kept, as long as the slots can be named and none is released too often. -/
structure Recorded (x : Course σ) : Prop where
  counts : x.reactor.Counts x.told x.made
  sound : x.reactor.transports.Fits → (∀ slot, x.ledger.released slot < UInt32.size) → x.ledger.Sound

theorem Recorded.trail (hx : x.Recorded) (hsound : x.reactor.transports.Sound) {r : Reactor σ}
    (h : Reactor.Trail x.reactor r) (due : List (Expired Task)) (opens : List (Nat × ChannelMask)) :
    Recorded { x with reactor := r, due := due, opens := opens } := by
  refine ⟨h.counts hx.counts, fun hfits hbound => ?_⟩
  have hmoves : x.ledger.Moves (r.ledger x.told x.made) := h.ledger hx.counts hsound hfits
  have hbound₀ := fun slot => Nat.lt_of_le_of_lt (hmoves.released_le slot) (hbound slot)
  exact hmoves.sound (hx.sound (h.fits hfits) hbound₀) hfits hbound

theorem Advance.recorded (h : x.Advance y) (hkept : x.reactor.Kept x.due) (hx : x.Recorded) :
    y.Recorded := by
  cases h with
  | handled h => exact hx.trail hkept.sound h.trail _ _
  | poll hdue => exact ⟨⟨hx.counts.told, hx.counts.made⟩, hx.sound⟩
  | fire hdue => exact hx.trail hkept.sound (Reactor.trail_fire _ _) _ _
  | stop hdue =>
    have hclosed := hx.trail hkept.sound (Reactor.trail_closed x.reactor) x.due x.opens
    exact ⟨⟨hclosed.counts.told, hclosed.counts.made⟩, hclosed.sound⟩
  | start hrunning hdue callback endpoints =>
    rw [Service.start_of_not_running hrunning]
    refine ⟨⟨?_, ?_⟩, fun _ _ => ?_⟩
    · simp [Reactor.new]
    · simp [Reactor.new, Service.handles]
    · have hnothing : ∀ {v : Ledger}, v = ⟨[], .empty, []⟩ → v.Sound := fun heq => heq ▸ Ledger.sound_nil
      refine hnothing (Ledger.mk.injEq .. ▸ ⟨?_, rfl, ?_⟩)
      · simp [Reactor.new, Service.handles, ← Array.length_toList]
      · simp [Reactor.new, ← Array.length_toList]

theorem Reachable.recorded (h : x.Reachable) : x.Recorded := by
  obtain ⟨o, w, hsteps⟩ := h
  induction hsteps with
  | refl => exact ⟨⟨Nat.zero_le _, Nat.zero_le _⟩, fun _ _ => Ledger.sound_nil⟩
  | tail hsteps hstep ih => exact hstep.advance.recorded (Reachable.kept ⟨o, w, hsteps⟩) ih

/-- What is told about an identifier in the run, in order. -/
def eventsOf (x : Course σ) (id : TransportId) : List Event :=
  (x.log.map (·.event)).filter (·.about id)

/-- The story of the connection with number `k` and handle `h`. -/
structure Storied (x : Course σ) (k : Nat) (h : Handle) : Prop where
  /-- Success, packets, and the loss once the identifier is out of its slot. -/
  tale : ∃ packets, (∀ e ∈ packets, ∃ channel payload, e = .packet channel h payload) ∧
    if x.reactor.transports.contains h.id then
      x.eventsOf h.id = .connectResponse h.channel Status.ok (some h) :: packets
    else ∃ status, x.eventsOf h.id =
      .connectResponse h.channel Status.ok (some h) :: packets ++ [.connectionLost h.channel status h]
  closed : ∀ m ∈ x.log, m.event.loses h → m.isOpen = false
  /-- A later connection in the same slot is announced after the loss. -/
  before : ∀ {k' : Nat} {c' : Connection}, k < k' → x.service.connections[k']? = some c' →
    c'.handle.id.slot = h.id.slot → ∀ {before m after}, x.log = before ++ m :: after →
      m.event.announces c'.handle → ∃ m' ∈ before, m'.event.loses h

/-- **Every connection of a run has its story**: announced once, packets, and lost once it is out of its
slot, closed before that is told, and told before the slot's next connection is announced. -/
theorem storied_of_reachable (h : x.Reachable) (hfits : x.reactor.transports.Fits)
    (hslots : ∀ slot, x.ledger.released slot < UInt32.size) {k : Nat} {c : Connection} (hk : x.made ≤ k)
    (hc : x.service.connections[k]? = some c) : x.Storied k c.handle := by
  have hsound := h.recorded.sound hfits hslots
  have hplace : ∀ {j : Nat} {d : Connection}, x.made ≤ j → x.service.connections[j]? = some d →
      x.ledger.handles[j - x.made]? = some d.handle := by
    intro j d hj hd
    have hd : x.reactor.service.connections.toList[j]? = some d := (Array.getElem?_toList ..).trans hd
    rw [ledger, Reactor.ledger, List.getElem?_drop, Nat.add_sub_cancel' hj, Service.handles,
      List.getElem?_map, hd, Option.map_some]
  have hmem : c.handle ∈ x.ledger.handles := List.mem_of_getElem? (hplace hk hc)
  refine ⟨?_, fun m hm hloses => ?_, fun {k' c'} hlt hc' hslot {before m after} hlog hannounces => ?_⟩
  · cases hsound.tale c.handle hmem with
    | held hin hbegun =>
      obtain ⟨packets, htold, hpackets⟩ := hbegun
      obtain ⟨t, ht, -⟩ := Option.map_eq_some_iff.1 hin
      have hheld : x.reactor.transports.contains c.handle.id = true := Arena.contains_iff.2 ⟨t, ht⟩
      refine ⟨packets, hpackets, ?_⟩
      rw [if_pos hheld]
      exact htold
    | lost hout hgone htold hbegun =>
      obtain ⟨packets, rfl, hpackets⟩ := hbegun
      have hnone : x.reactor.transports.contains c.handle.id = false := by
        rw [Arena.contains, show x.reactor.transports.get? c.handle.id = none from
          Option.map_eq_none_iff.1 hout]
        rfl
      refine ⟨packets, hpackets, ?_⟩
      rw [if_neg (by simp [hnone])]
      exact ⟨_, htold⟩
  · obtain ⟨i, hproper⟩ := (h.accounted hfits).logged.proper m hm
    obtain ⟨channel, status, hevent⟩ := hloses
    exact hproper.lost hevent
  · have hk' := hplace (Nat.le_trans hk (Nat.le_of_lt hlt)) hc'
    obtain ⟨hin, hat⟩ := List.getElem?_eq_some_iff.1 (hplace hk hc)
    obtain ⟨hin', hat'⟩ := List.getElem?_eq_some_iff.1 hk'
    have hordered := List.pairwise_iff_getElem.1 hsound.ordered _ _ hin hin' (by omega)
    rw [hat, hat'] at hordered
    exact hordered hslot.symm hlog hannounces

open Simulation in
/-- A connection receives a message and is closed, and the next one has its slot. -/
theorem storied_with_next_in_slot : ∃ (x : Course Prompt) (c : Connection), x.Reachable ∧
    x.service.connections[0]? = some c ∧
    x.service.connections[1]?.map (·.handle.id) = some ⟨0, 1⟩ ∧
    x.eventsOf c.handle.id = [.connectResponse 0 Status.ok (some c.handle), .packet 0 c.handle [7],
      .connectionLost 0 Status.closedHere c.handle] ∧ x.Storied 0 c.handle := by
  have hnew : (new Options.standard (⟨1, [[7]]⟩ : Prompt)).Reachable := ⟨_, _, .refl⟩
  have hstart := hnew.step (.start rfl rfl 0 [⟨"10.0.0.1", 80⟩])
  have hasked := hstart.step (.request ⟨0⟩ (.openChannel 0 (.union .udp .client)))
  have hconnected := hasked.step (.command (by rfl) (by rfl))
  have hread := hconnected.step (.act (by rfl) (a := .read ⟨.transport ⟨0, 0⟩, true, false, false⟩) rfl)
  have hagain := hread.step (.request ⟨0⟩ (.openChannel 0 (.union .udp .client)))
  have hreopened := hagain.step (.command (by rfl) (by rfl))
  refine ⟨_, _, hreopened, by rfl, by rfl, by rfl, ?_⟩
  refine storied_of_reachable hreopened (by decide) (fun slot => ?_) (Nat.zero_le _) (by rfl)
  exact Nat.lt_of_le_of_lt List.countP_le_length (by decide)

end Course

end NetReactor
