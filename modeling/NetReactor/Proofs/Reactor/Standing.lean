import Mathlib.Logic.Basic
import NetReactor.Proofs.Reactor.Phases
import NetReactor.Simulation.Isolated

/-!
# Channels between handlers

What holds of a service and its loop from start to stop and over every restart (`Kept`), and from it
**the contract of every channel between two handlers** (`coherent_of_reachable`): which of socket, waiting
open, transports and timer it has in each state, that its mask is valid unless it is closed, and that
other threads see its state. The timers are the channels' own as long as the application takes out only
timers it was given, and the slots can all be named while there are at most 2^32.
-/

namespace NetReactor

open Timer (Expired Owned)

namespace Reactor

variable {σ : Type}

/-- What every step keeps. -/
structure Kept (r : Reactor σ) (due : List (Expired Task)) : Prop where
  sound : r.transports.Sound
  mirrored : r.Mirrored
  desk : (r.desk due).Sound
  settled : r.transports.Fits → ∀ {i c}, r.channel? i = some c → r.Settled due i c
  armed : r.transports.Fits → Owned r.service.timerCalls → (r.desk due).Armed

theorem Kept.atRest {r : Reactor σ} {due : List (Expired Task)} (h : r.Kept due)
    (hfits : r.transports.Fits) : r.AtRest due :=
  ⟨h.sound, h.mirrored, h.desk, h.settled hfits⟩

/-- Nobody's timer is due, and no channel has one. -/
theorem Kept.of_no_timers {r : Reactor σ} (hsound : r.transports.Sound) (hmirrored : r.Mirrored)
    (hdesk : (r.desk []).Sound) (hsettled : r.transports.Fits → ∀ {i c}, r.channel? i = some c →
      r.Settled [] i c ∧ c.timer = none) : r.Kept [] := by
  refine ⟨hsound, hmirrored, hdesk, fun hfits {i c} hc => (hsettled hfits hc).1, fun hfits _ i g hg => ?_⟩
  have hslot : (r.channel? i).map (·.timer) = some (some g) := List.getElem?_map.symm.trans hg
  obtain ⟨c, hc, htimer⟩ := Option.map_eq_some_iff.1 hslot
  simp [(hsettled hfits hc).2] at htimer

variable [Host σ] {r r' : Reactor σ} {due : List (Expired Task)} {new : List (Nat × ChannelMask)}

/-- The loop is at rest when it takes a command off the queue. -/
theorem Kept.atRest_withCommands (h : r.Kept due) (hfits : r.transports.Fits) (commands : List Command) :
    (r.withCommands commands).AtRest due :=
  (idle_withCommands r commands).opensNone.atRest (h.atRest hfits) hfits

theorem Handled.kept (h : Handled due new r r') (hr : r.Kept due) : r'.Kept due := by
  have hmoves := h.trail.desk due
  refine ⟨h.trail.sound hr.sound, h.trail.mirrored hr.mirrored, hmoves.sound hr.desk,
    fun hfits => (h.atRest (hr.atRest (h.trail.fits hfits)) hfits).settled, fun hfits howned => ?_⟩
  exact hmoves.armed hr.desk howned (hr.armed (h.trail.fits hfits) (hmoves.owned howned))

theorem Kept.poll (h : r.Kept []) : r.pollTimers.2.Kept r.pollTimers.1 := by
  have hfollows : (r.desk []).Follows (r.pollTimers.2.desk r.pollTimers.1) :=
    Desk.follows_poll h.desk rfl _
  exact ⟨h.sound, h.mirrored, Desk.sound_poll h.desk rfl _,
    fun hfits {_ _} hc => (h.settled hfits hc).carry (fun _ => Iff.rfl) hfollows,
    fun hfits howned => Desk.armed_poll h.desk rfl _ (h.armed hfits howned)⟩

/-- **A timer that has fired leaves the timers that are due**, and no slot names it. -/
theorem Kept.fire {e : Expired Task} {rest : List (Expired Task)} (h : r.Kept (e :: rest)) :
    (r.fire e).Kept rest := by
  have hfired : (r.fire e).Kept (e :: rest) := (handled_fire r List.mem_cons_self).kept h
  have hsub : ∀ x ∈ rest, x ∈ ((r.fire e).desk (e :: rest)).due := fun x => List.mem_cons_of_mem e
  refine ⟨hfired.sound, hfired.mirrored, Desk.sound_due hsub hfired.desk,
    fun hfits {_ _} hc => (hfired.settled hfits hc).carry (fun _ => Iff.rfl) (Desk.follows_due hsub),
    fun hfits howned => Desk.armed_rest rfl hfired.desk (hfired.armed hfits howned) fun i hi => ?_⟩
  obtain ⟨r₁, htrail, hfire, hslot⟩ :
      ∃ r₁, Trail r r₁ ∧ Trail r₁ (r.fire e) ∧
        (r₁.desk (e :: rest)).slots[i]? ≠ some (some e.handle) := trail_of_fire r hi
  have hissued : e.handle < (r₁.desk (e :: rest)).next :=
    Nat.lt_of_lt_of_le (h.desk.due e List.mem_cons_self) (htrail.desk (e :: rest)).follows.next
  exact (hfire.desk (e :: rest)).not_named hissued hslot

theorem Kept.teardown (h : r.Kept []) : r.teardown.Kept [] := by
  have htrail := trail_closed r
  have hdesk : (r.closed.desk []).Sound := (htrail.desk []).sound h.desk
  have hnone : ∀ g task, ¬ (r.teardown.desk []).Waits g task := by
    rintro g task (⟨e, he, -⟩ | ⟨x, hx, -⟩)
    · simp [Reactor.desk, teardown_eq, unwatch, Timer.Queue.clear, Timer.Queue.lookup] at he
    · simp [Reactor.desk] at hx
  have hfollows : (r.closed.desk []).Follows (r.teardown.desk []) :=
    ⟨Nat.le_refl _, fun _ hwaits => absurd hwaits (hnone _ _)⟩
  refine .of_no_timers (htrail.sound h.sound) (htrail.mirrored h.mirrored) ?_ fun hfits i c hc => ?_
  · exact ⟨.clear _, by simp [Reactor.desk], hdesk.call_follows hfollows, hdesk.slot_follows hfollows⟩
  · obtain ⟨hrest, hshut⟩ := atRest_closed (h.atRest (htrail.fits hfits)) hfits
    exact ⟨(hrest.settled hc).carry (fun _ => Iff.rfl) hfollows, (hshut hc).timer⟩

omit [Host σ] in
/-- A run starts with closed channels; the application's timers stay. -/
theorem Kept.start (h : r.Kept []) (hrunning : r.service.running = false) (callback : Nat)
    (endpoints : List Endpoint) :
    (Reactor.new (r.service.start callback endpoints.length) r.world endpoints).Kept [] := by
  rw [Service.start_of_not_running hrunning]
  refine .of_no_timers Arena.sound_empty ?_ ?_ fun _ i c hc => ?_
  · simp [Mirrored, Reactor.new, Function.comp_def, Channel.ofEndpoint, List.map_const']
  · refine ⟨h.desk.keyed, by simp [Reactor.desk], h.desk.calls, fun {i g} hg => ?_⟩
    obtain ⟨c, hc, htimer⟩ := Option.map_eq_some_iff.1 (List.getElem?_map.symm.trans hg)
    obtain ⟨e, rfl⟩ := exists_endpoint_of_new hc
    simp [Channel.ofEndpoint] at htimer
  · obtain ⟨e, rfl⟩ := exists_endpoint_of_new hc
    have hshut : Shut (Channel.ofEndpoint e) := ⟨rfl, rfl, rfl, rfl⟩
    refine ⟨hshut.settled ?_, rfl⟩
    rintro id ⟨t, ht, -⟩
    simp [Reactor.new, Arena.get?_empty] at ht

end Reactor

namespace Course

variable {σ : Type} [Host σ] {x y : Course σ}

theorem Advance.kept (h : x.Advance y) (hx : x.reactor.Kept x.due) : y.reactor.Kept y.due := by
  cases h with
  | handled h => exact h.kept hx
  | poll hdue => exact Reactor.Kept.poll (hdue ▸ hx)
  | fire hdue => exact Reactor.Kept.fire (hdue ▸ hx)
  | stop hdue => exact hdue ▸ Reactor.Kept.teardown (hdue ▸ hx)
  | start hrunning hdue callback endpoints =>
    exact Reactor.Kept.start (hdue ▸ hx) hrunning callback endpoints

omit [Host σ] in
theorem kept_new (o : Options) (w : σ) : (new o w).reactor.Kept (new o w).due := by
  refine .of_no_timers Arena.sound_empty rfl ?_ fun _ i c hc => ?_
  · exact ⟨.empty, by simp [Reactor.desk, new], by simp [Reactor.desk, new, Reactor.new, Service.ofOptions],
      by simp [Reactor.desk, new, Reactor.new]⟩
  · simp [Reactor.channel?, new, Reactor.new] at hc

/-- **What is kept holds of all that a service can come to.** -/
theorem Reachable.kept (h : x.Reachable) : x.reactor.Kept x.due := by
  obtain ⟨o, w, hsteps⟩ := h
  induction hsteps with
  | refl => exact kept_new o w
  | tail _ hstep ih => exact hstep.advance.kept ih

/-- A channel's slot names a timer that waits: in the queue, or among those that are due and still to
fire. -/
def Names (x : Course σ) (c : Channel) (task : Task) : Prop :=
  ∃ h, c.timer = some h ∧
    ((∃ e, x.service.timers.get? h = some e ∧ e.payload = task) ∨
      ∃ d ∈ x.due, d.handle = h ∧ d.payload = task)

/-- The contract of channel `i`. -/
structure Coherent (x : Course σ) (i : Nat) (c : Channel) : Prop where
  pending : c.pendingOpen = true → c.state = .opening
  closed : c.state = .closed →
    c.socket = none ∧ c.pendingOpen = false ∧ ∀ id, ¬ x.reactor.Live i id
  opening : c.state = .opening → (∀ id, ¬ x.reactor.Live i id) ∧
    Xor (c.pendingOpen = true ∧ c.cache.state = .inProgress)
      (c.mask.isClient = true ∧ c.socket.isSome = true)
  client : c.state = .opened → c.mask.isClient = true →
    c.socket = none ∧ ∃! id, x.reactor.Live i id
  server : c.state = .opened → c.mask.isServer = true → c.socket.isSome = true
  valid : c.state ≠ .closed → c.mask.isValid = true
  mirror : x.service.states[i]? = some c.state
  timeout : x.Names c (.connectTimeout i) ↔ c.state = .opening ∧ c.mask.isClient = true
  untimed : c.state = .opened ∨ c.state = .opening ∧ c.mask.isServer = true → c.timer = none
  again : c.state = .closed → c.timer = none ∨
    (c.mask.isTcp = true ∧ c.mask.isClient = true) ∧ x.Names c (.reconnect i)

omit [Host σ] in
/-- A channel's timer waits, so its slot names the one that its handle stands for. -/
theorem names_of_tagged {i : Nat} {c : Channel} {h : Timer.Handle} {task : Task}
    (harmed : (x.reactor.desk x.due).Armed) (hc : x.reactor.channel? i = some c)
    (htimer : c.timer = some h) (ht : (x.reactor.desk x.due).Tagged h task) : x.Names c task := by
  have hslot : (x.reactor.desk x.due).slots[i]? = some (some h) := by
    refine List.getElem?_map.trans ?_
    rw [show x.reactor.channels[i]? = some c from hc, Option.map_some, htimer]
  obtain ⟨task', hwaits⟩ := harmed hslot
  exact ⟨h, htimer, ht.2 task' hwaits ▸ hwaits⟩

omit [Host σ] in
/-- A slot names no timer but the one that its handle stands for. -/
theorem eq_of_names {c : Channel} {h : Timer.Handle} {task task' : Task} (htimer : c.timer = some h)
    (ht : (x.reactor.desk x.due).Tagged h task) (hnames : x.Names c task') : task' = task := by
  obtain ⟨h', hh', hwaits⟩ := hnames
  obtain rfl := Option.some.inj (htimer.symm.trans hh')
  exact ht.2 task' hwaits

omit [Host σ] in
theorem not_names_of_none {c : Channel} (htimer : c.timer = none) (task : Task) : ¬ x.Names c task := by
  rintro ⟨h, hh, -⟩
  simp [htimer] at hh

omit [Host σ] in
/-- An opening channel waits for its connect timeout if it is a client, and for no timer if not. -/
theorem timeout_of_opening {i : Nat} {c : Channel} (harmed : (x.reactor.desk x.due).Armed)
    (hc : x.reactor.channel? i = some c) (h : x.reactor.Opening x.due i c) :
    (x.Names c (.connectTimeout i) ↔ c.state = .opening ∧ c.mask.isClient = true) ∧
      (c.mask.isServer = true → c.timer = none) := by
  have htimer := h.timer
  rw [ChannelMask.isServer_of_isValid h.valid]
  split at htimer
  · rename_i hclient
    obtain ⟨g, hg, ht⟩ := htimer
    exact ⟨⟨fun _ => ⟨h.state, hclient⟩, fun _ => names_of_tagged harmed hc hg ht⟩, by simp [hclient]⟩
  · rename_i hclient
    exact ⟨⟨fun hnames => absurd hnames (not_names_of_none htimer _), fun hboth => absurd hboth.2 hclient⟩,
      fun _ => htimer⟩

omit [Host σ] in
theorem coherent_of_settled {i : Nat} {c : Channel} (hmirrored : x.reactor.Mirrored)
    (harmed : (x.reactor.desk x.due).Armed) (hc : x.reactor.channel? i = some c)
    (hs : x.reactor.Settled x.due i c) : x.Coherent i c := by
  have hmirror : x.service.states[i]? = some c.state := by
    rw [show x.service.states = x.reactor.channels.map (·.state) from hmirrored, List.getElem?_map,
      show x.reactor.channels[i]? = some c from hc, Option.map_some]
  cases hs with
  | closed hstate hsocket hpending halone htimer =>
    exact {
      pending := by simp [hpending]
      closed := fun _ => ⟨hsocket, hpending, halone⟩
      opening := by simp [hstate]
      client := by simp [hstate]
      server := by simp [hstate]
      valid := by simp [hstate]
      mirror := hmirror
      timeout := by
        refine ⟨fun hnames => ?_, by simp [hstate]⟩
        obtain ⟨h, hh, hwaits⟩ := hnames
        exact absurd (eq_of_names hh (htimer h hh).2 ⟨h, hh, hwaits⟩) (by simp)
      untimed := by simp [hstate]
      again := fun _ => by
        cases hslot : c.timer with
        | none => exact .inl rfl
        | some h =>
          obtain ⟨htcp, ht⟩ := htimer h hslot
          simp only [Bool.and_eq_true] at htcp
          exact .inr ⟨⟨htcp.2, htcp.1⟩, names_of_tagged harmed hc hslot ht⟩ }
  | lookingUp hopening hsocket hpending hcache =>
    have hstate := hopening.state
    obtain ⟨htimeout, hserver⟩ := timeout_of_opening harmed hc hopening
    exact {
      pending := fun _ => hstate
      closed := by simp [hstate]
      opening := fun _ => ⟨hopening.alone, .inl ⟨⟨hpending, hcache⟩, by simp [hsocket]⟩⟩
      client := by simp [hstate]
      server := by simp [hstate]
      valid := fun _ => hopening.valid
      mirror := hmirror
      timeout := htimeout
      untimed := by simpa [hstate] using hserver
      again := by simp [hstate] }
  | connecting hopening hclient hsocket hpending =>
    have hstate := hopening.state
    obtain ⟨htimeout, hserver⟩ := timeout_of_opening harmed hc hopening
    exact {
      pending := by simp [hpending]
      closed := by simp [hstate]
      opening := fun _ => ⟨hopening.alone, .inr ⟨⟨hclient, hsocket⟩, by simp [hpending]⟩⟩
      client := by simp [hstate]
      server := by simp [hstate]
      valid := fun _ => hopening.valid
      mirror := hmirror
      timeout := htimeout
      untimed := by simpa [hstate] using hserver
      again := by simp [hstate] }
  | connected hstate hvalid hclient hsocket hpending htimer honly =>
    obtain ⟨id, hid⟩ := honly
    exact {
      pending := by simp [hpending]
      closed := by simp [hstate]
      opening := by simp [hstate]
      client := fun _ _ => ⟨hsocket, id, (hid id).2 rfl, fun id' hid' => (hid id').1 hid'⟩
      server := by simp [ChannelMask.isServer_of_isValid hvalid, hclient]
      valid := fun _ => hvalid
      mirror := hmirror
      timeout := ⟨fun hnames => absurd hnames (not_names_of_none htimer _), by simp [hstate]⟩
      untimed := fun _ => htimer
      again := by simp [hstate] }
  | serving hstate hvalid hserver hsocket hpending htimer =>
    exact {
      pending := by simp [hpending]
      closed := by simp [hstate]
      opening := by simp [hstate]
      client := by simp [hserver]
      server := fun _ _ => hsocket
      valid := fun _ => hvalid
      mirror := hmirror
      timeout := ⟨fun hnames => absurd hnames (not_names_of_none htimer _), by simp [hstate]⟩
      untimed := fun _ => htimer
      again := by simp [hstate] }

/-- **Between two handlers every channel keeps its contract**, as long as the application takes out only
timers that it was given and never more connections are held than can be named. -/
theorem coherent_of_reachable (h : x.Reachable) (howned : Owned x.service.timerCalls)
    (hfits : x.reactor.transports.Fits) {i : Nat} {c : Channel} (hc : x.reactor.channel? i = some c) :
    x.Coherent i c :=
  coherent_of_settled h.kept.mirrored (h.kept.armed hfits howned) hc (h.kept.settled hfits hc)

open Simulation in
/-- The application has a timer of its own and takes it out again. A connect fails at once, and the plan to
try again is due. -/
theorem coherent_after_failed_connect : ∃ (x : Course Isolated) (c : Channel), x.Reachable ∧
    x.service.timerCalls = [.removed 0, .scheduled 0] ∧ x.reactor.channel? 0 = some c ∧
    c.timer = some 2 ∧ x.due = [⟨2, .reconnect 0, false⟩] ∧ x.Coherent 0 c := by
  have hnew : (new (Options.standard.withReconnectTimeout (some (.ofMillis 100)))
    Isolated.new).Reachable := ⟨_, _, .refl⟩
  have hstart := hnew.step (.start rfl rfl 0 [⟨"10.0.0.1", 80⟩])
  have hscheduled := hstart.step (.request ⟨0⟩ (.schedule (.ofMillis 50) false 0))
  have hremoved := hscheduled.step (.request ⟨0⟩ (.removeTimer 0))
  have hasked := hremoved.step (.request ⟨0⟩ (.openChannel 0 .tcpClient))
  have hfailed := hasked.step (.command (by rfl) (by rfl))
  have hlater := hfailed.step (.world { Isolated.new with clock := ⟨2000000000⟩ })
  have hdue := hlater.step (.poll (by rfl) (by rfl))
  refine ⟨_, _, hdue, by rfl, by rfl, by rfl, by rfl, ?_⟩
  exact coherent_of_reachable hdue (by decide) (by decide) (by rfl)

end Course

end NetReactor
