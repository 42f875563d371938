import NetReactor.Proofs.Echo.Server
import NetReactor.Proofs.Reactor.Answers
import NetReactor.Proofs.Reactor.Survey
import NetReactor.Simulation.Trickle

/-!
# The echo is the frames that were heard

A server's life, step by step: its threads ask for what they like, but for a write or a change of the options;
events are dispatched in batches of any size; resolvers answer, and the world changes; the loop acts, handler by
handler, and **nothing is assumed of the sockets but that they are told apart**, and that a receive brings no
more than was asked for. After any such step, of every connection that is not lost, the octets that its socket
took, what its queue still has to send and the packets that are not dispatched yet are, in this order, the whole
frames of the octets that its socket brought (`echoes_of_run`). So the octets echoed are always a prefix of those
received, and other connections have no part in them.
-/

namespace NetReactor

open Timer (Expired)

/-- A request that writes nothing, leaves the options alone, and opens nothing but servers of streams. -/
def Request.Serves : Request → Prop
  | openChannel _ mask => mask.Serves
  | write .. | setOption _ => False
  | _ => True

namespace Echo

variable {σ : Type} [Host σ] {port : UInt16} {k : Kernel σ} {o : Options}

/-! ## What other threads do -/

section
variable {r : Session (.server port) (Wire σ)}

omit [Host σ] in
/-- Other requests than a write concern no connection. -/
theorem Faithful.request {q : Request} (hq : q.Serves) (hr : Faithful o r.service.events none (scene r))
    (now : Instant) : Faithful o (r.service.perform now q).2.events none
      (scene { r with service := (r.service.perform now q).2 }) := by
  have hpost : ∀ (p : Prop) [Decidable p] (c : NetReactor.Command), c.Serves →
      Faithful o (if p then r.service.post c else r.service).events none
        (scene { r with service := if p then r.service.post c else r.service }) := by
    intro p _ c hc
    split
    · refine hr.order fun c' hc' => ?_
      rcases List.mem_append.1 hc' with hc' | hc'
      · exact hr.commands c' hc'
      · exact List.mem_singleton.1 hc' ▸ hc
    · exact hr
  cases q with
  | openChannel channel mask => exact hpost _ _ hq
  | closeChannel channel => exact hpost _ _ trivial
  | closeTransport h => exact hpost _ _ trivial
  | reopen h => exact hpost _ _ trivial
  | write h data => exact hq.elim
  | schedule delay again timer => exact hr
  | cancelTimer h =>
    simp only [Service.perform, Service.cancelTimer]
    split
    · exact hr
    · exact hr
  | removeTimer h => exact hr
  | setOption c => exact hq.elim
  | stop =>
    simp only [Service.perform, Service.stop]
    split
    · exact hr
    · exact hr

/-- **What is dispatched is written back**, in order, and the rest still waits. -/
theorem Faithful.dispatch (ho : o.sendTimeout = none) (hr : Faithful o r.service.events none (scene r))
    (max : Nat) : Faithful o (r.service.dispatch max r.world).2.1.events none
      (scene { r with
        service := (r.service.dispatch max r.world).2.1
        world := (r.service.dispatch max r.world).2.2 }) := by
  obtain ⟨callback, hcallback⟩ := Option.isSome_iff_exists.1 hr.callback
  have hcallback : r.service.callback = some callback := hcallback
  let s := { r.service with events := r.service.events.drop max }
  have hevents : (Service.deliverAll callback (r.service.events.take max) s r.world).1.events = s.events :=
    congrArg Mail.waiting (Service.mail_deliverAll callback _ s r.world)
  have hpopped : Faithful o (r.service.events.take max ++ s.events) none (scene { r with service := s }) := by
    rw [show r.service.events.take max ++ s.events = r.service.events from List.take_append_drop max _]
    refine hr.queue fun _ hnone => ?_
    have hnone : r.service.events = [] := hnone
    show r.service.events.drop max = []
    rw [hnone, List.drop_nil]
  have hdispatch : (r.service.dispatch max r.world).2 =
      Service.deliverAll callback (r.service.events.take max) s r.world := by
    unfold Service.dispatch
    simp only [EventQueue.popBatch]
    split
    · rename_i callback' hsome
      obtain rfl : callback' = callback := Option.some.inj (hsome.symm.trans hcallback)
      rfl
    · rename_i hnone
      rw [hcallback] at hnone
      cases hnone
  rw [hdispatch, hevents]
  exact Faithful.deliverAll ho callback _ hpopped

end

/-! ## A server's life -/

/-- A server's service and its loop. -/
abbrev Life (port : UInt16) (σ : Type) : Type := Course (Running (.server port) (Wire σ))

/-- The service is started, and its channel is asked to open. -/
def Life.start (port : UInt16) (o : Options) (w : σ) : Life port σ :=
  ⟨Session.start (.server port) o (Wire.on w), [], [], 0, 0⟩

/-- One thing that happens. -/
inductive Step (k : Kernel σ) : Life port σ → Life port σ → Prop
  | request {x : Life port σ} (now : Instant) {q : Request} (hq : q.Serves) :
      Step k x (x.withReactor { x.reactor with service := (x.service.perform now q).2 })
  | dispatch {x : Life port σ} (max : Nat) :
      Step k x (x.withReactor { x.reactor with
        service := (x.service.dispatch max x.reactor.world).2.1
        world := (x.service.dispatch max x.reactor.world).2.2 })
  /-- The world changes, but closes nothing that the loop holds. -/
  | world {x : Life port σ} {w : σ} (hkeeps : k.Keeps (Wire.world x.reactor.world) w) :
      Step k x (x.withReactor { x.reactor with world := { x.reactor.world with world := w } })
  | answer {x : Life port σ} (a : Resolution) :
      Step k x (x.withReactor { x.reactor with service := x.service.post (.resolved a) })
  | refresh {x : Life port σ} (hrunning : x.service.running) :
      Step k x (x.withReactor x.reactor.refreshOptions)
  | act {x : Life port σ} (hrunning : x.service.running) {a : Reactor.Act} (ha : a.isTimer = false) :
      Step k x (x.withReactor (x.reactor.act a))
  | command {x : Life port σ} {c : NetReactor.Command} {rest : List NetReactor.Command}
      (hrunning : x.service.running) (hc : x.service.commands = c :: rest) :
      Step k x { x with
        reactor := (x.reactor.withCommands rest).perform c
        opens := (x.reactor.withCommands rest).takenBy c ++ x.opens }
  | poll {x : Life port σ} (hrunning : x.service.running) (hdue : x.due = []) :
      Step k x { x with reactor := x.reactor.pollTimers.2, due := x.reactor.pollTimers.1 }
  | fire {x : Life port σ} {e : Expired Task} {rest : List (Expired Task)} (hrunning : x.service.running)
      (hdue : x.due = e :: rest) :
      Step k x { x with
        reactor := x.reactor.fire e
        due := rest
        opens := x.reactor.takenUpon e ++ x.opens }
  | stop {x : Life port σ} (hrunning : x.service.running) (hstopping : x.service.stopping)
      (hdue : x.due = []) : Step k x (x.withReactor x.reactor.teardown)

/-- Any number of steps. -/
abbrev Steps (k : Kernel σ) : Life port σ → Life port σ → Prop := Relation.ReflTransGen (Step k)

variable {x y : Life port σ}

/-- It is a step of the loop's course like any other. -/
theorem Step.course (h : Step k x y) : x.Step y := by
  cases h with
  | request now hq => exact .request now _
  | dispatch max => exact .dispatch max
  | world hkeeps => exact .world _
  | answer a => exact .answer a
  | refresh hrunning => exact .refresh hrunning
  | act hrunning ha => exact .act hrunning ha
  | command hrunning hc => exact .command hrunning hc
  | poll hrunning hdue => exact .poll hrunning hdue
  | fire hrunning hdue => exact .fire hrunning hdue
  | stop hrunning hstopping hdue => exact .stop hrunning hstopping hdue

/-- **What holds between any two steps**: the loop is at rest, holds what it watches while it runs, and every
connection is in balance. -/
structure Holds (k : Kernel σ) (o : Options) (x : Life port σ) : Prop where
  kept : x.reactor.Kept x.due
  wake : (k.onWire _).isOpen Reactor.wakeDescriptor x.reactor.world
  secure : x.service.running = true → x.reactor.Secure (k.onWire _)
  faithful : Faithful o x.service.events none (scene x.reactor)

theorem Holds.sound (hx : Holds k o x) (hrunning : x.service.running = true) : Sound k o x.reactor :=
  ⟨hx.secure hrunning, hx.faithful⟩

/-- A handler's work is done. -/
theorem Holds.handled (hkept : y.reactor.Kept y.due) (hy : Sound k o y.reactor) : Holds k o y :=
  ⟨hkept, hy.secure.isOpen .interrupter rfl, fun _ => hy.secure, hy.faithful⟩

/-- Other threads and the world have done something. -/
theorem Holds.shared (hx : Holds k o x) {s : Service} {w : Running (.server port) (Wire σ)}
    (hkept : (x.withReactor { x.reactor with service := s, world := w }).reactor.Kept x.due)
    (hs : s.running = x.service.running) (hw : (k.onWire _).Keeps x.reactor.world w)
    (hr : Faithful o s.events none (scene { x.reactor with service := s, world := w })) :
    Holds k o (x.withReactor { x.reactor with service := s, world := w }) :=
  ⟨hkept, hw _ hx.wake, fun hrunning =>
    (Reactor.steady_shared x.reactor s hw).secure (hx.secure (hs.symm.trans hrunning)), hr⟩

/-- **Every step keeps it.** -/
theorem Step.holds (ho : o.sendTimeout = none) (hf : o.framing.PrefixStable)
    (hb : ∀ d, Sockets.Bounded σ d) (h : Step k x y) (hx : Holds k o x) : Holds k o y := by
  have hkept := h.course.advance.kept hx.kept
  cases h with
  | request now hq =>
    exact hx.shared hkept (Service.posts_perform x.service now _).running (.refl _) (hx.faithful.request hq now)
  | dispatch max =>
    exact hx.shared hkept (Service.posts_dispatch max x.service x.reactor.world).running
      (Kernel.keeps_dispatch max _ _) (hx.faithful.dispatch ho max)
  | world hkeeps => exact hx.shared hkept rfl hkeeps hx.faithful
  | answer a =>
    refine hx.shared hkept rfl (.refl _) (hx.faithful.order fun c hc => ?_)
    rcases List.mem_append.1 hc with hc | hc
    · exact hx.faithful.commands c hc
    · rw [List.mem_singleton.1 hc]
      trivial
  | refresh hrunning =>
    have hsame : scene x.reactor.refreshOptions = scene x.reactor := by
      have hoptions : x.reactor.options = o := hx.faithful.options
      have hshared : x.reactor.service.options = o := hx.faithful.shared
      unfold Reactor.refreshOptions
      split
      · rfl
      · simp only [scene, hoptions, hshared]
    have hsteady : x.reactor.Steady (k.onWire _) x.reactor.refreshOptions := .ite (.refl _) ⟨rfl, rfl, .refl _⟩
    exact .handled hkept ((hx.sound hrunning).aside hsteady hsame)
  | act hrunning ha =>
    have hr := hx.sound hrunning
    exact .handled hkept (hr.act ho hf hb (hx.kept.atRest hr.secure.fits) ha)
  | @command c rest hrunning hc =>
    have hr := hx.sound hrunning
    have hrest := hx.kept.atRest_withCommands hr.secure.fits rest
    have hserve : ∀ d ∈ c :: rest, d.Serves := hc ▸ hx.faithful.commands
    have htaken : Sound k o (x.reactor.withCommands rest) :=
      ⟨(Reactor.steady_shared x.reactor _ (.refl _)).secure hr.secure,
        hr.faithful.order fun d hd => hserve d (List.mem_cons_of_mem c hd)⟩
    exact .handled hkept (htaken.perform ho hf hb hrest (hserve c List.mem_cons_self))
  | poll hrunning hdue =>
    have hsteady : x.reactor.Steady (k.onWire _) x.reactor.pollTimers.2 :=
      Reactor.steady_shared x.reactor _ (Kernel.keeps_use (.now _))
    exact .handled hkept ((hx.sound hrunning).aside hsteady rfl)
  | @fire e rest hrunning hdue =>
    have hr := hx.sound hrunning
    exact .handled hkept (hr.fire ho hf hb (hx.kept.atRest hr.secure.fits) (hdue ▸ List.mem_cons_self))
  | stop hrunning hstopping hdue =>
    have hclosed := (hx.sound hrunning).closed ho hf hb
    have hended : x.reactor.teardown.service.running = false := rfl
    refine ⟨hkept, hclosed.secure.isOpen .interrupter rfl,
      fun h => absurd (hended.symm.trans h) Bool.false_ne_true, ?_⟩
    exact hclosed.faithful.order fun _ hc => absurd hc List.not_mem_nil

/-- So a service starts. -/
theorem holds_start (port : UInt16) (o : Options) {w : σ} (hwake : k.isOpen Reactor.wakeDescriptor w) :
    Holds k o (Life.start port o w) := by
  have hnew : (Course.new o (Wire.on w) : Life port σ).Reachable := ⟨_, _, .refl⟩
  have hstarted := hnew.step (.start rfl rfl 0 [⟨"", port⟩])
  have hasked := hstarted.step (.request ⟨0⟩ (.openChannel 0 .tcpServer))
  have hwake : (k.onWire (.server port)).isOpen Reactor.wakeDescriptor (Wire.on w) := hwake
  have hnone : ∀ {id t}, (scene (Life.start port o w).reactor).transports.get? id ≠ some t := by
    intro id t ht
    rw [show (scene (Life.start port o w).reactor).transports = .empty from rfl, Arena.get?_empty] at ht
    cases ht
  refine ⟨hasked.kept, hwake, fun _ => Reactor.secure_new hwake _ _, rfl, rfl, rfl, fun m hm => ?_,
    fun c hc => ?_, fun _ => rfl, nofun, fun ht => absurd ht hnone, fun ht => absurd ht hnone⟩
  · obtain rfl := List.mem_singleton.1 hm
    exact (⟨by decide, by decide⟩ : ChannelMask.Serves ⟨0⟩)
  · obtain rfl := List.mem_singleton.1 hc
    exact (⟨by decide, by decide⟩ : ChannelMask.tcpServer.Serves)

theorem holds_of_steps {w : σ} (ho : o.sendTimeout = none) (hf : o.framing.PrefixStable)
    (hb : ∀ d, Sockets.Bounded σ d) (hwake : k.isOpen Reactor.wakeDescriptor w)
    (h : Steps k (Life.start port o w) x) : Holds k o x := by
  induction h with
  | refl => exact holds_start port o hwake
  | tail _ hstep ih => exact hstep.holds ho hf hb ih

/-- **What a server echoes is what it heard, frame by frame.** In any life of a server with the usual framing
and no send timeout, over any system that hands out no descriptor that is open and brings no more than was asked
for, each connection that is not lost has said, has still to send and has still to be told exactly the whole
frames of the octets that its own socket brought, in order; so what was said is a prefix of what was heard. -/
theorem echoes_of_run (k : Kernel σ) (hb : ∀ d, Sockets.Bounded σ d) {w : σ}
    (hframing : o.framing = ⟨.standard, none⟩) (ho : o.sendTimeout = none)
    (hwake : k.isOpen Reactor.wakeDescriptor w) (hrun : Steps k (Life.start port o w) x) {id : TransportId}
    {t : Transport} (ht : x.reactor.transports.get? id = some t) :
    ∃ c frames rest, x.service.connection? t.handle = some c ∧
      LengthField.standard.Cut (Wire.heard x.reactor.world t.descriptor) frames rest ∧
      Wire.said x.reactor.world t.descriptor ++ unsentOf c.outgoing ++
        payloadsTo t.handle.serial x.service.events = frames.flatten ∧
      Wire.said x.reactor.world t.descriptor <+: Wire.heard x.reactor.world t.descriptor := by
  have hf : o.framing.PrefixStable := hframing ▸ Framing.prefixStable_of_layout (by decide)
  have hx := holds_of_steps ho hf hb hwake hrun
  obtain ⟨c, hc, hbalanced⟩ := hx.faithful.echoes ht nofun
  obtain ⟨packets, hreader, hframes⟩ := hbalanced.frames
  rw [hframing] at hreader
  obtain ⟨rest, hcut⟩ := hreader.exists_cut
  refine ⟨c, packets, rest, hc, hcut, hframes, ?_⟩
  have hheard : Wire.heard x.reactor.world t.descriptor = packets.flatten ++ rest := hcut.stream_eq
  rw [hheard, ← hframes, List.append_assoc, List.append_assoc]
  exact List.prefix_append _ _

end Echo

/-! ## A system that keeps the rule -/

namespace Simulation.Trickle

variable {w w' : Trickle} {d : Descriptor}

theorem table_grantWith {α : Type} {give : Descriptor → α} {a : α} (h : w.grantWith give = (.ok a, w')) :
    w.table.grantWith give = (.ok a, w'.table) := by
  unfold grantWith at h
  rcases hg : w.table.grantWith give with ⟨answer, table⟩
  rw [hg] at h
  obtain ⟨rfl, rfl⟩ := Prod.mk.inj h
  rfl

theorem held_accept (w : Trickle) : w.table.held ⊆ w.accept.2.table.held := by
  unfold accept
  split
  · exact List.Subset.refl _
  · exact Frugal.held_grantWith _ w.table

theorem table_receive (d : Descriptor) (limit : Nat) (w : Trickle) : (w.receive d limit).2.table = w.table := by
  unfold receive
  split
  · rfl
  · split
    · rfl
    · rfl

theorem grant_of_host (h : Host.Grant w d w') : w.table.grant = (.ok d, w'.table) := by
  cases h with
  | connect h => cases h
  | bindServer h =>
    obtain ⟨e, hgrant, rfl⟩ := Frugal.grant_of_grantWith (table_grantWith h)
    exact hgrant
  | accept h =>
    change w.accept = _ at h
    unfold accept at h
    split at h
    · cases h
    · obtain ⟨e, hgrant, heq⟩ := Frugal.grant_of_grantWith (table_grantWith h)
      rwa [← (Prod.mk.inj (Option.some.inj heq)).1]
  | bindPeer h => cases h

theorem held_use (h : Host.Use w w') : w.table.held ⊆ w'.table.held := by
  cases h with
  | bindServer stream a => exact Frugal.held_grantWith _ w.table
  | accept d => exact held_accept w
  | receive d limit => exact (table_receive d limit w) ▸ List.Subset.refl _
  | _ => exact List.Subset.refl _

/-- What the table holds is open. -/
def kernel : Kernel Trickle where
  isOpen d w := Frugal.kernel.isOpen d w.table
  small := Frugal.kernel.small
  grant {w d w'} h := by
    have hbound : Host.bindServer true Frugal.peer w.table = (.ok d, w'.table) := grant_of_host h
    exact Frugal.kernel.grant (.bindServer hbound)
  use := by
    rintro w w' d h ⟨n, hn, rfl⟩
    exact ⟨n, held_use h hn, rfl⟩
  close := Frugal.kernel.close

theorem bounded (d : Descriptor) : Sockets.Bounded Trickle d := by
  intro limit w w' data h
  change w.receive d limit = _ at h
  unfold receive at h
  split at h
  · cases h
  · split at h
    · rename_i hfits
      obtain rfl := Except.ok.inj (Prod.mk.inj h).1
      exact hfits.2
    · cases h

end Simulation.Trickle

namespace Echo

open Simulation in
/-- Two callers are served. The first sends a frame and the front of another, in two pieces; a send takes two
octets at a time, so two are echoed and three still wait. -/
theorem echoes_in_bites :
    let w : Trickle := ⟨.new, 2, [(2, [0, 0]), (2, [0, 5, 7, 0, 0])], 2⟩
    ∃ (x : Life 7 Trickle) (t : Transport) (c : Connection) (frames : List Bytes) (rest : Bytes),
    (∀ d, Sockets.Bounded Trickle d) ∧ Options.standard.framing = ⟨.standard, none⟩ ∧
    Options.standard.sendTimeout = none ∧ Trickle.kernel.isOpen Reactor.wakeDescriptor w ∧
    Steps Trickle.kernel (Life.start 7 .standard w) x ∧ x.reactor.transports.get? ⟨0, 0⟩ = some t ∧
    x.service.connection? t.handle = some c ∧ LengthField.standard.Cut [0, 0, 0, 5, 7, 0, 0] frames rest ∧
    [0, 0] ++ unsentOf c.outgoing ++ payloadsTo t.handle.serial x.service.events = frames.flatten := by
  intro w
  have hwake : Trickle.kernel.isOpen Reactor.wakeDescriptor w := ⟨0, by decide, rfl⟩
  have hstart : Steps Trickle.kernel (Life.start 7 .standard w) _ := .refl
  have hopened := hstart.tail (.command rfl rfl)
  have hserved := hopened.tail (.act rfl (a := .serve ⟨.channel 0, true, false, false⟩) rfl)
  have hread := hserved.tail (.act rfl (a := .read ⟨.transport ⟨0, 0⟩, true, false, false⟩) rfl)
  have hdispatched := hread.tail (.dispatch 128)
  have hacted : ∀ (x : Life 7 Trickle) (a : Reactor.Act),
      (x.withReactor (x.reactor.act a)).service.running = x.service.running :=
    fun x a => (Reactor.follows_act x.reactor a).posts.running
  have hrunning : ∀ x : Life 7 Trickle, (x.withReactor { x.reactor with
      service := (x.service.dispatch 128 x.reactor.world).2.1
      world := (x.service.dispatch 128 x.reactor.world).2.2 }).service.running = x.service.running :=
    fun x => (Service.posts_dispatch 128 x.service x.reactor.world).running
  have hflushed := hdispatched.tail (.act (by rw [hrunning, hacted]; rfl) (a := .flush) rfl)
  generalize hx : Course.withReactor _ _ = x at hflushed
  have hpassed : ((x.reactor.transports.get? ⟨0, 0⟩).map (·.descriptor), Wire.heard x.reactor.world 2,
      Wire.said x.reactor.world 2) = (some 2, [0, 0, 0, 5, 7, 0, 0], [0, 0]) := by
    subst hx
    decide +kernel
  obtain ⟨hget, hpassed⟩ := Prod.mk.inj hpassed
  obtain ⟨hheard, hsaid⟩ := Prod.mk.inj hpassed
  obtain ⟨t, ht, hd⟩ := Option.map_eq_some_iff.1 hget
  have hechoes := echoes_of_run Trickle.kernel Trickle.bounded rfl rfl hwake hflushed ht
  rw [hd, hheard, hsaid] at hechoes
  obtain ⟨c, frames, rest, hc, hcut, hframes, -⟩ := hechoes
  exact ⟨x, t, c, frames, rest, Trickle.bounded, rfl, rfl, hwake, hflushed, ht, hc, hcut, hframes⟩

end Echo

end NetReactor
