import NetReactor.Proofs.Reactor.Course
import NetReactor.Simulation.Prompt

/-!
# In which order events are received

Whether events wait for a dispatch or are handed over at once may change at any time, and whatever waits may be
dispatched in any portions. **Every event of a service's life is received or waits, exactly once, and events
that take the same way stay in order**; the whole order is that of the loop as long as nothing waits while
events are handed over at once (`received_in_order_unless_overtaken`). An event that is handed over while others
wait is received before them, a connection's loss before its announcement among them
(`loss_overtakes_announcement`).
-/

namespace NetReactor

namespace Service

/-- A start concerns no mail. -/
theorem mail_start {s : Service} (h : s.running = false) (callback channels : Nat) :
    (s.start callback channels).mail = s.mail := by
  rw [start_of_not_running h]
  rfl

end Service

namespace Course

variable {σ : Type}

def mail (x : Course σ) : Mail := x.service.mail

/-- There is a callback, or nothing was ever told. -/
def Attended (x : Course σ) : Prop :=
  x.service.callback.isSome ∨ x.service.running = false ∧ x.service.events = []

theorem Attended.isSome {x : Course σ} (hx : x.Attended) (hrunning : x.service.running) :
    x.service.callback.isSome := by
  rcases hx with hsome | ⟨hstopped, -⟩
  · exact hsome
  · rw [hrunning] at hstopped
    exact absurd hstopped (by decide)

/-- What a step does to the mail: the loop tells some events, all in one way, or some are dispatched. -/
def Sends (x y : Course σ) : Prop :=
  (∃ new, y.mail = x.mail.tell x.reactor.options.deferEvents new) ∨ ∃ max, y.mail = x.mail.dispatch max

theorem Sends.of_mail_eq {x y : Course σ} (h : y.mail = x.mail) : x.Sends y :=
  .inl ⟨[], h.trans (Mail.tell_nil ..).symm⟩

/-- What the loop does while it runs. -/
theorem sends_of_mails {x : Course σ} (hx : x.Attended) (hrunning : x.service.running) {r : Reactor σ}
    (h : Service.Mails x.reactor.options.deferEvents x.service r.service) (due : List (Timer.Expired Task))
    (opens : List (Nat × ChannelMask)) :
    Attended { x with reactor := r, due := due, opens := opens } ∧
      x.Sends { x with reactor := r, due := due, opens := opens } := by
  have hsome := hx.isSome hrunning
  exact ⟨.inl (h.callback hsome), .inl (h.mail hsome)⟩

variable [Host σ] {x y : Course σ}

omit [Host σ] in
theorem attended_perform (hx : x.Attended) (now : Instant) (q : Request) :
    Attended (x.withReactor { x.reactor with service := (x.service.perform now q).2 }) := by
  rcases hx with hsome | ⟨hstopped, hempty⟩
  · exact .inl (Service.callback_perform hsome now q)
  · have hevents : (x.service.perform now q).2.events = x.service.events :=
      congrArg Mail.waiting (Service.mail_perform x.service now q)
    exact .inr ⟨(Service.posts_perform x.service now q).running.trans hstopped, hevents.trans hempty⟩

theorem sends_dispatch (hx : x.Attended) (max : Nat) {y : Course σ}
    (hy : y.service = (x.service.dispatch max x.reactor.world).2.1) : y.Attended ∧ x.Sends y := by
  rw [Attended, Sends, mail, hy]
  by_cases hsome : x.service.callback.isSome
  · exact ⟨.inl (Service.callback_dispatch max hsome _), .inr ⟨max, Service.mail_dispatch max hsome _⟩⟩
  · have hnone : x.service.callback = none := by simpa using hsome
    obtain ⟨hstopped, hempty⟩ := hx.resolve_left hsome
    have hsame : (x.service.dispatch max x.reactor.world).2.1 = { x.service with events := [] } := by
      simp [Service.dispatch, hnone, hempty, EventQueue.popBatch]
    rw [hsame]
    refine ⟨.inr ⟨hstopped, rfl⟩, .inl ⟨[], ?_⟩⟩
    rw [Mail.tell_nil, mail, Service.mail, Service.mail, hempty]

/-- **A step tells events in one way, or dispatches some.** -/
theorem Step.sends (h : x.Step y) (hx : x.Attended) : y.Attended ∧ x.Sends y := by
  cases h with
  | request now q => exact ⟨attended_perform hx now q, .of_mail_eq (Service.mail_perform x.service now q)⟩
  | dispatch max => exact sends_dispatch hx max rfl
  | world w => exact ⟨hx, .of_mail_eq rfl⟩
  | answer a => exact ⟨hx, .of_mail_eq rfl⟩
  | refresh hrunning =>
    have hservice := Reactor.service_refreshOptions x.reactor
    refine sends_of_mails hx hrunning ?_ _ _
    exact .of_mail (fun hs => hservice ▸ hs) (congrArg Service.mail hservice)
  | act hrunning ha =>
    exact sends_of_mails hx hrunning (Reactor.follows_act x.reactor _).serves.mails _ _
  | @command c rest hrunning hc =>
    have hperformed := (Reactor.serves_perform (x.reactor.withCommands rest) c).2.mails
    exact sends_of_mails hx hrunning ⟨hperformed.callback, hperformed.mail⟩ _ _
  | poll hrunning hdue =>
    exact sends_of_mails hx hrunning (Reactor.quiet_pollTimers x.reactor).serves.mails _ _
  | fire hrunning hdue =>
    exact sends_of_mails hx hrunning (Reactor.follows_fire x.reactor _).serves.mails _ _
  | stop hrunning hstopping hdue =>
    obtain ⟨r, hquiet, hteardown⟩ := Reactor.quiet_teardown x.reactor
    rw [hteardown]
    have hmails := hquiet.serves.mails
    -- what is dropped at the end is no mail
    refine sends_of_mails hx hrunning ?_ _ _
    exact ⟨hmails.callback, hmails.mail⟩
  | start hrunning hdue callback endpoints =>
    refine ⟨.inl ?_, .of_mail_eq (Service.mail_start hrunning callback endpoints.length)⟩
    show (x.service.start callback endpoints.length).callback.isSome
    rw [Service.start_of_not_running hrunning]
    rfl

omit [Host σ] in
theorem attended_new (o : Options) (w : σ) : (new o w).Attended := .inr ⟨rfl, rfl⟩

theorem Reachable.attended (h : x.Reachable) : x.Attended := by
  obtain ⟨o, w, hsteps⟩ := h
  induction hsteps with
  | refl => exact attended_new o w
  | tail _ hstep ih => exact (hstep.sends ih).1

/-- **However a service came about, its mail took one way or the other.** -/
theorem Reachable.routed (h : x.Reachable) : x.mail.Routed := by
  obtain ⟨o, w, hsteps⟩ := h
  induction hsteps with
  | refl => exact Mail.routed_nil
  | tail hsteps hstep ih =>
    have hattended := Reachable.attended ⟨o, w, hsteps⟩
    rcases (hstep.sends hattended).2 with ⟨new, hnew⟩ | ⟨max, hmax⟩
    · exact hnew ▸ Mail.routed_tell ih _ new
    · exact hmax ▸ Mail.routed_dispatch ih max

/-! ## Order -/

/-- Nothing is handed over at once while events wait. -/
def Patient (x y : Course σ) : Prop :=
  x.reactor.options.deferEvents = false → x.mail.waiting = [] ∨ y.mail.told = x.mail.told

/-- Any number of such steps. -/
abbrev Patiently : Course σ → Course σ → Prop := Along Patient

theorem Step.inOrder (h : x.Step y) (hx : x.Attended) (hpatient : x.Patient y) (horder : x.mail.InOrder) :
    y.mail.InOrder := by
  rcases (h.sends hx).2 with ⟨new, hnew⟩ | ⟨max, hmax⟩
  · rw [hnew]
    refine Mail.inOrder_tell horder fun hdirect => ?_
    refine (hpatient hdirect).imp_right fun hsilent => ?_
    rw [hnew] at hsilent
    exact List.append_right_eq_self.1 hsilent
  · exact hmax ▸ Mail.inOrder_dispatch horder max

variable {o : Options} {w : σ}

theorem Patiently.inOrder (h : (new o w).Patiently x) : x.mail.InOrder := by
  induction h with
  | refl => rfl
  | tail hsteps hstep ih =>
    have hattended := Reachable.attended ⟨o, w, Along.steps hsteps⟩
    exact hstep.1.inOrder hattended hstep.2 ih

/-- **Nothing is lost and nothing comes twice**: what was received and what waits is what was told. Events that
take the same way keep their order, and all do as long as none is handed over while others wait. -/
theorem received_in_order_unless_overtaken (h : (new o w).Steps x) :
    (x.mail.received ++ x.mail.waiting).Perm x.mail.told ∧
    (∃ told received : List Letter, told.map (·.event) = x.mail.told ∧
      received.map (·.event) = x.mail.received ∧ Mail.Overtaking told (received ++ x.mail.queued) ∧
      ∀ deferred, (received ++ x.mail.queued).filter (·.deferred = deferred) =
        told.filter (·.deferred = deferred)) ∧
    ((new o w).Patiently x → x.mail.received ++ x.mail.waiting = x.mail.told) := by
  have hrouted : x.mail.Routed := Reachable.routed ⟨o, w, h⟩
  refine ⟨hrouted.perm, ?_, fun hpatiently => hpatiently.inOrder⟩
  obtain ⟨told, received, htold, hreceived, horder⟩ := hrouted
  exact ⟨told, received, htold, hreceived, horder, fun deferred => (horder.filter_eq deferred).symm⟩

open Simulation in
/-- A client's connection is announced by two dispatches, and its loss is handed over at once. -/
theorem received_across_switch : ∃ (o : Options) (x : Course Prompt) (h : Handle),
    (new o (⟨1, [[7]]⟩ : Prompt)).Patiently x ∧ x.mail.waiting = [] ∧
    x.mail.received = [.connectResponse 0 Status.ok (some h), .packet 0 h [7],
      .connectionLost 0 Status.closedHere h] ∧
    x.mail.received ++ x.mail.waiting = x.mail.told := by
  have hnew : (new Options.standard (⟨1, [[7]]⟩ : Prompt)).Patiently _ := .refl _
  have hstart := hnew.step (.start rfl rfl 0 [⟨"10.0.0.1", 80⟩]) (fun _ => .inr rfl)
  have hasked := hstart.step (.request ⟨0⟩ (.openChannel 0 (.union .udp .client))) (fun _ => .inr rfl)
  have hconnected := hasked.step (.command (by rfl) (by rfl)) (fun h => absurd h (by decide))
  have hread := hconnected.step (.act (by rfl) (a := .read ⟨.transport ⟨0, 0⟩, true, false, false⟩) rfl)
    (fun h => absurd h (by decide))
  have hfirst := hread.step (.dispatch 1) (fun _ => .inr rfl)
  have hsecond := hfirst.step (.dispatch 1) (fun _ => .inr rfl)
  have hswitched := hsecond.step (.request ⟨0⟩ (.setOption (.deferEvents false))) (fun _ => .inr rfl)
  have hrenewed := hswitched.step (.refresh (by rfl)) (fun _ => .inr rfl)
  have hclosing := hrenewed.step (.request ⟨0⟩ (.closeChannel 0)) (fun _ => .inr rfl)
  have hclosed := hclosing.step (.command (by rfl) (by rfl)) (fun _ => .inl rfl)
  exact ⟨_, _, _, hclosed, by rfl, by rfl,
    (received_in_order_unless_overtaken hclosed.steps).2.2 hclosed⟩

open Simulation in
/-- **A connection's loss comes before its announcement** where deferral is switched off in between. -/
theorem loss_overtakes_announcement : ∃ (x : Course Prompt) (h : Handle), x.Reachable ∧
    x.mail.told = [.connectResponse 0 Status.ok (some h), .connectionLost 0 Status.closedHere h] ∧
    x.mail.received = [.connectionLost 0 Status.closedHere h] ∧
    x.mail.waiting = [.connectResponse 0 Status.ok (some h)] ∧
    x.mail.received ++ x.mail.waiting ≠ x.mail.told := by
  have hnew : (new Options.standard (⟨1, []⟩ : Prompt)).Reachable := ⟨_, _, .refl⟩
  have hstart := hnew.step (.start rfl rfl 0 [⟨"10.0.0.1", 80⟩])
  have hasked := hstart.step (.request ⟨0⟩ (.openChannel 0 .tcpClient))
  have hconnected := hasked.step (.command (by rfl) (by rfl))
  have hswitched := hconnected.step (.request ⟨0⟩ (.setOption (.deferEvents false)))
  have hrenewed := hswitched.step (.refresh (by rfl))
  have hclosing := hrenewed.step (.request ⟨0⟩ (.closeChannel 0))
  have hclosed := hclosing.step (.command (by rfl) (by rfl))
  exact ⟨_, _, hclosed, by rfl, by rfl, by rfl, by decide⟩

end Course

end NetReactor
