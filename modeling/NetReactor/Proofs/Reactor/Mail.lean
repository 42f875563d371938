import Mathlib.Data.List.Perm.Basic
import Mathlib.Logic.Relation
import NetReactor.Reactor

/-!
# The mail of a service

What the loop tells goes one of two ways: into the queue, whose front is dispatched, or to the callback at
once. **Whichever way the events take, each is received or waits once** (`Routed.perm`), and only an event that
is handed over at once comes before one that was told earlier, and waits (`Overtakes`). Where nothing waits
while events are handed over, the order is that in which they were told (`inOrder_tell`).
-/

namespace NetReactor

/-- The events that were told, those that a callback received, and those that wait, oldest first. -/
structure Mail where
  told : List Event
  received : List Event
  waiting : EventQueue

/-- An event, and whether it goes through the queue. -/
structure Letter where
  event : Event
  deferred : Bool

namespace Mail

variable {v v' : Mail} {deferred : Bool}

/-- Events are told, and all of them wait or all are handed over. -/
def tell (v : Mail) (deferred : Bool) (new : List Event) : Mail where
  told := v.told ++ new
  received := if deferred then v.received else v.received ++ new
  waiting := if deferred then v.waiting ++ new else v.waiting

/-- At most `max` of the waiting events are handed over. -/
def dispatch (v : Mail) (max : Nat) : Mail :=
  { v with
    received := v.received ++ (EventQueue.popBatch v.waiting max).1
    waiting := (EventQueue.popBatch v.waiting max).2 }

@[simp] theorem tell_nil (v : Mail) (deferred : Bool) : v.tell deferred [] = v := by
  cases deferred <;> simp [tell]

theorem tell_tell (v : Mail) (deferred : Bool) (new more : List Event) :
    (v.tell deferred new).tell deferred more = v.tell deferred (new ++ more) := by
  cases deferred <;> simp [tell]

/-- **A dispatch amid a handler might as well come after it**, if the handler passes nothing that waits. -/
theorem tell_dispatch (h : deferred = false → v.waiting = []) (max : Nat) (new : List Event) :
    (v.dispatch max).tell deferred new =
      (v.tell deferred new).dispatch (min max v.waiting.length) := by
  cases deferred with
  | true =>
    rcases Nat.le_total max v.waiting.length with hle | hle
    · rw [Nat.min_eq_left hle]
      simp [tell, dispatch, EventQueue.popBatch, List.take_append_of_le_length hle,
        List.drop_append_of_le_length hle]
    · rw [Nat.min_eq_right hle]
      simp [tell, dispatch, EventQueue.popBatch, List.take_of_length_le hle, List.drop_eq_nil_of_le hle]
  | false => simp [tell, dispatch, EventQueue.popBatch, h rfl]

/-! ## Order -/

/-- What was received and what waits is what was told, in that order. -/
def InOrder (v : Mail) : Prop := v.received ++ v.waiting = v.told

theorem inOrder_dispatch (hv : v.InOrder) (max : Nat) : (v.dispatch max).InOrder := by
  refine Eq.trans ?_ hv
  rw [dispatch, List.append_assoc, EventQueue.popBatch_append]

/-- **The order is kept exactly if what is handed over passes nothing that waits**, unless passing makes
no difference. -/
theorem inOrder_tell_iff (hv : v.InOrder) (new : List Event) :
    (v.tell deferred new).InOrder ↔ deferred = true ∨ new ++ v.waiting = v.waiting ++ new := by
  have hv : v.told = v.received ++ v.waiting := Eq.symm hv
  cases deferred with
  | true => simp [InOrder, tell, hv]
  | false => simp [InOrder, tell, hv]

theorem inOrder_tell (hv : v.InOrder) {new : List Event}
    (h : deferred = false → v.waiting = [] ∨ new = []) : (v.tell deferred new).InOrder := by
  refine (inOrder_tell_iff hv new).2 ?_
  cases hdeferred : deferred with
  | true => exact .inl rfl
  | false =>
    rcases h hdeferred with hwaiting | hnew
    · exact .inr (by simp [hwaiting])
    · exact .inr (by simp [hnew])

/-! ## Routes -/

/-- An event that is handed over at once comes before one that waits. -/
inductive Overtakes : List Letter → List Letter → Prop
  | pass (before after : List Letter) (e e' : Event) :
      Overtakes (before ++ ⟨e, true⟩ :: ⟨e', false⟩ :: after) (before ++ ⟨e', false⟩ :: ⟨e, true⟩ :: after)

/-- Any number of times. -/
def Overtaking : List Letter → List Letter → Prop := Relation.ReflTransGen Overtakes

variable {l l' : List Letter}

theorem Overtakes.append (h : Overtakes l l') (front back : List Letter) :
    Overtakes (front ++ l ++ back) (front ++ l' ++ back) := by
  obtain ⟨before, after, e, e'⟩ := h
  simpa using Overtakes.pass (front ++ before) (after ++ back) e e'

theorem Overtaking.append (h : Overtaking l l') (front back : List Letter) :
    Overtaking (front ++ l ++ back) (front ++ l' ++ back) := by
  induction h with
  | refl => exact .refl
  | tail _ hstep ih => exact Relation.ReflTransGen.tail ih (hstep.append front back)

theorem Overtaking.perm (h : Overtaking l l') : l.Perm l' := by
  induction h with
  | refl => exact .refl _
  | tail _ hstep ih =>
    obtain ⟨before, after, e, e'⟩ := hstep
    exact ih.trans (.append_left before (.swap ..))

/-- **Of the events that take the same way, none overtakes another.** -/
theorem Overtaking.filter_eq (h : Overtaking l l') (deferred : Bool) :
    l.filter (·.deferred = deferred) = l'.filter (·.deferred = deferred) := by
  induction h with
  | refl => rfl
  | tail _ hstep ih =>
    obtain ⟨before, after, e, e'⟩ := hstep
    refine ih.trans ?_
    cases deferred <;> simp

/-- All that is handed over at once passes an event that waits. -/
theorem overtaking_one (e : Event) (new : List Event) :
    Overtaking (⟨e, true⟩ :: new.map (⟨·, false⟩)) (new.map (⟨·, false⟩) ++ [⟨e, true⟩]) := by
  induction new with
  | nil => exact .refl
  | cons e' rest ih =>
    have hrest := Overtaking.append ih [⟨e', false⟩] []
    simp only [List.append_nil] at hrest
    exact .head (.pass [] (rest.map (⟨·, false⟩)) e e') hrest

/-- And so all that waits, from the latest on. -/
theorem overtaking_pass (waiting new : List Event) :
    Overtaking (waiting.map (⟨·, true⟩) ++ new.map (⟨·, false⟩))
      (new.map (⟨·, false⟩) ++ waiting.map (⟨·, true⟩)) := by
  induction waiting with
  | nil =>
    simp only [List.map_nil, List.nil_append, List.append_nil]
    exact .refl
  | cons e rest ih =>
    have hrest := Overtaking.append ih [⟨e, true⟩] []
    have hfirst := Overtaking.append (overtaking_one e new) [] (rest.map (⟨·, true⟩))
    simp only [List.append_nil, List.nil_append, List.append_assoc, List.cons_append] at hrest hfirst
    exact Relation.ReflTransGen.trans hrest hfirst

/-- What waits, all of it in the queue. -/
def queued (v : Mail) : List Letter := v.waiting.map (⟨·, true⟩)

/-- The events are received in the order in which they were told, but for overtaking, and so is what waits
if it is dispatched. -/
def Routed (v : Mail) : Prop :=
  ∃ told received : List Letter, told.map (·.event) = v.told ∧ received.map (·.event) = v.received ∧
    Overtaking told (received ++ v.queued)

theorem map_letters (deferred : Bool) (events : List Event) :
    (events.map fun e => Letter.mk e deferred).map (·.event) = events := by
  simp [Function.comp_def]

theorem routed_nil : Routed ⟨[], [], []⟩ := ⟨[], [], rfl, rfl, .refl⟩

theorem routed_tell (hv : v.Routed) (deferred : Bool) (new : List Event) :
    (v.tell deferred new).Routed := by
  obtain ⟨told, received, htold, hreceived, horder⟩ := hv
  have hnew := Overtaking.append horder [] (new.map (⟨·, deferred⟩))
  simp only [List.nil_append, List.append_assoc] at hnew
  cases deferred with
  | true =>
    refine ⟨told ++ new.map (⟨·, true⟩), received, ?_, hreceived, ?_⟩
    · rw [List.map_append, htold, map_letters]
      rfl
    · simpa [tell, queued] using hnew
  | false =>
    refine ⟨told ++ new.map (⟨·, false⟩), received ++ new.map (⟨·, false⟩), ?_, ?_, ?_⟩
    · rw [List.map_append, htold, map_letters]
      rfl
    · rw [List.map_append, hreceived, map_letters]
      rfl
    · have hpassed := Overtaking.append (overtaking_pass v.waiting new) received []
      simp only [List.append_nil] at hpassed
      rw [List.append_assoc]
      exact Relation.ReflTransGen.trans hnew hpassed

theorem routed_dispatch (hv : v.Routed) (max : Nat) : (v.dispatch max).Routed := by
  obtain ⟨told, received, htold, hreceived, horder⟩ := hv
  refine ⟨told, received ++ (EventQueue.popBatch v.waiting max).1.map (⟨·, true⟩), htold, ?_, ?_⟩
  · rw [List.map_append, hreceived, map_letters]
    rfl
  · rw [queued, dispatch, List.append_assoc, ← List.map_append, EventQueue.popBatch_append]
    exact horder

/-- **Each event that was told was received or waits, once.** -/
theorem Routed.perm (hv : v.Routed) : (v.received ++ v.waiting).Perm v.told := by
  obtain ⟨told, received, htold, hreceived, horder⟩ := hv
  have hperm := (Overtaking.perm horder).map (·.event)
  rw [List.map_append, queued, map_letters, htold, hreceived] at hperm
  exact hperm.symm

end Mail

namespace Service

/-- The service's mail. -/
def mail (s : Service) : Mail := ⟨s.emitted.toList.map (·.event), s.delivered.toList.map (·.2), s.events⟩

/-- Events were told, and all of them went one way; a callback stays. -/
structure Mails (deferred : Bool) (s s' : Service) : Prop where
  callback : s.callback.isSome → s'.callback.isSome
  mail : s.callback.isSome → ∃ new, s'.mail = s.mail.tell deferred new

variable {deferred : Bool}

theorem Mails.of_mail {s s' : Service} (hcallback : s.callback.isSome → s'.callback.isSome)
    (hmail : s'.mail = s.mail) : Mails deferred s s' :=
  ⟨hcallback, fun _ => ⟨[], hmail.trans (Mail.tell_nil ..).symm⟩⟩

theorem Mails.trans {s s' s'' : Service} (h : Mails deferred s s') (h' : Mails deferred s' s'') :
    Mails deferred s s'' := by
  refine ⟨fun hs => h'.callback (h.callback hs), fun hs => ?_⟩
  obtain ⟨new, hnew⟩ := h.mail hs
  obtain ⟨more, hmore⟩ := h'.mail (h.callback hs)
  exact ⟨new ++ more, by rw [hmore, hnew, Mail.tell_tell]⟩

/-! ## Requests and callbacks -/

/-- **A request sends no mail, and takes no callback away.** -/
theorem keeps_mail_perform (s : Service) (now : Instant) (q : Request) :
    (s.perform now q).2.mail = s.mail ∧
      (s.callback.isSome → (s.perform now q).2.callback.isSome) := by
  have hite : ∀ (p : Prop) [Decidable p] (s' : Service), s'.mail = s.mail → s'.callback = s.callback →
      (if p then s' else s).mail = s.mail ∧
        (s.callback.isSome → (if p then s' else s).callback.isSome) := by
    intro p _ s' hmail hcallback
    split
    · exact ⟨hmail, fun hs => hcallback ▸ hs⟩
    · exact ⟨rfl, id⟩
  cases q with
  | openChannel channel mask => exact hite _ _ rfl rfl
  | closeChannel channel => exact hite _ _ rfl rfl
  | closeTransport h => exact hite _ _ rfl rfl
  | reopen h => exact hite _ _ rfl rfl
  | write h data => exact hite _ _ rfl rfl
  | schedule delay again timer => exact ⟨rfl, id⟩
  | cancelTimer h =>
    simp only [perform, cancelTimer]
    split <;> exact ⟨rfl, id⟩
  | removeTimer h => exact ⟨rfl, id⟩
  | setOption c =>
    simp only [perform, setOption]
    split
    case h_1 => exact ⟨rfl, fun _ => rfl⟩
    case h_6 => split <;> exact ⟨rfl, id⟩
    all_goals exact ⟨rfl, id⟩
  | stop => exact hite _ _ rfl rfl

theorem mail_perform (s : Service) (now : Instant) (q : Request) : (s.perform now q).2.mail = s.mail :=
  (keeps_mail_perform s now q).1

theorem callback_perform {s : Service} (hs : s.callback.isSome) (now : Instant) (q : Request) :
    (s.perform now q).2.callback.isSome :=
  (keeps_mail_perform s now q).2 hs

theorem mails_perform (s : Service) (now : Instant) (q : Request) :
    Mails deferred s (s.perform now q).2 :=
  .of_mail (fun hs => callback_perform hs now q) (mail_perform s now q)

variable {σ : Type} [Host σ]

theorem mail_runScript (script : Script σ) (s : Service) : (runScript script s).1.mail = s.mail := by
  induction script generalizing s with
  | done w => rfl
  | call w q next ih => exact (ih _ _ _).trans (mail_perform s _ q)

theorem callback_runScript (script : Script σ) {s : Service} (hs : s.callback.isSome) :
    (runScript script s).1.callback.isSome := by
  induction script generalizing s with
  | done w => exact hs
  | call w q next ih => exact ih _ _ (callback_perform hs _ q)

theorem mails_runScript (script : Script σ) (s : Service) : Mails deferred s (runScript script s).1 :=
  .of_mail (callback_runScript script) (mail_runScript script s)

theorem mail_deliver (callback : Nat) (e : Event) (s : Service) (w : σ) :
    (deliver callback e s w).1.mail = { s.mail with received := s.mail.received ++ [e] } := by
  rw [deliver, mail_runScript]
  simp [mail]

theorem mail_deliverAll (callback : Nat) (events : List Event) (s : Service) (w : σ) :
    (deliverAll callback events s w).1.mail = { s.mail with received := s.mail.received ++ events } := by
  induction events generalizing s w with
  | nil => simp [deliverAll]
  | cons e rest ih =>
    rw [deliverAll, ih, mail_deliver]
    simp

theorem callback_deliverAll (callback : Nat) (events : List Event) {s : Service} (hs : s.callback.isSome)
    (w : σ) : (deliverAll callback events s w).1.callback.isSome := by
  induction events generalizing s w with
  | nil => exact hs
  | cons e rest ih =>
    refine ih (callback_runScript (Application.onEvent callback e w) ?_) _
    exact hs

/-- **What is dispatched is handed over from the front of the queue.** -/
theorem mail_dispatch (max : Nat) {s : Service} (hs : s.callback.isSome) (w : σ) :
    (dispatch max s w).2.1.mail = s.mail.dispatch max := by
  obtain ⟨callback, hcallback⟩ := Option.isSome_iff_exists.1 hs
  simp only [dispatch, hcallback, mail_deliverAll]
  rfl

theorem callback_dispatch (max : Nat) {s : Service} (hs : s.callback.isSome) (w : σ) :
    (dispatch max s w).2.1.callback.isSome := by
  obtain ⟨callback, hcallback⟩ := Option.isSome_iff_exists.1 hs
  simp only [dispatch, hcallback]
  exact callback_deliverAll callback _ rfl w

end Service

namespace Reactor

variable {σ : Type} [Host σ]

/-- **An event goes the way that the loop's copy of the options says.** -/
theorem mails_emit (r : Reactor σ) (e : Event) :
    Service.Mails r.options.deferEvents r.service (r.emit e).service := by
  have hrecord : (r.record e).service.mail = { r.service.mail with told := r.service.mail.told ++ [e] } := by
    simp [record, Service.mail, emission]
  refine ⟨fun hs => ?_, fun hs => ⟨[e], ?_⟩⟩
  · simp only [emit]
    split
    · exact hs
    · split
      · exact Service.callback_runScript _ hs
      · exact hs
  · obtain ⟨callback, hcallback⟩ := Option.isSome_iff_exists.1 hs
    have hcallback : (r.record e).service.callback = some callback := hcallback
    have hoptions : (r.record e).options = r.options := rfl
    simp only [emit, hoptions]
    cases r.options.deferEvents with
    | true =>
      simp only [if_true, Mail.tell]
      exact congrArg (fun v : Mail => { v with waiting := v.waiting ++ [e] }) hrecord
    | false =>
      simp only [hcallback, Bool.false_eq_true, if_false, Mail.tell, Service.mail_deliver, hrecord]

end Reactor

end NetReactor
