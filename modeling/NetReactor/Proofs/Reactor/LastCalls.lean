import NetReactor.Proofs.Reactor.Standing
import NetReactor.Proofs.Timer.Ending
import NetReactor.Simulation.Meddler

/-!
# The calls after a removal or a cancel

The loop takes the timers that are due off the queue all at once and puts those that repeat back before it calls
the first. So **a callback that removes or cancels a timer behind it in the same batch is told that it did, and
the timer is called all the same** (`called_though_removed`). That is the only way: when a callback's removal was
answered with `true`, the timer is called again only as one of those still due then, which is once at most; and
when its cancel was, the timer is called once more beside that, as cancelled, unless the application removes it
or the run ends first (`called_after_answer`).
-/

namespace NetReactor

open Timer (Expired callsOf)

/-- From `s` on, the script makes the request at `now` and is answered so. -/
inductive Script.Asks {σ : Type} [Host σ] (q : Request) (answer : Reply) (now : Instant) :
    Script σ → Service → Prop
  | here {w : σ} {next : Reply → σ → Script σ} {s : Service} (hnow : (Host.now w).1 = now)
      (hanswer : (s.perform now q).1 = answer) : Asks q answer now (.call w q next) s
  | later {w : σ} {r : Request} {next : Reply → σ → Script σ} {s : Service}
      (h : Asks q answer now (next (s.perform (Host.now w).1 r).1 (Host.now w).2)
        (s.perform (Host.now w).1 r).2) : Asks q answer now (.call w r next) s

namespace Service

variable {σ : Type} [Host σ] {q : Request} {answer : Reply} {now : Instant}

omit [Host σ] in
theorem timers_cancelTimer (s : Service) (now : Instant) (h : Timer.Handle) :
    (s.cancelTimer now h).1 = (s.timers.cancel now h).1 ∧
      (s.cancelTimer now h).2.timers = (s.timers.cancel now h).2 := by
  unfold cancelTimer
  split
  · rename_i q heq
    rw [heq]
    exact ⟨rfl, rfl⟩
  · rename_i q heq
    have hsame := timers_cancel_of_false (congrArg (·.1) heq)
    rw [heq] at hsame ⊢
    exact ⟨rfl, hsame.symm⟩

/-- What is asked splits a script's run in two. -/
theorem plays_asks {script : Script σ} {s : Service} (h : script.Asks q answer now s) :
    ∃ s', s.Plays s' ∧ (s'.perform now q).1 = answer ∧
      (s'.perform now q).2.Plays (runScript script s).1 := by
  induction h with
  | here hnow hanswer =>
    subst hnow
    exact ⟨_, .refl _, hanswer, plays_runScript _ _⟩
  | later h ih =>
    obtain ⟨s', hbefore, hanswer, hafter⟩ := ih
    exact ⟨s', (plays_perform _ _ _).trans hbefore, hanswer, hafter⟩

end Service

namespace Course

variable {σ : Type} [Host σ] {x y z : Course σ} {e : Expired Task} {more : List (Expired Task)}
  {h : Timer.Handle} {timer : Nat} {t : Instant}

/-! ## What is called along a run -/

/-- The timers that a step calls: the first of those due, if the step takes it off them. -/
inductive Called (x y : Course σ) : List (Expired Task) → Prop
  | one {e : Expired Task} (hdue : x.due = e :: y.due) : Called x y [e]
  | none (hdue : ∀ e, x.due ≠ e :: y.due) : Called x y []

/-- A run, and the timers called along it, in order. -/
inductive Runs : Course σ → List (Expired Task) → Course σ → Prop
  | refl {x : Course σ} : Runs x [] x
  | tail {x y z : Course σ} {calls more : List (Expired Task)} (h : Runs x calls y) (hstep : y.Step z)
      (hmore : y.Called z more) : Runs x (calls ++ more) z

theorem Runs.steps {calls : List (Expired Task)} (h : x.Runs calls y) : x.Steps y := by
  induction h with
  | refl => exact .refl
  | tail _ hstep _ ih => exact ih.tail hstep

theorem Runs.reachable {calls : List (Expired Task)} (h : x.Runs calls y) (hx : x.Reachable) : y.Reachable := by
  obtain ⟨o, w, hsteps⟩ := hx
  exact ⟨o, w, hsteps.trans h.steps⟩

omit [Host σ] in
theorem exists_called (x y : Course σ) : ∃ more, x.Called y more := by
  by_cases hdue : ∃ e, x.due = e :: y.due
  · exact ⟨_, .one hdue.choose_spec⟩
  · exact ⟨_, .none fun e heq => hdue ⟨e, heq⟩⟩

/-- Every run has its calls. -/
theorem exists_runs (h : x.Steps y) : ∃ calls, x.Runs calls y := by
  induction h with
  | refl => exact ⟨[], .refl⟩
  | @tail b c _ hstep ih =>
    obtain ⟨calls, hruns⟩ := ih
    obtain ⟨more, hmore⟩ := exists_called b c
    exact ⟨calls ++ more, hruns.tail hstep hmore⟩

omit [Host σ] in
theorem Called.append_due (hmore : x.Called y more) (h : y.due = x.due ∨ ∃ e, x.due = e :: y.due) :
    more ++ y.due = x.due := by
  cases hmore with
  | one hdue => exact hdue.symm
  | none hdue =>
    rcases h with hsame | ⟨e, hfired⟩
    · exact hsame
    · exact absurd hfired (hdue e)

omit [Host σ] in
theorem Called.eq_nil (hmore : x.Called y more) (hnone : x.due = []) : more = [] := by
  cases hmore with
  | one hdue => simp [hnone] at hdue
  | none hdue => rfl

/-- **What was due is called or still due**, and more is due after a poll only. -/
theorem Advance.due (hstep : x.Advance y) (hmore : x.Called y more) : more ++ y.due = x.due ∨
    more = [] ∧ x.due = [] ∧ y.reactor.desk y.due = (x.reactor.desk []).poll (Host.now x.reactor.world).1 := by
  cases hstep with
  | handled _ => exact .inl (hmore.append_due (.inl rfl))
  | poll hnone => exact .inr ⟨hmore.eq_nil hnone, hnone, rfl⟩
  | fire hfired => exact .inl (hmore.append_due (.inr ⟨_, hfired⟩))
  | stop _ => exact .inl (hmore.append_due (.inl rfl))
  | start _ hnone => exact .inl (hmore.append_due (.inl hnone.symm))

/-- A step that takes a timer off those due is its call. -/
theorem Advance.fired (hstep : x.Advance y) (hdue : x.due = e :: y.due) : y.reactor = x.reactor.fire e := by
  cases hstep with
  | handled _ => exact absurd hdue.symm (List.cons_ne_self e x.due)
  | poll hnone => simp [hnone] at hdue
  | fire hfired =>
    obtain ⟨rfl, -⟩ := List.cons.inj (hfired.symm.trans hdue)
    rfl
  | stop _ => exact absurd hdue.symm (List.cons_ne_self e x.due)
  | start _ hnone => simp [hnone] at hdue

/-- Nothing is due twice. -/
theorem nodup_due (hx : x.Reachable) : (x.due.map (·.handle)).Nodup := by
  obtain ⟨o, w, hsteps⟩ := hx
  induction hsteps with
  | refl => exact List.nodup_nil
  | @tail b c hsteps hstep ih =>
    obtain ⟨more, hmore⟩ := exists_called b c
    rcases hstep.advance.due hmore with hdue | ⟨-, -, hpoll⟩
    · rw [← hdue, List.map_append] at ih
      exact (List.nodup_append.1 ih).2.1
    · have hdesk := (Reachable.kept ⟨o, w, hsteps⟩).desk
      have hdue : c.due = _ := congrArg Desk.due hpoll
      rw [hdue]
      exact hdesk.keyed.nodup_pollExpired _

/-! ## Gone for good -/

/-- What is gone from the queue stays gone, step by step. -/
theorem Advance.gone (hstep : x.Advance y) (hx : x.reactor.Kept x.due) (hgone : (x.reactor.desk x.due).Gone h) :
    (y.reactor.desk y.due).Gone h := by
  cases hstep with
  | handled hhandled => exact (hhandled.trail.desk x.due).gone hgone
  | poll hdue =>
    have hgone : (x.reactor.desk []).Gone h := hdue ▸ hgone
    exact (hgone.poll (hdue ▸ hx.desk) _).1
  | @fire e rest hdue =>
    have hmoves := ((Reactor.handled_fire x.reactor (hdue ▸ List.mem_cons_self : e ∈ x.due)).trail.desk x.due)
    have hafter := hmoves.gone hgone
    exact ⟨hafter.issued, hafter.absent⟩
  | stop hdue =>
    have hclosed := ((Reactor.trail_closed x.reactor).desk x.due).gone hgone
    exact ⟨hclosed.issued, rfl⟩
  | start hrunning hdue callback endpoints =>
    rw [Service.start_of_not_running hrunning]
    exact ⟨hgone.issued, hgone.absent⟩

/-- **A timer that is gone is called only if it was due**, and then it is still due or was called. -/
theorem Runs.gone {calls : List (Expired Task)} (hrun : y.Runs calls z) (hy : y.Reachable)
    (hgone : (y.reactor.desk y.due).Gone h) :
    (z.reactor.desk z.due).Gone h ∧ callsOf h (calls ++ z.due) = callsOf h y.due := by
  induction hrun with
  | refl => exact ⟨hgone, rfl⟩
  | @tail b c calls more hrun hstep hmore ih =>
    obtain ⟨hb, hcalls⟩ := ih
    have hkept := (hrun.reachable hy).kept
    refine ⟨hstep.advance.gone hkept hb, ?_⟩
    rw [List.append_assoc]
    rcases hstep.advance.due hmore with hdue | ⟨rfl, hnone, hpoll⟩
    · rwa [hdue]
    · rw [hnone] at hkept hb hcalls
      have hpolled := (hb.poll hkept.desk (Host.now b.reactor.world).1).2
      rw [← hpoll] at hpolled
      have hpolled : callsOf h c.due = [] := hpolled
      rw [List.nil_append, Timer.callsOf_append, hpolled, ← hcalls, List.append_nil, List.append_nil]

/-! ## Doomed -/

/-- A step in which a timer may be lost: the loop ends, or the application asks for the timer's removal. -/
def Loses (x y : Course σ) (h : Timer.Handle) : Prop :=
  y = x.withReactor x.reactor.teardown ∨
    ∃ new, y.service.timerCalls = new ++ x.service.timerCalls ∧ .removed h ∈ new

/-- **A cancelled timer waits until it is called as cancelled, or it is lost.** -/
theorem Advance.doomed (hstep : x.Advance y) (hx : x.reactor.Kept x.due) (hmore : x.Called y more)
    (hdoomed : (x.reactor.desk x.due).Doomed h timer t) :
    (y.reactor.desk y.due).Doomed h timer t ∧ callsOf h (more ++ y.due) = callsOf h x.due ∨
    (y.reactor.desk y.due).Gone h ∧
      callsOf h (more ++ y.due) = callsOf h x.due ++ [⟨h, .user timer, true⟩] ∨
    (y.reactor.desk y.due).Gone h ∧ callsOf h (more ++ y.due) = callsOf h x.due ∧ x.Loses y h := by
  cases hstep with
  | handled hhandled =>
    have hsame : callsOf h (more ++ x.due) = callsOf h x.due := congrArg _ (hmore.append_due (.inl rfl))
    rcases (hhandled.trail.desk x.due).doomed hx.desk hdoomed with hdoomed | ⟨hgone, hlost⟩
    · exact .inl ⟨hdoomed, hsame⟩
    · exact .inr (.inr ⟨hgone, hsame, .inr hlost⟩)
  | poll hnone =>
    obtain rfl := hmore.eq_nil hnone
    rw [hnone] at hx hdoomed ⊢
    by_cases hnow : t ≤ (Host.now x.reactor.world).1
    · exact .inr (.inl (hdoomed.poll hx.desk hnow))
    · exact .inl (hdoomed.poll_early hx.desk hnow)
  | @fire e rest hdue =>
    have hsame : callsOf h (more ++ rest) = callsOf h x.due :=
      congrArg _ (hmore.append_due (.inr ⟨e, hdue⟩))
    have hfired := (Reactor.handled_fire x.reactor (hdue ▸ List.mem_cons_self : e ∈ x.due)).trail.desk x.due
    rcases hfired.doomed hx.desk hdoomed with hdoomed | ⟨hgone, hlost⟩
    · exact .inl ⟨hdoomed, hsame⟩
    · exact .inr (.inr ⟨⟨hgone.issued, hgone.absent⟩, hsame, .inr hlost⟩)
  | stop hdue =>
    have hsame : callsOf h (more ++ x.due) = callsOf h x.due := congrArg _ (hmore.append_due (.inl rfl))
    have hissued := hx.desk.keyed.issued_of_lookup hdoomed.choose_spec
    have hnext := ((Reactor.trail_closed x.reactor).desk x.due).follows.next
    exact .inr (.inr ⟨⟨Nat.lt_of_lt_of_le hissued hnext, rfl⟩, hsame, .inl rfl⟩)
  | start hrunning hdue callback endpoints =>
    have hsame : callsOf h (more ++ []) = callsOf h x.due := congrArg _ (hmore.append_due (.inl hdue.symm))
    rw [Service.start_of_not_running hrunning]
    exact .inl ⟨hdoomed, hsame⟩

/-- What became of the application's timer `h` since its cancel at `t` in the step from `x`, where `before` are
its calls that were due then, and `calls` those made since or due now. -/
inductive Fate (x z : Course σ) (h : Timer.Handle) (timer : Nat) (t : Instant)
    (before calls : List (Expired Task)) : Prop
  /-- It waits still, as cancelled. -/
  | waits (hdoomed : (z.reactor.desk z.due).Doomed h timer t) (hcalls : calls = before)
  /-- It was called once more, as cancelled, or is about to be. -/
  | called (hgone : (z.reactor.desk z.due).Gone h) (hcalls : calls = before ++ [⟨h, .user timer, true⟩])
  /-- The application removed it, or the run ended. -/
  | lost (hgone : (z.reactor.desk z.due).Gone h) (hcalls : calls = before) {u v : Course σ}
      (hbefore : x.Steps u) (hstep : u.Step v) (hafter : v.Steps z) (hloses : u.Loses v h)

/-- **The fate of a cancelled timer is one of three**, along every run. -/
theorem Runs.fate {calls : List (Expired Task)} (hrun : y.Runs calls z) (hcall : x.Step y) (hy : y.Reachable)
    (hfate : Fate x y h timer t (callsOf h y.due) (callsOf h y.due)) :
    Fate x z h timer t (callsOf h y.due) (callsOf h (calls ++ z.due)) := by
  induction hrun with
  | refl => exact hfate
  | @tail b c calls more hrun hstep hmore ih =>
    have hkept := (hrun.reachable hy).kept
    have hsame : ∀ {l}, callsOf h (more ++ c.due) = callsOf h b.due ++ l →
        callsOf h (calls ++ more ++ c.due) = callsOf h (calls ++ b.due) ++ l := fun {l} heq => by
      rw [List.append_assoc, Timer.callsOf_append, heq, Timer.callsOf_append, List.append_assoc]
    have hgone : (b.reactor.desk b.due).Gone h → (c.reactor.desk c.due).Gone h ∧
        callsOf h (calls ++ more ++ c.due) = callsOf h (calls ++ b.due) := fun hgone => by
      obtain ⟨hc, hcalls⟩ := (Runs.refl.tail hstep hmore).gone (hrun.reachable hy) hgone
      exact ⟨hc, (hsame (hcalls.trans (List.append_nil _).symm)).trans (List.append_nil _)⟩
    cases ih with
    | waits hdoomed hcalls =>
      rcases hstep.advance.doomed hkept hmore hdoomed with ⟨hdoomed, heq⟩ | ⟨hc, heq⟩ | ⟨hc, heq, hloses⟩
      · refine .waits hdoomed ?_
        rw [hsame (heq.trans (List.append_nil _).symm), List.append_nil, hcalls]
      · refine .called hc ?_
        rw [hsame heq, hcalls]
      · refine .lost hc ?_ (.head hcall hrun.steps) hstep .refl hloses
        rw [hsame (heq.trans (List.append_nil _).symm), List.append_nil, hcalls]
    | called hb hcalls =>
      obtain ⟨hc, heq⟩ := hgone hb
      exact .called hc (heq.trans hcalls)
    | lost hb hcalls hbefore hlost hafter hloses =>
      obtain ⟨hc, heq⟩ := hgone hb
      exact .lost hc (heq.trans hcalls) hbefore hlost (hafter.tail hstep) hloses

/-! ## What a callback is told -/

section
variable {r : Reactor σ} {now : Instant} {due : List (Expired Task)}

/-- The loop while a callback runs, when the service has come to `s`. -/
def during (r : Reactor σ) (s : Service) : Reactor σ := { r with service := s }

/-- A callback's answer stands between two rows of changes of the desk. -/
theorem exists_desk_of_asks (htask : e.payload = .user timer) {q : Request} {answer : Reply}
    (hasks : (Application.onTimer timer e.cancelled r.world).Asks q answer now r.service)
    (due : List (Expired Task)) : ∃ s : Service, (s.perform now q).1 = answer ∧
      (r.desk due).Moves ((during r s).desk due) ∧
      ((during r s).desk due).Moves ((during r (s.perform now q).2).desk due) ∧
      ((during r (s.perform now q).2).desk due).Moves ((r.fire e).desk due) := by
  obtain ⟨s, hbefore, hanswer, hafter⟩ := Service.plays_asks hasks
  have hfire : r.fire e = { r with
      service := (Service.runScript (Application.onTimer timer e.cancelled r.world) r.service).1
      world := (Service.runScript (Application.onTimer timer e.cancelled r.world) r.service).2 } := by
    unfold Reactor.fire
    rw [htask]
  rw [hfire]
  exact ⟨s, hanswer, Reactor.desk_plays due rfl rfl hbefore,
    Reactor.desk_plays (r := during r s) due rfl rfl (Service.plays_perform s now q),
    Reactor.desk_plays (r := during r (s.perform now q).2) due rfl rfl hafter⟩

/-- **A timer whose removal was answered with `true` is gone when the callback ends.** -/
theorem gone_of_asks (hr : (r.desk due).Sound) (htask : e.payload = .user timer)
    (hasks : (Application.onTimer timer e.cancelled r.world).Asks (.removeTimer h) (.found true) now r.service) :
    ((r.fire e).desk due).Gone h := by
  obtain ⟨s, hanswer, hbefore, -, hafter⟩ := exists_desk_of_asks htask hasks due
  have hfound : (s.timers.remove h).1.isSome = true := Reply.found.inj hanswer
  obtain ⟨entry, hentry⟩ := Option.isSome_iff_exists.1 (Timer.Queue.isSome_get?_of_remove hfound)
  have hissued : h < s.nextTimer := (hbefore.sound hr).keyed.issued_of_lookup hentry
  have habsent : (s.timers.remove h).2.get? h = none := (Desk.lookup_remove s.timers h h).trans (if_pos rfl)
  exact hafter.gone ⟨hissued, habsent⟩

/-- **A timer whose cancel was answered with `true` is doomed when the callback ends**, unless that removes it. -/
theorem doomed_of_asks (hr : (r.desk due).Sound) (htask : e.payload = .user timer)
    (hasks : (Application.onTimer timer e.cancelled r.world).Asks (.cancelTimer h) (.found true) now r.service)
    (howned : .scheduled h ∈ (r.fire e).service.timerCalls) : ∃ number,
      ((r.fire e).desk due).Doomed h number now ∨ ((r.fire e).desk due).Gone h ∧
        ∃ new, (r.fire e).service.timerCalls = new ++ r.service.timerCalls ∧ .removed h ∈ new := by
  obtain ⟨s, hanswer, hbefore, hasked, hafter⟩ := exists_desk_of_asks htask hasks due
  have htold : ((during r (s.perform now (.cancelTimer h)).2).desk due).Sound := hasked.sound (hbefore.sound hr)
  have hfound : (s.cancelTimer now h).1 = true := Reply.found.inj hanswer
  rw [(s.timers_cancelTimer now h).1] at hfound
  obtain ⟨entry, -, hentry⟩ := Timer.Queue.exists_of_cancel hfound
  rw [← (s.timers_cancelTimer now h).2] at hentry
  -- What the application was given by then is no channel's.
  have hissued := htold.keyed.issued_of_lookup hentry
  have hnone := (htold.calls (hafter.scheduled hissued howned)).2 entry.payload (.inl ⟨_, hentry, rfl⟩)
  obtain ⟨number, hnumber⟩ : ∃ number, entry.payload = .user number := by
    cases htask : entry.payload with
    | user number => exact ⟨number, rfl⟩
    | connectTimeout i => simp [htask, Task.channel?] at hnone
    | reconnect i => simp [htask, Task.channel?] at hnone
  have hdoomed : ((during r (s.perform now (.cancelTimer h)).2).desk due).Doomed h number now :=
    ⟨entry.kind, hnumber ▸ hentry⟩
  refine ⟨number, (hafter.doomed htold hdoomed).imp_right ?_⟩
  rintro ⟨hgone, new, hnew, hmem⟩
  obtain ⟨more, hmore⟩ := Desk.Moves.calls (hbefore.trans hasked)
  exact ⟨hgone, new ++ more, hnew.trans (by rw [hmore, List.append_assoc]; rfl), List.mem_append_left more hmem⟩

end

/-- **What a callback was told about a timer, and what comes of it.** In every run, when the loop has called a
timer of the application, whose callback had a removal answered with `true`, then the removed timer is called
again only as one of those still due from the same poll, once at most; and when it had a cancel of one of the
application's timers answered with `true`, that timer is called beside this once more, as cancelled, unless it is
removed or the run ends first: the first poll that is not before the cancel takes it out. -/
theorem called_after_answer (hx : x.Reachable) (hcall : x.Step y) (hdue : x.due = e :: y.due)
    (htask : e.payload = .user timer) (h : Timer.Handle) {calls : List (Expired Task)} (hrun : y.Runs calls z) :
    (callsOf h y.due).length ≤ 1 ∧
    (∀ now, (Application.onTimer timer e.cancelled x.reactor.world).Asks (.removeTimer h) (.found true) now
      x.service → callsOf h (calls ++ z.due) = callsOf h y.due) ∧
    (∀ now, (Application.onTimer timer e.cancelled x.reactor.world).Asks (.cancelTimer h) (.found true) now
      x.service → .scheduled h ∈ y.service.timerCalls → ∃ number,
        Fate x z h number now (callsOf h y.due) (callsOf h (calls ++ z.due)) ∧
        ((z.reactor.desk z.due).Doomed h number now → ∀ later, now ≤ later →
          callsOf h (z.service.timers.pollExpired later).1 = [⟨h, .user number, true⟩])) := by
  have hy := hx.step hcall
  have hfired := hcall.advance.fired hdue
  have hgone : ((x.reactor.fire e).desk x.due).Gone h → (y.reactor.desk y.due).Gone h := fun hgone =>
    hfired ▸ ⟨hgone.issued, hgone.absent⟩
  refine ⟨Timer.length_callsOf_le (nodup_due hy) h, fun now hasks => ?_, fun now hasks howned => ?_⟩
  · exact (hrun.gone hy (hgone (gone_of_asks hx.kept.desk htask hasks))).2
  · have howned : .scheduled h ∈ (x.reactor.fire e).service.timerCalls := hfired ▸ howned
    obtain ⟨number, hends⟩ := doomed_of_asks hx.kept.desk htask hasks howned
    have hfate : Fate x y h number now (callsOf h y.due) (callsOf h y.due) := by
      rcases hends with hdoomed | ⟨hlost, hremoved⟩
      · exact .waits (hfired ▸ hdoomed) rfl
      · exact .lost (hgone hlost) rfl .refl hcall .refl (.inr (by rwa [Course.service, hfired]))
    refine ⟨number, hrun.fate hcall hy hfate, fun hdoomed later hlater => ?_⟩
    exact (hdoomed.poll (hrun.reachable hy).kept.desk hlater).2

end Course

/-! ## Two timers in one batch -/

namespace Simulation.Meddler

open Course

/-- A timer that is called once and one that repeats were both due, and the loop is about to call the first,
whose callback makes the request. -/
def batch (q : Request) : Course Meddler :=
  let s := ((Service.ofOptions .standard).start 0 0)
  let s := (s.perform ⟨0⟩ (.schedule (.ofMillis 1) false 0)).2
  let s := (s.perform ⟨0⟩ (.schedule (.ofMillis 2) true 1)).2
  let r : Reactor Meddler := .new s ⟨q⟩ []
  { reactor := r.pollTimers.2, due := r.pollTimers.1, opens := [], told := 0, made := 0 }

theorem reachable_batch (q : Request) : (batch q).Reachable := by
  have hstarted : (Course.new .standard ⟨q⟩ : Course Meddler).Steps _ := .single (.start rfl rfl 0 [])
  have hfirst := hstarted.tail (.request ⟨0⟩ (.schedule (.ofMillis 1) false 0))
  have hsecond := hfirst.tail (.request ⟨0⟩ (.schedule (.ofMillis 2) true 1))
  exact ⟨.standard, ⟨q⟩, hsecond.tail (.poll rfl rfl)⟩

/-- The first has been called, and the other is still due. -/
def amid (q : Request) : Course Meddler :=
  { batch q with
    reactor := (batch q).reactor.fire ⟨0, .user 0, false⟩
    due := [⟨1, .user 1, false⟩] }

theorem step_amid (q : Request) : (batch q).Step (amid q) := .fire rfl rfl

/-- A timer that was removed is called as one of those due, and no more; one that was cancelled is called so,
and once more. -/
theorem answered_in_batch :
    (∃ z : Course Meddler, (batch (.removeTimer 1)).Reachable ∧
      (batch (.removeTimer 1)).Step (amid (.removeTimer 1)) ∧
      (amid (.removeTimer 1)).Runs [⟨1, .user 1, false⟩] z ∧
      callsOf 1 ([⟨1, .user 1, false⟩] ++ z.due) = callsOf 1 (amid (.removeTimer 1)).due) ∧
    ∃ z : Course Meddler, (batch (.cancelTimer 1)).Reachable ∧
      (batch (.cancelTimer 1)).Step (amid (.cancelTimer 1)) ∧
      (amid (.cancelTimer 1)).Runs [⟨1, .user 1, false⟩, ⟨1, .user 1, true⟩] z ∧ ∃ number,
        Fate (batch (.cancelTimer 1)) z 1 number ⟨5000000⟩ (callsOf 1 (amid (.cancelTimer 1)).due)
          (callsOf 1 ([⟨1, .user 1, false⟩, ⟨1, .user 1, true⟩] ++ z.due)) := by
  have hremoved : (amid (.removeTimer 1)).Runs _ _ := Runs.refl.tail (.fire rfl rfl) (.one rfl)
  have hcancelled : (amid (.cancelTimer 1)).Runs _ _ := Runs.refl.tail (.fire rfl rfl) (.one rfl)
  have hpolled := hcancelled.tail (.poll rfl rfl) (.none nofun)
  have hagain := hpolled.tail (.fire rfl rfl) (.one rfl)
  obtain ⟨-, hremoval, -⟩ :=
    called_after_answer (reachable_batch (.removeTimer 1)) (step_amid _) rfl rfl 1 hremoved
  obtain ⟨-, -, hcancel⟩ :=
    called_after_answer (reachable_batch (.cancelTimer 1)) (step_amid _) rfl rfl 1 hagain
  obtain ⟨number, hfate, -⟩ := hcancel _ (.here rfl rfl) (by decide)
  exact ⟨⟨_, reachable_batch _, step_amid _, hremoved, hremoval _ (.here rfl rfl)⟩,
    _, reachable_batch _, step_amid _, hagain, number, hfate⟩

/-- **A callback removes the timer behind it, is told that it did, and the timer is called all the same**; and
one that is cancelled so is called twice. -/
theorem called_though_removed :
    (∃ (x y z : Course Meddler) (e : Expired Task) (now : Instant), x.Reachable ∧ x.Step y ∧
      x.due = e :: y.due ∧ e.payload = .user 0 ∧
      (Application.onTimer 0 e.cancelled x.reactor.world).Asks (.removeTimer 1) (.found true) now x.service ∧
      y.Runs [⟨1, .user 1, false⟩] z) ∧
    ∃ (x y z : Course Meddler) (e : Expired Task) (now : Instant), x.Reachable ∧ x.Step y ∧
      x.due = e :: y.due ∧ e.payload = .user 0 ∧
      (Application.onTimer 0 e.cancelled x.reactor.world).Asks (.cancelTimer 1) (.found true) now x.service ∧
      y.Runs [⟨1, .user 1, false⟩, ⟨1, .user 1, true⟩] z := by
  have hremoved : (amid (.removeTimer 1)).Runs _ _ := Runs.refl.tail (.fire rfl rfl) (.one rfl)
  have hcancelled : (amid (.cancelTimer 1)).Runs _ _ := Runs.refl.tail (.fire rfl rfl) (.one rfl)
  have hpolled := hcancelled.tail (.poll rfl rfl) (.none nofun)
  have hagain := hpolled.tail (.fire rfl rfl) (.one rfl)
  exact ⟨⟨_, _, _, _, _, reachable_batch _, step_amid _, rfl, rfl, .here rfl rfl, hremoved⟩,
    _, _, _, _, _, reachable_batch _, step_amid _, rfl, rfl, .here rfl rfl, hagain⟩

end Simulation.Meddler

end NetReactor
