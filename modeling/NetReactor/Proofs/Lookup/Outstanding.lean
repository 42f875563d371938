import Mathlib.Data.Multiset.AddSub
import NetReactor.Proofs.Lookup.Provenance
import NetReactor.Proofs.Lookup.Waiting

/-!
# What lookups are still to come

A lookup that was started is outstanding until its answer was carried out: its resolver still runs, or its
answer waits in the command queue. In a run that none is left over to, **a channel whose lookup is in
progress has exactly one outstanding answer under its epoch, and every other channel has none**
(`awaited_of_run`). So an open that waits is never stuck, and never served twice. What was begun under an
earlier epoch, which is for an earlier host, is discarded.
-/

namespace NetReactor

/-! ## One channel -/

/-- How many flights are for channel `i` under an epoch. -/
def Flight.countFor (o : Multiset Flight) (i epoch : Nat) : Nat := o.countP (·.tag = (i, epoch))

theorem Flight.countFor_cons (f : Flight) (o : Multiset Flight) (i epoch : Nat) :
    countFor (f ::ₘ o) i epoch = countFor o i epoch + if f.tag = (i, epoch) then 1 else 0 :=
  Multiset.countP_cons _ _ _

namespace ResolveCache

/-- What is outstanding for channel `i`: one answer under its epoch if its lookup is in progress, else
none, and none under a later one. -/
structure Due (c : ResolveCache) (i : Nat) (o : Multiset Flight) : Prop where
  count : Flight.countFor o i c.epoch = if c.state = .inProgress then 1 else 0
  newest : ∀ f ∈ o, f.lookup.channel = i → f.lookup.epoch ≤ c.epoch

variable {c c' : ResolveCache} {i : Nat} {o : Multiset Flight} {f : Flight}

theorem Due.of_same (h : c.Due i o) (hepoch : c'.epoch = c.epoch)
    (hstate : c'.state = .inProgress ↔ c.state = .inProgress) : c'.Due i o := by
  refine ⟨?_, fun f hf hi => hepoch ▸ h.newest f hf hi⟩
  simp only [hepoch, hstate]
  exact h.count

/-- Flights for other channels do not count. -/
theorem due_cons_of_ne (hf : f.lookup.channel ≠ i) : c.Due i (f ::ₘ o) ↔ c.Due i o := by
  have htag : ¬ f.tag = (i, c.epoch) := fun heq => hf (congrArg Prod.fst heq)
  constructor
  · intro h
    refine ⟨?_, fun f' hf' => h.newest f' (Multiset.mem_cons_of_mem hf')⟩
    rw [← h.count, Flight.countFor_cons, if_neg htag, Nat.add_zero]
  · intro h
    refine ⟨by rw [Flight.countFor_cons, if_neg htag, Nat.add_zero, h.count], fun f' hf' hi => ?_⟩
    rcases Multiset.mem_cons.1 hf' with rfl | hf'
    · exact absurd hi hf
    · exact h.newest f' hf' hi

theorem state_refresh (c : ResolveCache) (ttl : Duration) (now : Instant) :
    (c.refresh ttl now).state = .inProgress ↔ c.state = .inProgress := by
  simp only [refresh]
  split
  · rename_i hagain
    simp only [Bool.and_eq_true, Bool.or_eq_true, decide_eq_true_eq] at hagain
    rcases hagain with ⟨-, hfailed | ⟨hready, -⟩⟩
    · simp [hfailed]
    · simp [hready]
  · rfl

/-- A new host leaves everything that is outstanding behind. -/
theorem Due.setHost (h : c.Due i o) (e : Endpoint) : (c.setHost e).Due i o := by
  have hstate : (c.setHost e).state ≠ .inProgress := by
    unfold ResolveCache.setHost
    split <;> simp
  refine ⟨?_, fun f hf hi => ?_⟩
  · rw [if_neg hstate, Flight.countFor, Multiset.countP_eq_zero, epoch_setHost]
    intro f hf htag
    have hle := h.newest f hf (congrArg Prod.fst htag)
    have heq : f.lookup.epoch = c.epoch + 1 := congrArg Prod.snd htag
    omega
  · rw [epoch_setHost]
    exact Nat.le_succ_of_le (h.newest f hf hi)

theorem Due.begin (h : c.Due i o) (hdirty : c.state = .dirty) (hf : f.tag = (i, c.epoch)) :
    c.begin.Due i (f ::ₘ o) := by
  refine ⟨?_, fun f' hf' hi => ?_⟩
  · rw [epoch_begin, Flight.countFor_cons, if_pos hf, h.count, hdirty]
    rfl
  · rcases Multiset.mem_cons.1 hf' with rfl | hf'
    · exact Nat.le_of_eq (congrArg Prod.snd hf)
    · exact h.newest f' hf' hi

/-- A lookup that cannot be started is neither in progress nor outstanding. -/
theorem Due.unstarted (h : c.Due i o) (hdirty : c.state = .dirty) (error : IoError) (now : Instant) :
    (c.begin.complete c.begin.epoch (.error error) now).Due i o := by
  refine h.of_same (by simp) ?_
  simp [complete, accepts, ResolveCache.begin, hdirty]

/-- **An answer under the epoch ends the lookup in progress**; any other leaves the channel as it is. -/
theorem Due.complete (h : c.Due i (f ::ₘ o)) (hi : f.lookup.channel = i)
    (answer : Except IoError (List SocketAddress)) (time : Instant) :
    (c.complete f.lookup.epoch answer time).Due i o := by
  have hnewest : ∀ f' ∈ o, f'.lookup.channel = i → f'.lookup.epoch ≤ c.epoch := fun f' hf' =>
    h.newest f' (Multiset.mem_cons_of_mem hf')
  by_cases hepoch : f.lookup.epoch = c.epoch
  · have htag : f.tag = (i, c.epoch) := Prod.ext hi hepoch
    have hcount := h.count
    rw [Flight.countFor_cons, if_pos htag] at hcount
    have hstate : c.state = .inProgress := by
      by_contra hne
      rw [if_neg hne] at hcount
      omega
    rw [if_pos hstate] at hcount
    have hdone : (c.complete f.lookup.epoch answer time).state ≠ .inProgress := by
      simp only [ResolveCache.complete, accepts, hepoch, hstate, decide_true, Bool.and_self, if_true]
      split <;> simp
    refine ⟨?_, by simpa using hnewest⟩
    rw [if_neg hdone, epoch_complete]
    omega
  · have hsame : c.complete f.lookup.epoch answer time = c := by
      simp [ResolveCache.complete, accepts, hepoch]
    have htag : ¬ f.tag = (i, c.epoch) := fun heq => hepoch (congrArg Prod.snd heq)
    rw [hsame]
    exact ⟨by rw [← h.count, Flight.countFor_cons, if_neg htag, Nat.add_zero], hnewest⟩

end ResolveCache

/-! ## All channels -/

namespace Targets

/-- What is outstanding is just what the channels wait for. -/
def Due (v : Targets) (o : Multiset Flight) : Prop :=
  ∀ i e c, v.list[i]? = some (e, c) → ResolveCache.Due c i o

theorem Due.set {v : Targets} {o o' : Multiset Flight} (hv : v.Due o) {i : Nat} {e e' : Endpoint}
    {c c' : ResolveCache} (h : v.list[i]? = some (e, c)) (hself : c.Due i o → c'.Due i o')
    (hothers : ∀ (c : ResolveCache) j, j ≠ i → c.Due j o → c.Due j o') :
    (v.set i (e', c')).Due o' := by
  intro j e₁ c₁ hj
  by_cases hji : j = i
  · subst hji
    rw [getElem?_set h] at hj
    obtain ⟨-, rfl⟩ := Prod.mk.inj (Option.some.inj hj)
    exact hself (hv j e c h)
  · rw [list_set, List.getElem?_set_ne (Ne.symm hji)] at hj
    exact hothers c₁ j hji (hv j e₁ c₁ hj)

/-- **A move accounts for the lookup that it starts.** -/
theorem Move.due {v v' : Targets} (h : v.Move v') {o : Multiset Flight} (hv : v.Due o) (run : Nat) :
    ∃ more, v'.lookups = more ++ v.lookups ∧
      v'.Due (((more.map (Flight.mk run) : List Flight) : Multiset Flight) + o) := by
  have hnone : ∀ v' : Targets, v'.lookups = v.lookups → v'.Due o → ∃ more,
      v'.lookups = more ++ v.lookups ∧
        v'.Due (((more.map (Flight.mk run) : List Flight) : Multiset Flight) + o) := by
    intro v' hlookups hdue
    refine ⟨[], hlookups, ?_⟩
    rwa [List.map_nil, Multiset.coe_nil, Multiset.zero_add]
  cases h with
  | refresh h ttl now =>
    exact hnone _ rfl (hv.set h (fun hc => hc.of_same (by simp) (ResolveCache.state_refresh _ ttl now))
      fun _ _ _ hc => hc)
  | @begin i e c h hdirty resolver =>
    refine ⟨[⟨i, c.epoch, e.host, e.port, resolver⟩], rfl, ?_⟩
    rw [List.map_singleton, Multiset.coe_singleton, Multiset.singleton_add]
    exact hv.set h (fun hc => hc.begin hdirty rfl) fun c' j hj hc' =>
      (ResolveCache.due_cons_of_ne (f := ⟨run, _⟩) (Ne.symm hj)).2 hc'
  | unstarted h hdirty error now =>
    exact hnone _ rfl (hv.set h (fun hc => hc.unstarted hdirty error now) fun _ _ _ hc => hc)
  | setHost h host => exact hnone _ rfl (hv.set h (fun hc => hc.setHost _) fun _ _ _ hc => hc)
  | setPort h port =>
    exact hnone _ rfl (hv.set h (fun hc => hc.of_same rfl Iff.rfl) fun _ _ _ hc => hc)

theorem Moves.due {v v' : Targets} (h : v.Moves v') {o : Multiset Flight} (hv : v.Due o) (run : Nat) :
    ∃ more, v'.lookups = more ++ v.lookups ∧
      v'.Due (((more.map (Flight.mk run) : List Flight) : Multiset Flight) + o) := by
  induction h with
  | refl => exact ⟨[], rfl, by simpa using hv⟩
  | tail _ hmove ih =>
    obtain ⟨more, hlookups, hdue⟩ := ih
    obtain ⟨more', hlookups', hdue'⟩ := hmove.due hdue run
    refine ⟨more' ++ more, by rw [hlookups', hlookups, List.append_assoc], ?_⟩
    rwa [List.map_append, ← Multiset.coe_add, Multiset.add_assoc]

/-- No move forgets a lookup, or changes the order. -/
theorem Moves.suffix {v v' : Targets} (h : v.Moves v') : v.lookups <:+ v'.lookups := by
  induction h with
  | refl => exact List.suffix_refl _
  | tail _ hmove ih =>
    cases hmove with
    | begin => exact ih.trans (List.suffix_cons _ _)
    | _ => exact ih

/-- An answer that is taken in or discarded is not outstanding any more. -/
theorem Due.complete {v : Targets} {o : Multiset Flight} {f : Flight} (hv : v.Due (f ::ₘ o))
    {a : Resolution} (hf : f.tag = (a.channel, a.epoch)) : (v.complete a).Due o := by
  have hchannel : f.lookup.channel = a.channel := congrArg Prod.fst hf
  have hepoch : f.lookup.epoch = a.epoch := congrArg Prod.snd hf
  have hothers : ∀ (c : ResolveCache) j, j ≠ a.channel → c.Due j (f ::ₘ o) → c.Due j o :=
    fun c j hj => (ResolveCache.due_cons_of_ne fun heq => hj (heq.symm.trans hchannel)).1
  cases h : v.list[a.channel]? with
  | none =>
    rw [complete_of_none h]
    intro j e c hj
    refine hothers c j (fun heq => ?_) (hv j e c hj)
    rw [heq, h] at hj
    exact Option.some_ne_none _ hj.symm
  | some t =>
    rw [complete_of_some h]
    exact hv.set h (fun hc => hepoch ▸ hc.complete hchannel a.answer a.time) hothers

end Targets

/-! ## A run -/

namespace Lifetime

variable {σ : Type}

/-- The lookups that are outstanding: their resolvers run, or their answers wait in the queue. -/
def outstanding (x : Lifetime σ) : Multiset Flight :=
  (x.flights : Multiset Flight) - (x.answered : Multiset Flight) + (x.queued : Multiset Flight)

/-- Every answer is one of a lookup, and no lookup has two. -/
def Answers (x : Lifetime σ) : Prop := (x.answered : Multiset Flight) ≤ (x.flights : Multiset Flight)

/-- Lookups that are started are outstanding. -/
theorem outstanding_of_more {x : Lifetime σ} (hx : x.Answers) {r : Reactor σ} {more : List Lookup}
    (hmore : r.lookups = more ++ x.reactor.lookups) :
    outstanding { x with reactor := r } =
      ((more.map (Flight.mk x.run) : List Flight) : Multiset Flight) + x.outstanding := by
  have hflights : (flights { x with reactor := r }) = more.map (Flight.mk x.run) ++ x.flights := by
    simp [flights, hmore]
  rw [outstanding, hflights, ← Multiset.coe_add, Multiset.add_sub_assoc hx, Multiset.add_assoc]
  rfl

/-- An answer that is posted was outstanding, and is. -/
theorem outstanding_of_answer {x : Lifetime σ} {f : Flight}
    (hanswer : ((f :: x.answered : List Flight) : Multiset Flight) ≤ (x.flights : Multiset Flight))
    (s : Service) :
    outstanding { x.withService s with answered := f :: x.answered, queued := x.queued ++ [f] } =
      x.outstanding := by
  ext g
  have hle := Multiset.le_iff_count.1 hanswer g
  have hflights : flights { x.withService s with
      answered := f :: x.answered, queued := x.queued ++ [f] } = x.flights := rfl
  simp only [outstanding, hflights, Multiset.coe_count, Multiset.count_add, Multiset.count_sub,
    List.count_cons, List.count_append, List.count_nil] at hle ⊢
  omega

theorem lookups_refreshOptions (r : Reactor σ) : r.refreshOptions.lookups = r.lookups :=
  congrArg Targets.lookups (Reactor.targets_refreshOptions r)

/-- What the loop does keeps the answers in bounds if it forgets no lookup. -/
theorem Answers.of_suffix {x : Lifetime σ} (hx : x.Answers) {r : Reactor σ} {queued : List Flight}
    (h : x.reactor.lookups <:+ r.lookups) : Answers { x with reactor := r, queued := queued } := by
  have hflights : List.Sublist x.flights (flights { x with reactor := r, queued := queued }) :=
    (h.sublist.map _).append_right x.past
  exact le_trans hx (Multiset.coe_le.2 hflights.subperm)

/-- A flight that has an answer missing may have it. -/
theorem Answers.cons {x : Lifetime σ} (hx : x.Answers) {f : Flight}
    (hcount : x.answered.count f < x.flights.count f) :
    ((f :: x.answered : List Flight) : Multiset Flight) ≤ (x.flights : Multiset Flight) := by
  refine Multiset.le_iff_count.2 fun g => ?_
  have hle := Multiset.le_iff_count.1 hx g
  simp only [Multiset.coe_count, List.count_cons, beq_iff_eq] at hle ⊢
  split
  · rename_i hfg
    exact hfg ▸ hcount
  · exact hle

/-- An answer that is carried out was outstanding. -/
theorem outstanding_of_queued {x : Lifetime σ} {f : Flight} {queued : List Flight}
    (hqueued : x.queued = f :: queued) {r : Reactor σ} (hlookups : r.lookups = x.reactor.lookups) :
    x.outstanding = f ::ₘ outstanding { x with reactor := r, queued := queued } := by
  have hflights : flights { x with reactor := r, queued := queued } = x.flights := by
    simp [flights, hlookups]
  rw [outstanding, outstanding, hqueued, hflights, ← Multiset.cons_coe, Multiset.add_cons]

/-- The answer that is carried out next is that of the first lookup in the queue. -/
theorem Sound.head {x : Lifetime σ} (hx : x.Sound) {a : Resolution} {rest : List Command}
    (hc : x.service.commands = .resolved a :: rest) :
    ∃ f queued, x.queued = f :: queued ∧ f.tag = (a.channel, a.epoch) := by
  have htags := hx.tags
  simp only [Service.tags, hc, Command.tag?, List.filterMap_cons] at htags
  cases hqueued : x.queued with
  | nil => simp [hqueued] at htags
  | cons f queued =>
    rw [hqueued, List.map_cons] at htags
    exact ⟨f, queued, rfl, (List.cons.inj htags).1.symm⟩

/-- What the channels wait for is outstanding and of this run, and an open that waits has its lookup in
progress. -/
structure Accounted (x : Lifetime σ) : Prop where
  due : x.reactor.targets.Due x.outstanding
  own : ∀ f ∈ x.outstanding, f.run = x.run
  attended : ∀ i, x.reactor.Attends i

/-- What the loop does keeps the account if the targets follow it. -/
theorem Accounted.of_moves {x : Lifetime σ} (hanswers : x.Answers) (hx : x.Accounted) {r : Reactor σ}
    (hmoves : x.reactor.targets.Moves r.targets) (hattended : ∀ i, r.Attends i) :
    Accounted { x with reactor := r } := by
  obtain ⟨more, hmore, hdue⟩ := hmoves.due hx.due x.run
  rw [← outstanding_of_more hanswers hmore] at hdue
  refine ⟨hdue, fun f hf => ?_, hattended⟩
  rw [outstanding_of_more hanswers hmore] at hf
  rcases Multiset.mem_add.1 hf with hf | hf
  · obtain ⟨l, -, rfl⟩ := List.mem_map.1 (Multiset.mem_coe.1 hf)
    rfl
  · exact hx.own f hf

variable [Host σ]

theorem Step.answers {x y : Lifetime σ} (hstep : x.Step y) (hx : x.Answers) : y.Answers := by
  cases hstep with
  | request now q => exact hx
  | dispatch max => exact hx
  | world w => exact hx
  | answer hcount answer time => exact hx.cons hcount
  | refresh hrunning =>
    exact hx.of_suffix ⟨[], (lookups_refreshOptions x.reactor).symm⟩
  | act hrunning a => exact hx.of_suffix (Reactor.follows_act _ a).moves.suffix
  | @command c rest hrunning hc =>
    cases hrequest : c.isRequest with
    | true => exact hx.of_suffix (Reactor.follows_perform (x.reactor.withCommands rest) hrequest).moves.suffix
    | false =>
      cases c with
      | resolved a =>
        have hquiet := Reactor.quiet_resolved (x.reactor.withCommands rest) a
        exact hx.of_suffix (hquiet.lookups ▸ List.suffix_refl _)
      | _ => simp [Command.isRequest] at hrequest
  | stop hrunning hstopping =>
    obtain ⟨r, hquiet, hteardown⟩ := Reactor.quiet_teardown x.reactor
    rw [hteardown]
    exact hx.of_suffix (hquiet.lookups ▸ List.suffix_refl _)
  | start hrunning callback endpoints => exact hx

/-- No lookup has two answers, in all that a service can come to. -/
theorem Reachable.answers {x : Lifetime σ} (h : x.Reachable) : x.Answers :=
  h.invariant (fun _ _ => le_refl _) fun _ _ hstep hx => hstep.answers hx

/-- **A step of a running loop keeps the account.** -/
theorem Step.accounted {x y : Lifetime σ} (hstep : x.Step y) (hsound : x.Sound) (hanswers : x.Answers)
    (hrun : y.run = x.run) (hrunning : y.service.running)
    (hx : x.service.running → x.Accounted) : y.Accounted := by
  cases hstep with
  | request now q =>
    have hposts := Service.posts_perform x.service now q
    obtain ⟨hdue, hown, hattended⟩ := hx (hposts.running.symm.trans hrunning)
    exact ⟨hdue, hown, hattended⟩
  | dispatch max =>
    have hposts := Service.posts_dispatch max x.service x.reactor.world
    obtain ⟨hdue, hown, hattended⟩ := hx (hposts.running.symm.trans hrunning)
    exact ⟨hdue, hown, hattended⟩
  | world w =>
    obtain ⟨hdue, hown, hattended⟩ := hx hrunning
    exact ⟨hdue, hown, hattended⟩
  | @answer f hcount answer time =>
    obtain ⟨hdue, hown, hattended⟩ := hx hrunning
    have hsame := outstanding_of_answer (hanswers.cons hcount)
      (x.service.post (.resolved (f.resolution answer time)))
    exact ⟨hsame ▸ hdue, hsame ▸ hown, hattended⟩
  | refresh hbefore =>
    have hchannels : x.reactor.refreshOptions.channels = x.reactor.channels := by
      unfold Reactor.refreshOptions
      split <;> rfl
    refine (hx hbefore).of_moves hanswers ?_ fun i c hc => ?_
    · rw [Reactor.targets_refreshOptions]
    · rw [Reactor.channel?, hchannels] at hc
      exact (hx hbefore).attended i c hc
  | act hbefore a =>
    exact (hx hbefore).of_moves hanswers (Reactor.follows_act _ a).moves
      fun i => Reactor.attends_act a ((hx hbefore).attended i)
  | @command c rest hbefore hc =>
    obtain ⟨hdue, hown, hattended⟩ := hx hbefore
    have hattended' : ∀ i, ((x.reactor.withCommands rest).perform c).Attends i :=
      fun i => Reactor.attends_perform c (hattended i)
    cases hrequest : c.isRequest with
    | true =>
      have hfollows := Reactor.follows_perform (x.reactor.withCommands rest) hrequest
      exact (hx hbefore).of_moves hanswers hfollows.moves hattended'
    | false =>
      cases c with
      | resolved a =>
        obtain ⟨f, queued, hqueued, htag⟩ := hsound.head hc
        have hquiet := Reactor.quiet_resolved (x.reactor.withCommands rest) a
        have htargets : ((x.reactor.withCommands rest).resolved a).targets =
            x.reactor.targets.complete a := hquiet.targets_eq.trans (Reactor.targets_takeIn _ a)
        rw [outstanding_of_queued hqueued hquiet.lookups] at hdue hown
        rw [hqueued]
        refine ⟨?_, fun f' hf' => hown f' (Multiset.mem_cons_of_mem hf'), hattended'⟩
        simp only [Reactor.perform, htargets]
        exact hdue.complete htag
      | _ => simp [Command.isRequest] at hrequest
  | stop hbefore hstopping => exact absurd hrunning (by simp [Reactor.teardown, Reactor.unwatch, service])
  | start hbefore callback endpoints => exact absurd hrun (Nat.succ_ne_self _)

/-- The service as a run starts. -/
def started (x : Lifetime σ) (callback : Nat) (endpoints : List Endpoint) : Lifetime σ :=
  { x with
    reactor := .new (x.service.start callback endpoints.length) x.reactor.world endpoints
    run := x.run + 1
    past := x.flights }

omit [Host σ] in
/-- A run that nothing is left over to begins with the account made up. -/
theorem accounted_started {x : Lifetime σ} (hnone : x.outstanding = 0) (callback : Nat)
    (endpoints : List Endpoint) : (x.started callback endpoints).Accounted := by
  have hempty : (x.started callback endpoints).outstanding = 0 := hnone
  refine ⟨fun i e cache htarget => ?_, fun f hf => ?_, fun i c hc hpending => ?_⟩
  · rw [hempty]
    obtain ⟨c, hc, heq⟩ := Option.map_eq_some_iff.1 (List.getElem?_map.symm.trans htarget)
    obtain ⟨e', rfl⟩ := Reactor.exists_endpoint_of_new hc
    obtain ⟨-, rfl⟩ := Prod.mk.inj heq
    have hstate : (Channel.ofEndpoint e').cache.state ≠ .inProgress := by
      unfold Channel.ofEndpoint ResolveCache.ofEndpoint ResolveCache.setHost
      split <;> simp
    exact ⟨by rw [if_neg hstate]; rfl, fun f hf => absurd hf (Multiset.notMem_zero f)⟩
  · rw [hempty] at hf
    exact absurd hf (Multiset.notMem_zero f)
  · obtain ⟨e, rfl⟩ := Reactor.exists_endpoint_of_new hc
    cases hpending

theorem Step.run_le {x y : Lifetime σ} (h : x.Step y) : x.run ≤ y.run := by
  cases h with
  | start => exact Nat.le_succ _
  | _ => exact Nat.le_refl _

/-- While a run that nothing was left over to goes on, the account is kept. -/
theorem accounted_of_steps {x y : Lifetime σ} (hx : x.Reachable) (hstopped : x.service.running = false)
    (hnone : x.outstanding = 0) {callback : Nat} {endpoints : List Endpoint}
    (hsteps : (x.started callback endpoints).Steps y) : y.Reachable ∧ x.run + 1 ≤ y.run ∧
      (y.run = x.run + 1 → y.service.running → y.Accounted) := by
  induction hsteps with
  | refl =>
    exact ⟨hx.step (.start hstopped callback endpoints), Nat.le_refl _,
      fun _ _ => accounted_started hnone callback endpoints⟩
  | tail _ hstep ih =>
    obtain ⟨hreachable, hle, haccounted⟩ := ih
    refine ⟨hreachable.step hstep, Nat.le_trans hle hstep.run_le, fun hrun hrunning => ?_⟩
    have hsame := Nat.le_antisymm (Nat.le_trans hstep.run_le (Nat.le_of_eq hrun)) hle
    exact hstep.accounted hreachable.sound hreachable.answers (hrun.trans hsame.symm) hrunning
      (haccounted hsame)

/-! ## What a channel has to expect -/

/-- What is outstanding for channel `i`: under its epoch one answer if its lookup is in progress, for its
host, and else none; under a later epoch none. An open that waits has one answer to come that it will take
in. An answer that was begun under another epoch, or for another host, changes nothing. -/
structure Awaited (x : Lifetime σ) (i : Nat) (c : Channel) : Prop where
  count : x.outstanding.countP (·.tag = (i, c.cache.epoch)) =
    if c.cache.state = .inProgress then 1 else 0
  newest : ∀ f ∈ x.outstanding, f.lookup.channel = i → f.lookup.epoch ≤ c.cache.epoch
  host : ∀ f ∈ x.outstanding, f.tag = (i, c.cache.epoch) → f.lookup.host = c.endpoint.host
  waiting : c.pendingOpen = true →
    x.outstanding.countP (fun f => f.lookup.channel = i ∧ c.cache.accepts f.lookup.epoch = true) = 1
  discarded : ∀ a rest f queued, x.service.commands = .resolved a :: rest → x.queued = f :: queued →
    f.lookup.channel = i → f.lookup.epoch ≠ c.cache.epoch ∨ f.lookup.host ≠ c.endpoint.host →
      (x.reactor.withCommands rest).perform (.resolved a) = x.reactor.withCommands rest

omit [Host σ] in
/-- An outstanding lookup of this run was started for its channel, under the current epoch for the current
host. -/
theorem Accounted.host {x : Lifetime σ} (hx : x.Accounted) (hsound : x.Sound) {i : Nat} {c : Channel}
    (hc : x.reactor.channel? i = some c) {f : Flight} (hf : f ∈ x.outstanding)
    (htag : f.tag = (i, c.cache.epoch)) : f.lookup.host = c.endpoint.host := by
  have hflight : f ∈ x.flights := by
    rcases Multiset.mem_add.1 hf with hf | hf
    · exact Multiset.mem_coe.1 (Multiset.mem_of_le (Multiset.sub_le_self _ _) hf)
    · exact hsound.queued f (Multiset.mem_coe.1 hf)
  rcases List.mem_append.1 hflight with hflight | hpast
  · obtain ⟨l, hl, rfl⟩ := List.mem_map.1 hflight
    obtain ⟨e, cache, htarget, -, hhost⟩ := hsound.traced l hl
    have hi : l.channel = i := congrArg Prod.fst htag
    rw [hi, Reactor.getElem?_targets hc] at htarget
    obtain ⟨rfl, rfl⟩ : c.endpoint = e ∧ c.cache = cache := by simpa using htarget
    exact hhost (congrArg Prod.snd htag)
  · exact absurd (hx.own f hf) (Nat.ne_of_lt (hsound.past f hpast))

/-- An answer that was begun under an earlier epoch is discarded. -/
theorem perform_resolved_of_not_accepts {r : Reactor σ} {a : Resolution} {c : Channel}
    (hc : r.channel? a.channel = some c) (h : a.epoch ≠ c.cache.epoch) : r.perform (.resolved a) = r := by
  have haccepts : c.cache.accepts a.epoch = false := by simp [ResolveCache.accepts, h]
  simp [Reactor.perform, Reactor.resolved, hc, haccepts]

theorem Accounted.awaited {x : Lifetime σ} (hx : x.Accounted) (hsound : x.Sound) {i : Nat} {c : Channel}
    (hc : x.reactor.channel? i = some c) : x.Awaited i c := by
  obtain ⟨hcount, hnewest⟩ := hx.due i _ _ (Reactor.getElem?_targets hc)
  refine ⟨hcount, hnewest, fun f => hx.host hsound hc, fun hpending => ?_, ?_⟩
  · have hstate := hx.attended i c hc hpending
    have haccepts : ∀ f : Flight, (f.lookup.channel = i ∧ c.cache.accepts f.lookup.epoch = true) ↔
        f.tag = (i, c.cache.epoch) := by
      intro f
      simp [ResolveCache.accepts, hstate, Flight.tag]
    simp only [haccepts]
    exact hcount.trans (if_pos hstate)
  · intro a rest f queued hcommands hqueued hi hother
    obtain ⟨f', queued', hhead, htag⟩ := hsound.head hcommands
    obtain rfl : f' = f := (List.cons.inj (hhead.symm.trans hqueued)).1
    have hchannel : a.channel = i := (congrArg Prod.fst htag).symm.trans hi
    have hepoch : f'.lookup.epoch = a.epoch := congrArg Prod.snd htag
    refine perform_resolved_of_not_accepts (c := c) (hchannel ▸ hc) fun heq => ?_
    have hcurrent : f'.tag = (i, c.cache.epoch) := Prod.ext hi (hepoch.trans heq)
    have hmem : f' ∈ x.outstanding := by
      refine Multiset.mem_add.2 (.inr (Multiset.mem_coe.2 ?_))
      rw [hqueued]
      exact List.mem_cons_self
    rcases hother with hother | hother
    · exact hother (congrArg Prod.snd hcurrent)
    · exact hother (hx.host hsound hc hmem hcurrent)

/-- **In a run that starts with no lookup outstanding, between any two handlers, every channel has the
answers to expect that it waits for**, whatever is opened, closed, retargeted and answered meanwhile. -/
theorem awaited_of_run {x y : Lifetime σ} (hx : x.Reachable) (hstopped : x.service.running = false)
    (hnone : x.outstanding = 0) {callback : Nat} {endpoints : List Endpoint}
    (hsteps : (x.started callback endpoints).Steps y) (hrun : y.run = x.run + 1)
    (hrunning : y.service.running) {i : Nat} {c : Channel} (hc : y.reactor.channel? i = some c) :
    y.Awaited i c := by
  obtain ⟨hreachable, -, haccounted⟩ := accounted_of_steps hx hstopped hnone hsteps
  exact (haccounted hrun hrunning).awaited hreachable.sound hc

open Simulation

/-- A channel is retargeted while its first lookup is under way, which is answered then: the open waits for
the second. -/
theorem awaited_of_retarget : ∃ (x y : Lifetime Isolated) (c : Channel), x.Reachable ∧
    x.service.running = false ∧ x.outstanding = 0 ∧ (x.started 0 [⟨"old", 1⟩]).Steps y ∧
    y.run = x.run + 1 ∧ y.service.running = true ∧ y.reactor.channel? 0 = some c ∧
    c.pendingOpen = true ∧ y.queued = [⟨1, ⟨0, 1, "old", 1, none⟩⟩] ∧ y.Awaited 0 c := by
  have hnew : (new (σ := Isolated) Options.standard .new).Reachable := ⟨_, _, .refl⟩
  have hasked := Relation.ReflTransGen.single (Step.request
    (x := (new Options.standard Isolated.new).started 0 [⟨"old", 1⟩]) ⟨0⟩ (.openChannel 0 .tcpServer))
  have hopening := hasked.tail (.command (by rfl) (by rfl))
  have hset := hopening.tail (.request ⟨0⟩ (.setOption (.remoteHost 0 "new")))
  have hretargeted := hset.tail (.command (by rfl) (by rfl))
  have hanswered := hretargeted.tail (.answer (f := ⟨1, ⟨0, 1, "old", 1, none⟩⟩) (by decide)
    (.ok [⟨.v4 10 0 0 1, 1, 0⟩]) ⟨0⟩)
  refine ⟨_, _, _, hnew, by rfl, by rfl, hanswered, by rfl, by rfl, by rfl, by rfl, by rfl, ?_⟩
  exact awaited_of_run hnew (by rfl) (by rfl) hanswered (by rfl) (by rfl) (by rfl)

end Lifetime

end NetReactor
