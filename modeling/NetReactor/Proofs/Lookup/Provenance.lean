import NetReactor.Proofs.Reactor.Lifetime
import NetReactor.Simulation.Isolated

/-!
# Whose answers a channel takes in

An answer is known by a channel's index and an epoch. Within one run that tells its host: every change of
host advances the epoch, so an answer under the current one was looked up for the current host. **Across
runs it does not**: channels and epochs begin anew with each start, the command queue does not, and a
resolver that outlived its run posts an answer whose index and epoch may be those of another channel's
lookup. An answer is taken in for the right host exactly if its lookup was started in the same run.
-/

namespace NetReactor

/-! ## Epochs -/

namespace ResolveCache

@[simp] theorem epoch_begin (c : ResolveCache) : c.begin.epoch = c.epoch := rfl

@[simp] theorem epoch_setPort (c : ResolveCache) (port : UInt16) : (c.setPort port).epoch = c.epoch :=
  rfl

@[simp] theorem epoch_refresh (c : ResolveCache) (ttl : Duration) (now : Instant) :
    (c.refresh ttl now).epoch = c.epoch := by
  simp only [refresh]
  split <;> rfl

@[simp] theorem epoch_complete (c : ResolveCache) (epoch : Nat)
    (answer : Except IoError (List SocketAddress)) (time : Instant) :
    (c.complete epoch answer time).epoch = c.epoch := by
  simp only [complete]
  split
  · split <;> rfl
  · rfl

@[simp] theorem epoch_setHost (c : ResolveCache) (e : Endpoint) :
    (c.setHost e).epoch = c.epoch + 1 := by
  unfold setHost
  generalize e.numeric? = numeric
  cases numeric <;> rfl

end ResolveCache

namespace Targets

/-- Every lookup is one for a channel that is there, under its epoch or an earlier one, and under the
current epoch for the current host. -/
def Traced (v : Targets) : Prop :=
  ∀ l ∈ v.lookups, ∃ e c, v.list[l.channel]? = some (e, c) ∧ l.epoch ≤ c.epoch ∧
    (l.epoch = c.epoch → l.host = e.host)

/-- A target may be replaced by one of a later epoch, or by one of the same epoch and host. -/
theorem Traced.set {v : Targets} (hv : v.Traced) {i : Nat} {e e' : Endpoint} {c c' : ResolveCache}
    (h : v.list[i]? = some (e, c)) (hepoch : c.epoch ≤ c'.epoch)
    (hhost : c.epoch = c'.epoch → e.host = e'.host) : (v.set i (e', c')).Traced := by
  intro l hl
  obtain ⟨e₀, c₀, hc₀, hle, hsame⟩ := hv l hl
  by_cases hi : i = l.channel
  · subst hi
    obtain ⟨rfl, rfl⟩ : e = e₀ ∧ c = c₀ := by simpa using h.symm.trans hc₀
    refine ⟨e', c', getElem?_set h _, Nat.le_trans hle hepoch, fun heq => ?_⟩
    exact (hsame (by omega)).trans (hhost (by omega))
  · exact ⟨e₀, c₀, by simpa [List.getElem?_set_ne hi] using hc₀, hle, hsame⟩

/-- **Every move keeps the lookups traced.** -/
theorem Move.traced {v v' : Targets} (h : v.Move v') (hv : v.Traced) : v'.Traced := by
  cases h with
  | refresh h ttl now => exact hv.set h (by simp) fun _ => rfl
  | @begin i e c h hdirty resolver =>
    have hset : (v.set i (e, c.begin)).Traced := hv.set h (by simp) fun _ => rfl
    intro l hl
    rcases List.mem_cons.1 hl with rfl | hl
    · exact ⟨e, c.begin, getElem?_set h _, Nat.le_refl _, fun _ => rfl⟩
    · exact hset l hl
  | unstarted h hdirty error now => exact hv.set h (by simp) fun _ => rfl
  | setHost h host => exact hv.set h (by simp) fun heq => by simp at heq
  | setPort h port => exact hv.set h (by simp) fun _ => rfl

theorem Moves.traced {v v' : Targets} (h : v.Moves v') (hv : v.Traced) : v'.Traced := by
  induction h with
  | refl => exact hv
  | tail _ hmove ih => exact hmove.traced ih

theorem Traced.complete {v : Targets} (hv : v.Traced) (a : Resolution) : (v.complete a).Traced := by
  cases h : v.list[a.channel]? with
  | none => rwa [complete_of_none h]
  | some t =>
    rw [complete_of_some h]
    exact hv.set h (by simp) fun _ => rfl

/-- No move forgets a lookup. -/
theorem Moves.lookups_subset {v v' : Targets} (h : v.Moves v') : v.lookups ⊆ v'.lookups := by
  induction h with
  | refl => exact List.Subset.refl _
  | tail _ hmove ih =>
    cases hmove with
    | begin => exact fun l hl => List.mem_cons_of_mem _ (ih hl)
    | _ => exact ih

end Targets

/-! ## Answers in the queue -/

/-- The channel and the epoch that an answer is for. -/
def Command.tag? : Command → Option (Nat × Nat)
  | .resolved a => some (a.channel, a.epoch)
  | _ => none

def Flight.tag (f : Flight) : Nat × Nat := (f.lookup.channel, f.lookup.epoch)

theorem tag?_of_isRequest {c : Command} (h : c.isRequest) : c.tag? = none := by
  cases c with
  | resolved a => simp [Command.isRequest] at h
  | _ => rfl

/-- The tags of the answers that wait, in order. -/
def Service.tags (s : Service) : List (Nat × Nat) := s.commands.filterMap Command.tag?

theorem Service.Posts.tags_eq {s s' : Service} (h : s.Posts s') : s'.tags = s.tags := by
  obtain ⟨more, hmore, hrequest⟩ := h.commands
  have hnone : more.filterMap Command.tag? = [] :=
    List.filterMap_eq_nil_iff.2 fun c hc => tag?_of_isRequest (hrequest c hc)
  rw [tags, hmore, List.filterMap_append, hnone, List.append_nil, tags]

/-- A start keeps what is in the queue. -/
theorem Service.tags_start (s : Service) (callback channels : Nat) :
    (s.start callback channels).tags = s.tags := by
  unfold start
  split <;> rfl

namespace Lifetime

variable {σ : Type}

/-- Lookups are traced, and every answer in the queue is that of a lookup. -/
structure Sound (x : Lifetime σ) : Prop where
  traced : x.reactor.targets.Traced
  past : ∀ f ∈ x.past, f.run < x.run
  queued : ∀ f ∈ x.queued, f ∈ x.flights
  tags : x.service.tags = x.queued.map Flight.tag

theorem sound_new (o : Options) (w : σ) : (new o w).Sound where
  traced := by
    intro l hl
    cases hl
  past := by
    intro f hf
    cases hf
  queued := by
    intro f hf
    cases hf
  tags := rfl

/-- What the loop does keeps the lifetime sound if the targets follow it. -/
theorem Sound.of_moves {x : Lifetime σ} (h : x.Sound) {r : Reactor σ} {v : Targets}
    {queued : List Flight} (hv : v.Traced) (hlookups : v.lookups = x.reactor.lookups)
    (hmoves : v.Moves r.targets) (hqueued : ∀ f ∈ queued, f ∈ x.queued)
    (htags : r.service.tags = queued.map Flight.tag) :
    Sound { x with reactor := r, queued := queued } := by
  refine ⟨hmoves.traced hv, h.past, ?_, htags⟩
  intro f hf
  have hsubset : x.reactor.lookups ⊆ r.lookups := by
    rw [← hlookups]
    exact hmoves.lookups_subset
  rcases List.mem_append.1 (h.queued f (hqueued f hf)) with hlookup | hpast
  · obtain ⟨l, hl, rfl⟩ := List.mem_map.1 hlookup
    exact List.mem_append_left _ (List.mem_map_of_mem (hsubset hl))
  · exact List.mem_append_right _ hpast

theorem Sound.of_follows {x : Lifetime σ} (h : x.Sound) {r : Reactor σ}
    (hfollows : x.reactor.Follows r) : Sound { x with reactor := r } :=
  h.of_moves h.traced rfl hfollows.moves (fun _ hf => hf) (hfollows.posts.tags_eq.trans h.tags)

variable [Host σ]

/-- **A command that is carried out takes the lookup of an answer off with it.** -/
theorem Sound.command {x : Lifetime σ} (h : x.Sound) {c : Command} {rest : List Command}
    (hc : x.service.commands = c :: rest) :
    Sound { x with
      reactor := (x.reactor.withCommands rest).perform c
      queued := if c.isRequest then x.queued else x.queued.tail } := by
  have htags := h.tags
  simp only [Service.tags, hc] at htags
  cases hrequest : c.isRequest with
  | true =>
    have hfollows := Reactor.follows_perform (x.reactor.withCommands rest) hrequest
    rw [List.filterMap_cons_none (tag?_of_isRequest hrequest)] at htags
    exact h.of_moves h.traced rfl hfollows.moves (fun _ hf => hf) (hfollows.posts.tags_eq.trans htags)
  | false =>
    cases c with
    | resolved a =>
      have hresolved := Reactor.quiet_resolved (x.reactor.withCommands rest) a
      have hmoves : ((x.reactor.withCommands rest).targets.complete a).Moves
          ((x.reactor.withCommands rest).resolved a).targets := by
        rw [hresolved.targets_eq, Reactor.targets_takeIn]
      refine h.of_moves (h.traced.complete a) rfl hmoves (fun f hf => List.mem_of_mem_tail hf)
        (hresolved.posts.tags_eq.trans ?_)
      rw [if_neg Bool.false_ne_true, List.map_tail, ← htags]
      rfl
    | _ => simp [Command.isRequest] at hrequest

/-- **Every step keeps the lifetime sound.** -/
theorem Step.sound {x y : Lifetime σ} (hstep : x.Step y) (h : x.Sound) : y.Sound := by
  cases hstep with
  | request now q =>
    exact h.of_follows (Reactor.quiet_service _ (Service.serves_perform _ now q)).follows
  | dispatch max =>
    have hposts := Service.posts_dispatch max x.service x.reactor.world
    exact h.of_moves h.traced rfl .refl (fun _ hf => hf) (hposts.tags_eq.trans h.tags)
  | world w => exact h.of_follows (Reactor.quiet_world _ w).follows
  | @answer f hcount answer time =>
    refine ⟨h.traced, h.past, ?_, ?_⟩
    · intro f' hf'
      rcases List.mem_append.1 hf' with hf' | hf'
      · exact h.queued f' hf'
      · obtain rfl := List.mem_singleton.1 hf'
        exact List.count_pos_iff.1 (Nat.zero_lt_of_lt hcount)
    · have htags := h.tags
      rw [Service.tags] at htags
      simp only [withService, service, Service.tags, Service.post, Service.wake,
        List.filterMap_append, List.map_append] at htags ⊢
      rw [htags]
      rfl
  | refresh hrunning =>
    refine h.of_moves h.traced rfl (by rw [Reactor.targets_refreshOptions]) (fun _ hf => hf) ?_
    rw [Reactor.service_refreshOptions]
    exact h.tags
  | act hrunning a => exact h.of_follows (Reactor.follows_act _ a)
  | @command c rest hrunning hc => exact h.command hc
  | stop hrunning hstopping =>
    obtain ⟨r, hquiet, hteardown⟩ := Reactor.quiet_teardown x.reactor
    rw [hteardown]
    exact h.of_moves h.traced rfl hquiet.follows.moves (by simp) rfl
  | start hrunning callback endpoints =>
    refine ⟨?_, ?_, h.queued, ?_⟩
    · intro l hl
      cases hl
    · intro f hf
      rcases List.mem_append.1 hf with hlookup | hpast
      · obtain ⟨l, -, rfl⟩ := List.mem_map.1 hlookup
        exact Nat.lt_succ_self _
      · exact Nat.lt_succ_of_lt (h.past f hpast)
    · exact (Service.tags_start _ callback _).trans h.tags

theorem Reachable.sound {x : Lifetime σ} (h : x.Reachable) : x.Sound :=
  h.invariant sound_new fun _ _ hstep hx => hstep.sound hx

/-! ## Installed answers -/

/-- The next command is the answer of `f`, and channel `i` is going to take its addresses in. -/
def Installs (x : Lifetime σ) (f : Flight) (i : Nat) (addresses : List SocketAddress) : Prop :=
  x.service.running ∧ addresses ≠ [] ∧ ∃ a rest queued c,
    x.service.commands = .resolved a :: rest ∧ x.queued = f :: queued ∧ a.channel = i ∧
      a.answer = .ok addresses ∧ x.reactor.channel? i = some c ∧ c.cache.accepts a.epoch

/-- A lookup was started in this run, for channel `i` and the host that it has now. -/
def Wanted (x : Lifetime σ) (f : Flight) (i : Nat) : Prop :=
  f.run = x.run ∧ f.lookup.channel = i ∧
    ∃ c, x.reactor.channel? i = some c ∧ f.lookup.host = c.endpoint.host

/-- What is installed is there after the step. -/
theorem Installs.installed {x : Lifetime σ} {f : Flight} {i : Nat} {addresses : List SocketAddress}
    (h : x.Installs f i addresses) : ∃ y e c, x.Step y ∧ y.reactor.targets.list[i]? = some (e, c) ∧
      c.state = .ready ∧ c.addresses = addresses := by
  obtain ⟨hrunning, hne, a, rest, queued, c, hc, -, rfl, hanswer, hchannel, haccepts⟩ := h
  obtain ⟨first, more, rfl⟩ := List.exists_cons_of_ne_nil hne
  have htarget := Reactor.getElem?_targets (r := x.reactor.withCommands rest) hchannel
  refine ⟨_, c.endpoint, c.cache.complete a.epoch a.answer a.time, .command hrunning hc, ?_, ?_⟩
  · show ((x.reactor.withCommands rest).resolved a).targets.list[a.channel]? = _
    rw [(Reactor.quiet_resolved _ a).targets_eq, Reactor.targets_takeIn,
      Targets.complete_of_some htarget]
    exact Targets.getElem?_set htarget _
  · simp [ResolveCache.complete, haccepts, hanswer]

/-- **An answer that is taken in is one for the channel's current host exactly if its lookup was
started in this run.** -/
theorem wanted_iff_of_this_run {x : Lifetime σ} {f : Flight} {i : Nat}
    {addresses : List SocketAddress} (h : x.Reachable) (hinstalls : x.Installs f i addresses) :
    x.Wanted f i ↔ f.run = x.run := by
  constructor
  · exact fun hwanted => hwanted.1
  · intro hrun
    have hsound := h.sound
    obtain ⟨-, -, a, rest, queued, c, hc, hqueued, rfl, -, hchannel, haccepts⟩ := hinstalls
    have htag : (a.channel, a.epoch) = f.tag := by
      have htags := hsound.tags
      simp only [Service.tags, hc, hqueued, Command.tag?, List.filterMap_cons, List.map_cons] at htags
      exact (List.cons.inj htags).1
    obtain ⟨hindex, hepoch⟩ : a.channel = f.lookup.channel ∧ a.epoch = f.lookup.epoch := by
      simpa [Flight.tag] using htag
    have hlookup : f.lookup ∈ x.reactor.lookups := by
      rcases List.mem_append.1 (hsound.queued f (by simp [hqueued])) with hf | hf
      · obtain ⟨l, hl, rfl⟩ := List.mem_map.1 hf
        exact hl
      · exact absurd (hsound.past f hf) (by omega)
    obtain ⟨e, cache, htarget, -, hhost⟩ := hsound.traced f.lookup hlookup
    have hcurrent := Reactor.getElem?_targets hchannel
    rw [hindex, htarget] at hcurrent
    obtain ⟨rfl, rfl⟩ : e = c.endpoint ∧ cache = c.cache := by simpa using hcurrent
    have haccepted : a.epoch = c.cache.epoch := by
      simp only [ResolveCache.accepts, Bool.and_eq_true, decide_eq_true_eq] at haccepts
      exact haccepts.1
    exact ⟨hrun, hindex.symm, c, hchannel, hhost (hepoch.symm.trans haccepted)⟩

open Simulation

/-- Channel 0 of a loop for one name, when its first lookup is under way. -/
def lookedUp (host : String) (port : UInt16) : Channel :=
  { Channel.ofEndpoint ⟨host, port⟩ with
    mask := .tcpServer
    cache := ⟨.inProgress, [], none, true, 1⟩
    state := .opening
    pendingOpen := true }

/-- A first lookup, answered in its run. -/
theorem wanted_of_first_lookup : ∃ (x : Lifetime Isolated) (f : Flight),
    x.Reachable ∧ x.Installs f 0 [⟨.v4 10 0 0 1, 1, 0⟩] ∧ x.Wanted f 0 := by
  have hnew : (new (σ := Isolated) Options.standard .new).Reachable := ⟨_, _, .refl⟩
  have hstart := hnew.step (.start rfl 0 [⟨"old", 1⟩])
  have hasked := hstart.step (.request ⟨0⟩ (.openChannel 0 .tcpServer))
  have hopening := hasked.step (.command (by rfl) (by rfl))
  have hanswered := hopening.step (.answer (f := ⟨1, ⟨0, 1, "old", 1, none⟩⟩) (by decide)
    (.ok [⟨.v4 10 0 0 1, 1, 0⟩]) ⟨0⟩)
  refine ⟨_, ⟨1, ⟨0, 1, "old", 1, none⟩⟩, hanswered, ?_⟩
  refine (fun hinstalls => ⟨hinstalls, (wanted_iff_of_this_run hanswered hinstalls).2 (by rfl)⟩) ?_
  refine ⟨by rfl, by simp, ⟨0, 1, .ok [⟨.v4 10 0 0 1, 1, 0⟩], ⟨0⟩⟩, [], [], lookedUp "old" 1, ?_⟩
  exact ⟨by rfl, by rfl, by rfl, by rfl, by rfl, by decide⟩

/-! ## A leftover -/

/-- A host is looked up, the service is stopped and started with another, which is looked up too: both
lookups are for channel 0 under epoch 1, and the answer to the first comes now. -/
theorem installs_leftover : ∃ x : Lifetime Isolated, x.Reachable ∧ x.run = 2 ∧
    x.Installs ⟨1, ⟨0, 1, "old", 1, none⟩⟩ 0 [⟨.v4 10 0 0 1, 1, 0⟩] := by
  have hnew : (new (σ := Isolated) Options.standard .new).Reachable := ⟨_, _, .refl⟩
  have hstart := hnew.step (.start rfl 0 [⟨"old", 1⟩])
  have hasked := hstart.step (.request ⟨0⟩ (.openChannel 0 .tcpServer))
  have hopening := hasked.step (.command (by rfl) (by rfl))
  have hstopping := hopening.step (.request ⟨0⟩ .stop)
  have hstopped := hstopping.step (.stop (by rfl) (by rfl))
  have hagain := hstopped.step (.start (by rfl) 0 [⟨"new", 2⟩])
  have hasked' := hagain.step (.request ⟨0⟩ (.openChannel 0 .tcpServer))
  have hopening' := hasked'.step (.command (by rfl) (by rfl))
  have hanswered := hopening'.step (.answer (f := ⟨1, ⟨0, 1, "old", 1, none⟩⟩) (by decide)
    (.ok [⟨.v4 10 0 0 1, 1, 0⟩]) ⟨0⟩)
  refine ⟨_, hanswered, by rfl, by rfl, by simp, ⟨0, 1, .ok [⟨.v4 10 0 0 1, 1, 0⟩], ⟨0⟩⟩, [], [],
    lookedUp "new" 2, ?_⟩
  exact ⟨by rfl, by rfl, by rfl, by rfl, by rfl, by decide⟩

/-- **Not every answer that is taken in was looked up in the same run for the channel's host.** -/
theorem not_wanted_of_leftover : ¬ ∀ (σ : Type) [Host σ] (x : Lifetime σ) (f : Flight) (i : Nat)
    (addresses : List SocketAddress), x.Reachable → x.Installs f i addresses → x.Wanted f i := by
  intro h
  obtain ⟨x, hreachable, hrun, hinstalls⟩ := installs_leftover
  have hsame := (h Isolated x _ 0 _ hreachable hinstalls).1
  rw [hrun] at hsame
  exact absurd hsame (by decide)

end Lifetime

end NetReactor
