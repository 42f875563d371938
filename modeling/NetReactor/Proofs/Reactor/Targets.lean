import Mathlib.Logic.Relation
import NetReactor.Proofs.Reactor.Quiet

/-!
# How targets change

All that the loop ever does to the channels' targets, an answer that is taken in apart (`takeIn`), is
made of five moves: addresses go stale, a lookup is started or cannot be, and the host or the port is
set. **Whatever a handler does, the targets follow it by such moves** (`Follows`), so that what every
move keeps, every handler keeps. A lookup is only started for a name whose addresses are not known.
-/

namespace NetReactor

/-- The channels' targets, and the lookups that were started for them. -/
structure Targets where
  list : List (Endpoint × ResolveCache)
  lookups : List Lookup

namespace Targets

/-- One target is replaced. -/
def set (v : Targets) (i : Nat) (target : Endpoint × ResolveCache) : Targets :=
  { v with list := v.list.set i target }

/-- One change of one target. -/
inductive Move : Targets → Targets → Prop
  | refresh {v : Targets} {i : Nat} {e : Endpoint} {c : ResolveCache}
      (h : v.list[i]? = some (e, c)) (ttl : Duration) (now : Instant) :
      Move v (v.set i (e, c.refresh ttl now))
  | begin {v : Targets} {i : Nat} {e : Endpoint} {c : ResolveCache}
      (h : v.list[i]? = some (e, c)) (hdirty : c.state = .dirty) (resolver : Option ResolverId) :
      Move v { v.set i (e, c.begin) with
        lookups := ⟨i, c.epoch, e.host, e.port, resolver⟩ :: v.lookups }
  | unstarted {v : Targets} {i : Nat} {e : Endpoint} {c : ResolveCache}
      (h : v.list[i]? = some (e, c)) (hdirty : c.state = .dirty) (error : IoError) (now : Instant) :
      Move v (v.set i (e, c.begin.complete c.begin.epoch (.error error) now))
  | setHost {v : Targets} {i : Nat} {e : Endpoint} {c : ResolveCache}
      (h : v.list[i]? = some (e, c)) (host : String) :
      Move v (v.set i (⟨host, e.port⟩, c.setHost ⟨host, e.port⟩))
  | setPort {v : Targets} {i : Nat} {e : Endpoint} {c : ResolveCache}
      (h : v.list[i]? = some (e, c)) (port : UInt16) :
      Move v (v.set i (⟨e.host, port⟩, c.setPort port))

/-- Any number of moves. -/
abbrev Moves : Targets → Targets → Prop := Relation.ReflTransGen Move

/-- An answer is taken in, or discarded. -/
def complete (v : Targets) (a : Resolution) : Targets :=
  { v with list := v.list.modify a.channel fun t => (t.1, t.2.complete a.epoch a.answer a.time) }

@[simp] theorem list_set (v : Targets) (i : Nat) (target : Endpoint × ResolveCache) :
    (v.set i target).list = v.list.set i target := rfl

theorem set_self {v : Targets} {i : Nat} {target : Endpoint × ResolveCache}
    (h : v.list[i]? = some target) : v.set i target = v := by
  obtain ⟨hi, rfl⟩ := List.getElem?_eq_some_iff.1 h
  simp [set]

theorem getElem?_set {v : Targets} {i : Nat} {target : Endpoint × ResolveCache}
    (h : v.list[i]? = some target) (target' : Endpoint × ResolveCache) :
    (v.set i target').list[i]? = some target' := by
  obtain ⟨hi, -⟩ := List.getElem?_eq_some_iff.1 h
  simp [set, hi]

theorem set_set (v : Targets) (i : Nat) (target target' : Endpoint × ResolveCache) :
    (v.set i target).set i target' = v.set i target' := by
  simp [set]

theorem complete_of_none {v : Targets} {a : Resolution} (h : v.list[a.channel]? = none) :
    v.complete a = v := by
  rw [complete, List.modify_eq_self (List.getElem?_eq_none_iff.1 h)]

theorem complete_of_some {v : Targets} {a : Resolution} {e : Endpoint} {c : ResolveCache}
    (h : v.list[a.channel]? = some (e, c)) :
    v.complete a = v.set a.channel (e, c.complete a.epoch a.answer a.time) := by
  simp only [complete, set, List.modify_eq_set, h, Option.getD_some]

end Targets

namespace Reactor

variable {σ : Type}

def targets (r : Reactor σ) : Targets := ⟨r.channels.map Channel.target, r.lookups⟩

/-- The targets move, no answer is queued, and the loop's copy of the options stays. -/
structure Follows (r r' : Reactor σ) : Prop where
  moves : r.targets.Moves r'.targets
  snapshot : (r'.options, r'.version) = (r.options, r.version)
  serves : r.Serves r'

theorem Follows.posts {r r' : Reactor σ} (h : r.Follows r') : r.service.Posts r'.service :=
  h.serves.posts

theorem Quiet.targets_eq {r r' : Reactor σ} (h : r.Quiet r') : r'.targets = r.targets := by
  simp only [Reactor.targets, h.targets, h.lookups]

theorem Quiet.follows {r r' : Reactor σ} (h : r.Quiet r') : r.Follows r' :=
  ⟨by rw [h.targets_eq], h.snapshot, h.serves⟩

theorem Follows.refl (r : Reactor σ) : r.Follows r := (Quiet.refl r).follows

theorem Follows.trans {r r' r'' : Reactor σ} (h : r.Follows r') (h' : r'.Follows r'') :
    r.Follows r'' :=
  ⟨h.moves.trans h'.moves, h'.snapshot.trans h.snapshot, h.serves.trans h'.serves h.snapshot⟩

/-- A run's channels start as their endpoints make them. -/
theorem exists_endpoint_of_new {s : Service} {w : σ} {endpoints : List Endpoint} {i : Nat} {c : Channel}
    (hc : (new s w endpoints).channel? i = some c) : ∃ e, c = .ofEndpoint e := by
  obtain ⟨e, -, rfl⟩ := Option.map_eq_some_iff.1 (List.getElem?_map.symm.trans hc)
  exact ⟨e, rfl⟩

theorem getElem?_targets {r : Reactor σ} {i : Nat} {c : Channel} (h : r.channel? i = some c) :
    r.targets.list[i]? = some (c.endpoint, c.cache) := by
  have hc : r.channels[i]? = some c := h
  simp [targets, hc, Channel.target]

/-- An update of a channel is a replacement of its target. -/
theorem targets_updateChannel {r : Reactor σ} {i : Nat} {c : Channel} (h : r.channel? i = some c)
    (f : Channel → Channel) : (r.updateChannel i f).targets = r.targets.set i (f c).target := by
  have hc : r.channels[i]? = some c := h
  simp only [targets, updateChannel, Targets.set, Targets.mk.injEq, and_true]
  rw [List.modify_eq_set, hc, Option.getD_some, List.map_set]

theorem channel?_updateChannel {r : Reactor σ} {i : Nat} {c : Channel} (h : r.channel? i = some c)
    (f : Channel → Channel) : (r.updateChannel i f).channel? i = some (f c) := by
  have hc : r.channels[i]? = some c := h
  simp [channel?, updateChannel, hc]

/-- An update of a channel that has no part in its target. -/
theorem follows_keep (r : Reactor σ) (i : Nat) {f : Channel → Channel}
    (h : ∀ c, (f c).target = c.target) : r.Follows (r.updateChannel i f) := by
  have htargets : (r.updateChannel i f).targets = r.targets := by
    simp only [targets, updateChannel, map_target_modify r.channels i h]
  exact ⟨by rw [htargets], rfl, .refl _⟩

/-- A single move of one channel's target. -/
theorem follows_updateChannel {r : Reactor σ} {i : Nat} {c : Channel} {f : Channel → Channel}
    (h : r.channel? i = some c) (hmove : r.targets.Move (r.targets.set i (f c).target)) :
    r.Follows (r.updateChannel i f) := by
  refine ⟨.single ?_, rfl, .refl _⟩
  rw [targets_updateChannel h]
  exact hmove

/-- An answer is taken in or discarded, and nothing is done upon it. -/
def takeIn (r : Reactor σ) (a : Resolution) : Reactor σ :=
  r.updateChannel a.channel fun c => { c with cache := c.cache.complete a.epoch a.answer a.time }

theorem targets_takeIn (r : Reactor σ) (a : Resolution) :
    (r.takeIn a).targets = r.targets.complete a := by
  cases h : r.channel? a.channel with
  | none =>
    have hlength : r.channels.length ≤ a.channel := List.getElem?_eq_none_iff.1 h
    rw [Targets.complete_of_none (by simpa [targets] using hlength), targets, takeIn, updateChannel]
    simp only [List.modify_eq_self hlength, targets]
  | some c =>
    rw [Targets.complete_of_some (getElem?_targets h)]
    exact targets_updateChannel h _

theorem waits_takeIn (r : Reactor σ) (a : Resolution) (i : Nat) : (r.takeIn a).waits i = r.waits i := by
  simp only [waits, channel?, takeIn, updateChannel, List.getElem?_modify]
  cases r.channels[i]? with
  | none => rfl
  | some c => by_cases hi : a.channel = i <;> simp [hi]

/-- The loop's options are renewed from the service, which stays. -/
theorem service_refreshOptions (r : Reactor σ) : r.refreshOptions.service = r.service := by
  unfold refreshOptions
  split <;> rfl

theorem targets_refreshOptions (r : Reactor σ) : r.refreshOptions.targets = r.targets := by
  unfold refreshOptions
  split <;> rfl

variable [Host σ]

/-! ## A new target -/

theorem moves_setHost {v : Targets} {i : Nat} {c : Channel} (h : v.list[i]? = some c.target)
    (host : String) : v.Moves (v.set i (c.setHost host).target) := by
  unfold Channel.setHost
  split
  · rw [Targets.set_self h]
  · exact .single (.setHost h host)

theorem moves_setPort {v : Targets} {i : Nat} {c : Channel} (h : v.list[i]? = some c.target)
    (port : UInt16) : v.Moves (v.set i (c.setPort port).target) := by
  unfold Channel.setPort
  split
  · rw [Targets.set_self h]
  · exact .single (.setPort h port)

theorem moves_retargeted {v : Targets} {i : Nat} {c : Channel} (h : v.list[i]? = some c.target)
    (host : Option String) (port : Option UInt16) :
    v.Moves (v.set i (c.retargeted host port).target) := by
  rcases host with _ | host <;> rcases port with _ | port
  · have hsame : v.set i c.target = v := Targets.set_self h
    exact hsame.symm ▸ Relation.ReflTransGen.refl
  · exact moves_setPort h port
  · exact moves_setHost h host
  · have hport := moves_setPort (Targets.getElem?_set h (c.setHost host).target) port
    rw [Targets.set_set] at hport
    exact (moves_setHost h host).trans hport

/-! ## Chores -/

/-- **What is sought of a target is a move of it.** -/
theorem Seek.follows {r r' : Reactor σ} {i : Nat} (h : Seek i r r') : r.Follows r' := by
  cases h with
  | @retarget c host port e cache hc heq =>
    have hmoves := moves_retargeted (getElem?_targets hc) host port
    rw [heq, ← targets_updateChannel hc ({ · with endpoint := e, cache := cache })] at hmoves
    exact ⟨hmoves, rfl, .refl _⟩
  | refresh hc =>
    exact (quiet_now r).follows.trans
      (follows_updateChannel hc (.refresh (getElem?_targets hc) r.options.lookupTtl r.now.1))
  | @inquire c w hc hdirty hlookup =>
    have hbegin : (r.inquiring i).targets = r.targets.set i (c.endpoint, c.cache.begin) :=
      targets_updateChannel hc _
    have hmove := Targets.Move.begin (getElem?_targets hc) hdirty r.options.resolver
    rw [← hbegin] at hmove
    exact ⟨.single hmove, rfl, .refl _⟩
  | @unanswered c w hc hdirty hlookup =>
    have hbegin : (r.inquiring i).targets = r.targets.set i (c.endpoint, c.cache.begin) :=
      targets_updateChannel hc _
    have hbegun : (r.inquiring i).channel? i = some { c with cache := c.cache.begin } :=
      channel?_updateChannel hc _
    refine ⟨.single ?_, rfl, .refl _⟩
    let r' := { r.inquiring i with world := w }.now.2
    have hquiet : (r.inquiring i).Quiet r' := (quiet_world _ w).trans (quiet_now _)
    have hunanswered := targets_updateChannel (r := r') hbegun fun c =>
      { c with cache := c.cache.complete c.cache.epoch (.error (.kind .other)) (Host.now w).1 }
    rw [hquiet.targets_eq, hbegin, Targets.set_set] at hunanswered
    exact hunanswered ▸ .unstarted (getElem?_targets hc) hdirty (.kind .other) (Host.now w).1

theorem follows_begun (r : Reactor σ) (i : Nat) (mask : ChannelMask) : r.Follows (r.begun i mask) := by
  have hopening : r.Follows ((r.updateChannel i
      ({ · with mask := mask, pendingOpen := true, lastStatus := Status.ok })).setState i .opening) :=
    (follows_keep r i fun _ => by rfl).trans (quiet_setState _ i _).follows
  exact hopening.trans (Quiet.follows (.ite (quiet_armTimer _ i _ _) (.refl _)))

/-- **As long as no answer is taken in, the targets follow by moves.** -/
theorem Chores.follows {r r' : Reactor σ} (h : Chores .deaf r r') : r.Follows r' :=
  h.keeps (P := r.Follows) (fun _ hchore hr => hr.trans <| by
    obtain hquiet | ⟨-, hseek⟩ | ⟨hhears, -⟩ | ⟨mask, -, rfl⟩ := hchore.quiet
    · exact hquiet.follows
    · exact hseek.follows
    · exact hhears.elim
    · exact follows_begun _ _ mask) (.refl r)

/-! ## Commands and timers -/

/-- **What is done upon an answer leaves the targets alone.** -/
theorem quiet_resolved (r : Reactor σ) (a : Resolution) : (r.takeIn a).Quiet (r.resolved a) := by
  have hkeeps : ∀ r' : Reactor σ, r'.targets = (r.takeIn a).targets →
      (∀ i, r'.waits i = true → r.waits i = true) →
        (r'.options, r'.version) = (r.options, r.version) → r'.service = r.service →
          (r.takeIn a).Quiet r' := by
    intro r' htargets hwaits hsnapshot hservice
    simp only [targets, Targets.mk.injEq] at htargets
    have hsame : r'.service = (r.takeIn a).service := hservice
    refine ⟨htargets.1, fun i hi => ?_, htargets.2, hsnapshot, .of_eq (by rw [hsame])⟩
    exact (waits_takeIn r a i).trans (hwaits i hi)
  have htaken : ∀ c, r.channel? a.channel = some c → (r.takeIn a).Quiet (r.answeredBy a c) := by
    intro c hc
    refine hkeeps _ ?_ (waits_modify r.channels _ fun _ hc => by cases hc) rfl rfl
    rw [answeredBy, targets_updateChannel hc, targets_takeIn,
      Targets.complete_of_some (getElem?_targets hc)]
    rfl
  refine resolved_cases (fun hnone => ?_) (fun c hc hspent => ?_) (fun c hc _ _ => htaken c hc)
    (fun c hc _ _ hready => (htaken c hc).trans (quiet_establish fun c' hc' => .inl ?_))
    fun c hc _ _ => (htaken c hc).trans (quiet_openFailed _ _ _)
  · refine hkeeps r ?_ (fun _ hi => hi) rfl rfl
    rw [targets_takeIn, Targets.complete_of_none (by simpa [targets, channel?] using hnone)]
  · refine hkeeps r ?_ (fun _ hi => hi) rfl rfl
    have hsame : c.cache.complete a.epoch a.answer a.time = c.cache := by
      simp [ResolveCache.complete, hspent]
    rw [targets_takeIn, Targets.complete_of_some (getElem?_targets hc), hsame,
      Targets.set_self (getElem?_targets hc)]
  · obtain ⟨c₀, -, rfl⟩ := exists_of_updateChannel hc'
    exact hready

/-- Every command but an answer is followed by moves. -/
theorem follows_perform (r : Reactor σ) {c : Command} (h : c.isRequest) : r.Follows (r.perform c) :=
  (chores_perform (T := .deaf) (.of_not_rests id (fun _ => trivial) trivial (fun _ => trivial) (.inl h))).follows

theorem follows_fire (r : Reactor σ) (e : Timer.Expired Task) : r.Follows (r.fire e) := by
  have hyields : Terms.deaf.Yields r e :=
    .of_not_rests id (fun _ => trivial) trivial (fun _ => trivial) e
  exact keeps_fire (P := r.Follows) hyields (fun i _ => (quiet_taken r i).follows)
    (fun hchores h => h.trans hchores.follows) (.refl r)

end Reactor

end NetReactor
