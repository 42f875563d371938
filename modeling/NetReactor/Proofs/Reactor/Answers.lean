import NetReactor.Proofs.Reactor.Standing
import NetReactor.Simulation.Prompt

/-!
# An answer for every open

While a run lasts, **every open of a client that was taken up has had its one answer, or the channel is
opening still** (`opened_sub_answered`), and an answer reports success exactly when it carries a
connection that the loop then holds. What is counted is kept by every handler (`undertaken`); an open
that is taken up adds one to both sides.
-/

namespace NetReactor

open Timer (Expired)

namespace Reactor

variable {σ : Type} [Host σ] {r r' : Reactor σ} {i : Nat}

theorem running_of_plays {s s' : Service} (h : s.Plays s') : s'.running = s.running :=
  congrArg (·.2.2.2) h.stage

theorem Move.running (h : Move i r r') : r'.service.running = r.service.running := by
  cases h with
  | aside hservice hchannels htransports => rw [hservice]
  | play hplay => exact running_of_plays (.single hplay)
  | greet mask d hplays channel payload => exact (running_of_plays hplays).trans rfl
  | lose status ht hi hplays => exact (running_of_plays hplays).trans rfl
  | _ => rfl

/-- No handler ends a run. -/
theorem Trail.running (h : Trail r r') : r'.service.running = r.service.running :=
  h.keeps (P := fun r' => r'.service.running = r.service.running)
    (fun hmove hrunning => hmove.running.trans hrunning) rfl

/-- What is told since the first `told` events is told properly. -/
structure Logged (r : Reactor σ) (told : Nat) : Prop where
  le : told ≤ r.service.emitted.toList.length
  proper : ∀ m ∈ r.service.emitted.toList.drop told, ∃ i, m.Proper σ i

/-- More is told, and what was told stays. -/
theorem Logged.trail {told : Nat} (h : r.Logged told) (htrail : Trail r r')
    (hsound : r.transports.Sound) (hfits : r'.transports.Fits) :
    r'.Logged told ∧ r'.service.emitted.toList.take told = r.service.emitted.toList.take told := by
  obtain ⟨more, hmore, hproper⟩ := htrail.tells hsound hfits
  refine ⟨⟨?_, fun m hm => ?_⟩, by rw [hmore, List.take_append_of_le_length h.le]⟩
  · rw [hmore, List.length_append]
    exact Nat.le_trans h.le (Nat.le_add_right _ _)
  · rw [hmore, List.drop_append_of_le_length h.le] at hm
    exact (List.mem_append.1 hm).elim (h.proper m) (hproper m)

end Reactor

namespace Course

variable {σ : Type}

/-- How many opens of a channel the run has taken up. -/
def opened (x : Course σ) (i : Nat) : Nat := x.opens.countP (·.1 = i)

/-- How many connect responses the run has told for a channel. -/
def answered (x : Course σ) (i : Nat) : Nat := x.log.countP (·.event.answers i)

/-- How many connect responses earlier runs told for a channel of that number. -/
def answeredBefore (x : Course σ) (i : Nat) : Nat :=
  (x.service.emitted.toList.take x.told).countP (·.event.answers i)

/-- The run has opened the channel as a client only. -/
def ClientOnly (x : Course σ) (i : Nat) : Prop := ∀ mask, (i, mask) ∈ x.opens → mask.isClient = true

instance (x : Course σ) (i : Nat) : Decidable (x.ClientOnly i) :=
  decidable_of_iff (∀ o ∈ x.opens, o.1 = i → o.2.isClient = true)
    ⟨fun h _ hmask => h _ hmask rfl, fun h o ho hi => h o.2 (hi ▸ ho)⟩

theorem answers_eq (x : Course σ) (i : Nat) :
    x.reactor.answers i = x.answeredBefore i + x.answered i := by
  rw [answeredBefore, answered, log, ← List.countP_append, List.take_append_drop]
  rfl

variable [Host σ] {x y : Course σ}

/-- What the run's opens and events come to. -/
structure Accounted (x : Course σ) : Prop where
  logged : x.reactor.Logged x.told
  valid : ∀ {i mask}, (i, mask) ∈ x.opens → mask.isValid = true
  mask : x.service.running = true → ∀ {i c}, x.reactor.channel? i = some c →
    c.mask = ⟨0⟩ ∨ (i, c.mask) ∈ x.opens
  balance : x.service.running = true → ∀ {i c}, x.reactor.channel? i = some c → x.ClientOnly i →
    x.reactor.undertaken i = x.answeredBefore i + x.opened i

/-- A channel that was opened as a client only is no server. -/
theorem Accounted.not_server (hx : x.Accounted) (hrunning : x.service.running = true) {i : Nat}
    {c : Channel} (hc : x.reactor.channel? i = some c) (hclient : x.ClientOnly i) :
    c.mask.isServer = false := by
  rcases hx.mask hrunning hc with hnever | hopen
  · rw [hnever]
    decide
  · rw [ChannelMask.isServer_of_isValid (hx.valid hopen), hclient _ hopen]
    rfl

/-- **A handler keeps the account**, with the open it takes up. -/
theorem Accounted.handled {due : List (Expired Task)} {new : List (Nat × ChannelMask)} {r : Reactor σ}
    (hx : x.Accounted) (hrest : x.reactor.AtRest due) (h : Reactor.Handled due new x.reactor r)
    (hfits : r.transports.Fits) (due' : List (Expired Task)) :
    Accounted { x with reactor := r, due := due', opens := new ++ x.opens } := by
  obtain ⟨hlogged, htake⟩ := hx.logged.trail h.trail hrest.sound hfits
  have hrunning₀ : r.service.running = true → x.service.running = true := h.trail.running.symm.trans
  refine ⟨hlogged, fun {i mask} hopen => (List.mem_append.1 hopen).elim h.valid hx.valid,
    fun hrunning {i c'} hc' => ?_, fun hrunning {i c'} hc' hclient => ?_⟩
  · obtain ⟨c, hc⟩ := h.trail.exists_channel hc'
    rcases h.rests hrest hfits hc with ⟨-, c'', hc'', hmask, -⟩ | ⟨mask, rfl, c'', hc'', hmask, -⟩
    · obtain rfl := Option.some.inj (hc''.symm.trans hc')
      rw [hmask]
      exact (hx.mask (hrunning₀ hrunning) hc).imp_right (List.mem_append_right new)
    · obtain rfl := Option.some.inj (hc''.symm.trans hc')
      rw [hmask]
      exact .inr List.mem_cons_self
  · obtain ⟨c, hc⟩ := h.trail.exists_channel hc'
    have hclient₀ : x.ClientOnly i := fun mask hopen => hclient mask (List.mem_append_right new hopen)
    have hbalance := hx.balance (hrunning₀ hrunning) hc hclient₀
    change r.undertaken i = (r.service.emitted.toList.take x.told).countP (·.event.answers i) +
      (new ++ x.opens).countP (·.1 = i)
    rw [htake, List.countP_append]
    change r.undertaken i = x.answeredBefore i + (new.countP (·.1 = i) + x.opened i)
    rcases h.rests hrest hfits hc with ⟨hnot, -, -, -, -, hsame⟩ | ⟨mask, rfl, -, -, -, -, hmore⟩
    · have hzero : new.countP (·.1 = i) = 0 := by
        refine List.countP_eq_zero.2 fun ⟨j, mask⟩ hmem hj => ?_
        obtain rfl : j = i := by simpa using hj
        exact hnot mask hmem
      rw [hsame (hx.not_server (hrunning₀ hrunning) hc hclient₀), hbalance, hzero, Nat.zero_add]
    · have hserver : mask.isServer = false := by
        rw [ChannelMask.isServer_of_isValid (h.valid List.mem_cons_self), hclient mask List.mem_cons_self]
        rfl
      rw [hmore hserver, hbalance, List.countP_singleton]
      simp only [decide_true, if_true]
      omega

/-- A run starts with nothing told or opened. -/
theorem accounted_of_start {s : Service} (hrunning : s.running = false) (w : σ) (callback : Nat)
    (endpoints : List Endpoint) : Accounted {
      reactor := .new (s.start callback endpoints.length) w endpoints
      due := []
      opens := []
      told := s.emitted.size
      made := s.connections.size } := by
  rw [Service.start_of_not_running hrunning]
  have hwhole : s.emitted.toList.take s.emitted.size = s.emitted.toList :=
    List.take_of_length_le (Nat.le_of_eq Array.length_toList)
  refine ⟨⟨?_, ?_⟩, by simp, fun _ {i c} hc => ?_, fun _ {i c} hc _ => ?_⟩
  · simp [Reactor.new]
  · simp [Reactor.new, ← Array.length_toList]
  · obtain ⟨e, rfl⟩ := Reactor.exists_endpoint_of_new hc
    exact .inl rfl
  · obtain ⟨e, rfl⟩ := Reactor.exists_endpoint_of_new hc
    rw [Reactor.undertaken_of_channel hc]
    simp [Reactor.answers, answeredBefore, opened, service, Reactor.new, hwhole,
      Channel.ofEndpoint]

theorem Accounted.advance (hx : x.reactor.transports.Fits → x.Accounted)
    (hkept : x.reactor.Kept x.due) (h : x.Advance y) (hfits : y.reactor.transports.Fits) :
    y.Accounted := by
  cases h with
  | handled h =>
    have hfits₀ := h.trail.fits hfits
    exact (hx hfits₀).handled (hkept.atRest hfits₀) h hfits x.due
  | poll hdue =>
    obtain ⟨hlogged, hvalid, hmask, hbalance⟩ := hx hfits
    exact ⟨⟨hlogged.le, hlogged.proper⟩, hvalid, hmask, hbalance⟩
  | @fire e rest hdue =>
    have hfired : Reactor.Handled x.due (x.reactor.takenUpon e) x.reactor (x.reactor.fire e) :=
      Reactor.handled_fire x.reactor (hdue ▸ List.mem_cons_self)
    have hfits₀ := hfired.trail.fits hfits
    exact (hx hfits₀).handled (hkept.atRest hfits₀) hfired hfits rest
  | stop hdue =>
    have htrail := Reactor.trail_closed x.reactor
    have hx := hx (htrail.fits hfits)
    obtain ⟨hlogged, -⟩ := hx.logged.trail htrail hkept.sound hfits
    have hstopped : x.reactor.teardown.service.running = false := rfl
    exact ⟨⟨hlogged.le, hlogged.proper⟩, hx.valid,
      fun hrunning => by simp [service, withReactor, hstopped] at hrunning,
      fun hrunning => by simp [service, withReactor, hstopped] at hrunning⟩
  | start hrunning hdue callback endpoints => exact accounted_of_start hrunning _ callback endpoints

theorem Reachable.accounted (h : x.Reachable) (hfits : x.reactor.transports.Fits) : x.Accounted := by
  obtain ⟨o, w, hsteps⟩ := h
  induction hsteps with
  | refl =>
    have hnone : ∀ {i c}, (new o w).reactor.channel? i ≠ some c := by
      simp [Reactor.channel?, new, Reactor.new]
    exact ⟨⟨Nat.zero_le _, by simp [new, Reactor.new, Service.ofOptions]⟩, by simp [new],
      fun _ {_ _} hc => absurd hc hnone, fun _ {_ _} hc => absurd hc hnone⟩
  | tail hsteps hstep ih =>
    exact Accounted.advance ih (Reachable.kept ⟨o, w, hsteps⟩) hstep.advance hfits

/-- **As long as a run lasts, every open of a client that was taken up was answered once, but for the one
that is under way**; and it was answered with success exactly when the answer carries a connection, which
the loop held as it was told. The system numbers its errors from one, and never are more connections held
than can be named. -/
theorem opened_sub_answered (h : x.Reachable) (hrunning : x.service.running = true)
    (hfits : x.reactor.transports.Fits) (herrors : Host.ErrorsNonzero σ) {i : Nat} {c : Channel}
    (hc : x.reactor.channel? i = some c) (hclient : x.ClientOnly i) :
    (x.opened i : Int) - x.answered i = (if c.state = .opening then 1 else 0) ∧
      ∀ m ∈ x.log, ∀ {status h?}, m.event = .connectResponse i status h? →
        (status = Status.ok ↔ h?.isSome = true) ∧ (h?.isSome = true → m.held = true) := by
  have hx := h.accounted hfits
  refine ⟨?_, fun m hm {status h?} hevent => ?_⟩
  · have hbalance := hx.balance hrunning hc hclient
    rw [Reactor.undertaken_of_channel hc, answers_eq] at hbalance
    split at hbalance
    · rename_i hstate
      rw [if_pos hstate]
      omega
    · rename_i hstate
      rw [if_neg hstate]
      omega
  · obtain ⟨j, hproper⟩ := hx.logged.proper m hm
    obtain ⟨-, hheld, hstatus⟩ := hproper.response hevent
    exact ⟨hstatus herrors, hheld⟩

open Simulation

theorem errorsNonzero_prompt : Host.ErrorsNonzero Prompt where
  connect _ _ _ _ := by simp [Host.connect]
  connectError _ _ := by simp [Host.connectError]
  bindServer _ _ _ := by simp [Host.bindServer, OsError.addressInUse]

/-- A client is opened and connected, and opened anew: two opens, two answers. -/
theorem opened_sub_answered_of_two : ∃ (x : Course Prompt) (c : Channel), x.Reachable ∧
    x.reactor.channel? 0 = some c ∧ x.opened 0 = 2 ∧
    ((x.opened 0 : Int) - x.answered 0 = (if c.state = .opening then 1 else 0) ∧
      ∀ m ∈ x.log, ∀ {status h?}, m.event = .connectResponse 0 status h? →
        (status = Status.ok ↔ h?.isSome = true) ∧ (h?.isSome = true → m.held = true)) := by
  have hnew : (new Options.standard (⟨1, []⟩ : Prompt)).Reachable := ⟨_, _, .refl⟩
  have hstart := hnew.step (.start rfl rfl 0 [⟨"10.0.0.1", 80⟩])
  have hasked := hstart.step (.request ⟨0⟩ (.openChannel 0 .tcpClient))
  have hconnected := hasked.step (.command (by rfl) (by rfl))
  have hagain := hconnected.step (.request ⟨0⟩ (.openChannel 0 .tcpClient))
  have hreopened := hagain.step (.command (by rfl) (by rfl))
  exact ⟨_, _, hreopened, by rfl, by rfl,
    opened_sub_answered hreopened (by rfl) (by decide) errorsNonzero_prompt (by rfl) (by decide)⟩

end Course

end NetReactor
