import Mathlib.Data.List.Induction
import NetReactor.Channel

/-!
# The port of cached addresses

A lookup is asked for addresses on the port that the channel has when the lookup begins. A new host
advances the epoch, so that an answer for the old host is discarded; a new port does not, it only
rewrites the addresses that are cached already. **A port that changes while a lookup is under way is
therefore missed**: the answer is taken in late (`TakesLate`), and the channel is ready with addresses on
the old port. Nothing else takes cached addresses off the channel's port.
-/

namespace NetReactor

/-- What can happen to a channel's target. -/
inductive TargetStep
  | setHost (host : String)
  | setPort (port : UInt16)
  | refresh (ttl : Duration) (now : Instant)
  | begin
  | complete (epoch : Nat) (answer : Except IoError (List SocketAddress)) (time : Instant)

/-- A channel, with the epoch and the port of every lookup begun for it. -/
structure Targeting where
  channel : Channel
  asked : List (Nat × UInt16)

namespace Targeting

/-- A channel that was just made. -/
def start (e : Endpoint) : Targeting := ⟨.ofEndpoint e, []⟩

def step (t : Targeting) : TargetStep → Targeting
  | .setHost host => { t with channel := t.channel.setHost host }
  | .setPort port => { t with channel := t.channel.setPort port }
  | .refresh ttl now => { t with channel.cache := t.channel.cache.refresh ttl now }
  | .begin =>
    { channel := { t.channel with cache := t.channel.cache.begin }
      asked := (t.channel.cache.epoch, t.channel.endpoint.port) :: t.asked }
  | .complete epoch answer time =>
    { t with channel.cache := t.channel.cache.complete epoch answer time }

/-- The channel after some steps. -/
def after (e : Endpoint) (steps : List TargetStep) : Targeting := steps.foldl step (start e)

/-- Addresses come on the port that a lookup of their epoch was asked for. -/
def Answers (t : Targeting) : TargetStep → Prop
  | .complete epoch (.ok addresses) _ =>
    ∃ port, (epoch, port) ∈ t.asked ∧ ∀ a ∈ addresses, a.port = port
  | _ => True

/-- Steps among which every answer is one to a lookup begun before it. -/
def Faithful (e : Endpoint) (steps : List TargetStep) : Prop :=
  ∀ earlier x, earlier ++ [x] <+: steps → (after e earlier).Answers x

/-- While the target is ready, every cached address is on the channel's port. -/
def OnPort (t : Targeting) : Prop :=
  t.channel.cache.state = .ready → ∀ a ∈ t.channel.cache.addresses, a.port = t.channel.endpoint.port

/-- An answer that is taken in though its lookup was begun on another port than the channel's. -/
def TakesLate (t : Targeting) : TargetStep → Prop
  | .complete epoch (.ok (a :: rest)) _ =>
    t.channel.cache.accepts epoch ∧
      ∃ port, (epoch, port) ∈ t.asked ∧ (∀ b ∈ a :: rest, b.port = port) ∧
        port ≠ t.channel.endpoint.port
  | _ => False

/-! ## One step -/

/-- A target that is set anew has no address but the host's own, on the endpoint's port. -/
theorem port_of_mem_setHost {c : ResolveCache} {e : Endpoint} {a : SocketAddress}
    (ha : a ∈ (c.setHost e).addresses) : a.port = e.port := by
  unfold ResolveCache.setHost at ha
  generalize e.numeric? = numeric at ha
  cases numeric with
  | none => simp at ha
  | some b =>
    obtain rfl := List.mem_singleton.1 ha
    rfl

theorem onPort_start (e : Endpoint) : (start e).OnPort := by
  simp only [OnPort, start, Channel.ofEndpoint, ResolveCache.ofEndpoint]
  exact fun _ a ha => port_of_mem_setHost ha

theorem onPort_setHost {t : Targeting} (h : t.OnPort) (host : String) :
    (t.step (.setHost host)).OnPort := by
  by_cases hhost : t.channel.endpoint.host = host
  · have hsame : t.step (.setHost host) = t := by simp only [step, Channel.setHost, hhost, if_true]
    rw [hsame]
    exact h
  · intro _ a ha
    simp only [step, Channel.setHost, hhost, if_false] at ha ⊢
    have hport := port_of_mem_setHost ha
    exact hport

theorem onPort_setPort {t : Targeting} (h : t.OnPort) (port : UInt16) :
    (t.step (.setPort port)).OnPort := by
  simp only [step, Channel.setPort]
  split
  · exact h
  · simp [OnPort, ResolveCache.setPort]

theorem onPort_refresh {t : Targeting} (h : t.OnPort) (ttl : Duration) (now : Instant) :
    (t.step (.refresh ttl now)).OnPort := by
  simp only [step, ResolveCache.refresh]
  split
  · simp [OnPort]
  · exact h

/-- An answer that is asked for on the channel's port, is refused or fails, leaves the cache on the
port. -/
theorem onPort_complete {t : Targeting} (h : t.OnPort) {epoch : Nat}
    {answer : Except IoError (List SocketAddress)} {time : Instant}
    (hanswer : t.Answers (.complete epoch answer time))
    (hlate : ¬ t.TakesLate (.complete epoch answer time)) :
    (t.step (.complete epoch answer time)).OnPort := by
  simp only [step, ResolveCache.complete]
  split
  · rename_i haccepts
    match answer with
    | .error _ => simp [OnPort]
    | .ok [] => simp [OnPort]
    | .ok (a :: rest) =>
      obtain ⟨port, hasked, hport⟩ := hanswer
      have hcurrent : port = t.channel.endpoint.port :=
        by_contra fun hne => hlate ⟨haccepts, port, hasked, hport, hne⟩
      intro _ b hb
      exact (hport b hb).trans hcurrent
  · exact h

theorem onPort_step {t : Targeting} (h : t.OnPort) {x : TargetStep} (hanswer : t.Answers x)
    (hlate : ¬ t.TakesLate x) : (t.step x).OnPort := by
  cases x with
  | setHost host => exact onPort_setHost h host
  | setPort port => exact onPort_setPort h port
  | refresh ttl now => exact onPort_refresh h ttl now
  | begin => simp [OnPort, step, ResolveCache.begin]
  | complete epoch answer time => exact onPort_complete h hanswer hlate

/-- A late answer makes the target ready with addresses on another port. -/
theorem not_onPort_of_takesLate {t : Targeting} {x : TargetStep} (hlate : t.TakesLate x) :
    ¬ (t.step x).OnPort := by
  match x with
  | .complete epoch (.ok (a :: rest)) time =>
    obtain ⟨haccepts, port, -, hport, hne⟩ := hlate
    intro h
    have ha : a.port = t.channel.endpoint.port :=
      h (by simp [step, ResolveCache.complete, haccepts]) a
        (by simp [step, ResolveCache.complete, haccepts])
    exact hne ((hport a List.mem_cons_self).symm.trans ha)

/-! ## Whole runs -/

theorem after_append_singleton (e : Endpoint) (steps : List TargetStep) (x : TargetStep) :
    after e (steps ++ [x]) = (after e steps).step x := by
  simp [after]

/-- **Along a run the cached addresses stay on the channel's port exactly when no answer is taken in
whose lookup was begun on another port.** -/
theorem onPort_iff_no_late_answer {e : Endpoint} {steps : List TargetStep} (h : Faithful e steps) :
    (∀ earlier, earlier <+: steps → (after e earlier).OnPort) ↔
      ∀ earlier x, earlier ++ [x] <+: steps → ¬ (after e earlier).TakesLate x := by
  constructor
  · intro hport earlier x hx hlate
    have hx' := hport _ hx
    rw [after_append_singleton] at hx'
    exact not_onPort_of_takesLate hlate hx'
  · intro hlate earlier
    induction earlier using List.reverseRecOn with
    | nil => exact fun _ => onPort_start e
    | append_singleton earlier x ih =>
      intro hx
      rw [after_append_singleton]
      exact onPort_step (ih ((List.prefix_append earlier [x]).trans hx)) (h earlier x hx)
        (hlate earlier x hx)

/-! ## A port that changes during a lookup -/

/-- One more step keeps the steps faithful if it is no answer that nobody was asked for. -/
theorem faithful_append_singleton {e : Endpoint} {steps : List TargetStep} {x : TargetStep}
    (h : Faithful e steps) (hx : (after e steps).Answers x) : Faithful e (steps ++ [x]) := by
  intro earlier y hy
  rcases List.prefix_concat_iff.1 hy with heq | hbefore
  · obtain ⟨rfl, rfl⟩ := List.append_inj' heq rfl |>.imp id List.singleton_inj.1
    exact hx
  · exact h earlier y hbefore

/-- A lookup that is begun on port 80 and answered after the port became `port`. -/
def retargeted (port : UInt16) : List TargetStep :=
  [.begin, .setPort port, .complete 1 (.ok [⟨.v4 10 0 0 1, 80, 0⟩]) ⟨0⟩]

theorem faithful_retargeted (port : UInt16) : Faithful ⟨"svc.test", 80⟩ (retargeted port) := by
  have hnil : Faithful ⟨"svc.test", 80⟩ [] := by
    intro earlier x hx
    simp at hx
  have hbegin : Faithful ⟨"svc.test", 80⟩ [.begin] := faithful_append_singleton hnil trivial
  have hport : Faithful ⟨"svc.test", 80⟩ [.begin, .setPort port] :=
    faithful_append_singleton hbegin trivial
  have hasked : (after ⟨"svc.test", 80⟩ [.begin, .setPort port]).asked = [(1, 80)] := rfl
  refine faithful_append_singleton hport ⟨80, ?_, by simp⟩
  simp [hasked]

/-- The port set to what it was makes no answer late. -/
theorem onPort_of_same_port :
    Faithful ⟨"svc.test", 80⟩ (retargeted 80) ∧
      (after ⟨"svc.test", 80⟩ (retargeted 80)).OnPort := by
  refine ⟨faithful_retargeted 80,
    (onPort_iff_no_late_answer (faithful_retargeted 80)).2 ?_ _ (List.prefix_refl _)⟩
  intro earlier x hx hlate
  rcases earlier with _ | ⟨y, _ | ⟨z, _ | ⟨u, rest⟩⟩⟩
  all_goals simp only [retargeted, List.cons_append, List.nil_append, List.cons_prefix_cons,
    List.nil_prefix, and_true, List.prefix_nil, List.append_eq_nil_iff, List.cons_ne_nil,
    and_false] at hx
  · subst hx
    exact hlate
  · obtain ⟨rfl, rfl⟩ := hx
    exact hlate
  · obtain ⟨rfl, rfl, rfl⟩ := hx
    obtain ⟨-, port, hasked, -, hne⟩ := hlate
    have hport : port = 80 := by
      have h : (1, port) ∈ [((1 : Nat), (80 : UInt16))] := hasked
      simpa using h
    exact hne hport

/-- **The addresses of a ready target need not be on the channel's port.** -/
theorem offPort_of_port_changed_during_lookup :
    ¬ ∀ e steps, Faithful e steps → (after e steps).OnPort := by
  intro h
  have hport := h ⟨"svc.test", 80⟩ (retargeted 90) (faithful_retargeted 90) (by decide)
    ⟨.v4 10 0 0 1, 80, 0⟩ (by decide)
  exact absurd hport (by decide)

end Targeting

end NetReactor
