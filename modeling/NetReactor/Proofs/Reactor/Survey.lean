import NetReactor.Proofs.Reactor.Losses
import NetReactor.Proofs.Reactor.Wakeup
import NetReactor.Proofs.Reactor.Watching
import NetReactor.Simulation.Frugal

/-!
# What is watched at the end of a turn

Over a system that hands out no open descriptor, **what is held is what is watched, between any two
handlers of any run** (`Kernel.Sound`). At the end of each turn the loop surveys its transports one after
the other, while other threads go on writing (`Survey`): what a transport is watched for afterwards is what
its queue asked for **when it was examined**, and not later.
-/

namespace NetReactor

namespace Course

variable {σ : Type}

/-- Other threads and the world change nothing of the loop's own. -/
def Aside (x y : Course σ) : Prop :=
  ∃ s w, s.running = x.service.running ∧
    y = x.withReactor { x.reactor with service := s, world := w }

end Course

namespace Kernel

variable {σ : Type} [Host σ] {k : Kernel σ} {x y : Course σ}

/-- Whatever changes the world alone closes nothing. -/
def Spares (k : Kernel σ) (x y : Course σ) : Prop :=
  ∀ w, y = x.withReactor { x.reactor with world := w } → k.Keeps x.reactor.world w

/-- One thing that happens over such a system, where the loop may come to one transport at a time. -/
inductive Step (k : Kernel σ) : Course σ → Course σ → Prop
  | course {x y : Course σ} (h : x.Step y) (hspares : k.Spares x y) : Step k x y
  | examine {x : Course σ} (hrunning : x.service.running) (id : TransportId) :
      Step k x (x.withReactor (x.reactor.updateInterest id))

/-- Any number of steps. -/
abbrev Steps (k : Kernel σ) : Course σ → Course σ → Prop := Relation.ReflTransGen k.Step

/-! ## What every run keeps -/

/-- What holds of a service and its loop. -/
structure Sound (k : Kernel σ) (x : Course σ) : Prop where
  kept : x.reactor.Kept x.due
  numbered : Numbered x.service.handles
  booked : x.reactor.transports.Fits → x.reactor.Booked x.told x.made
  wake : k.isOpen Reactor.wakeDescriptor x.reactor.world
  secure : x.service.running = true → x.reactor.Secure k

theorem Step.advance (h : k.Step x y) : x.Advance y := by
  cases h with
  | course h hspares => exact h.advance
  | examine hrunning id => exact Course.advance_of_opensNone (Reactor.opensNone_updateInterest x.reactor id)

/-- What the loop is through with is secure, and with it the interrupter's descriptor is open. -/
theorem secured {r : Reactor σ} (hr : r.Secure k) :
    k.isOpen Reactor.wakeDescriptor r.world ∧ (r.service.running = true → r.Secure k) :=
  ⟨hr.isOpen .interrupter rfl, fun _ => hr⟩

/-- Other threads and the world leave it so. -/
theorem Sound.shared (hx : k.Sound x) {s : Service} {w : σ} (hs : s.running = x.service.running)
    (hw : k.Keeps x.reactor.world w) :
    k.isOpen Reactor.wakeDescriptor w ∧
      (s.running = true → Reactor.Secure k { x.reactor with service := s, world := w }) :=
  ⟨hw _ hx.wake, fun hrunning =>
    (Reactor.steady_shared x.reactor s hw).secure (hx.secure (hs.symm.trans hrunning))⟩

theorem secure_step (h : x.Step y) (hspares : k.Spares x y) (hx : k.Sound x) :
    k.isOpen Reactor.wakeDescriptor y.reactor.world ∧
      (y.service.running = true → y.reactor.Secure k) := by
  cases h with
  | request now q => exact hx.shared (Service.posts_perform x.service now q).running (.refl _)
  | dispatch max =>
    exact hx.shared (Service.posts_dispatch max x.service x.reactor.world).running (keeps_dispatch max _ _)
  | world w => exact hx.shared rfl (hspares w rfl)
  | answer a => exact hx.shared rfl (.refl _)
  | refresh hrunning =>
    have hsame : x.reactor.Steady k x.reactor.refreshOptions := .ite (.refl _) ⟨rfl, rfl, .refl _⟩
    exact secured (hsame.secure (hx.secure hrunning))
  | act hrunning ha =>
    have hr := hx.secure hrunning
    exact secured (hr.act (hx.kept.atRest hr.fits) ha)
  | @command c rest hrunning hc =>
    have hr := hx.secure hrunning
    have hrest := hx.kept.atRest_withCommands hr.fits rest
    have htaken : x.reactor.Steady k (x.reactor.withCommands rest) :=
      Reactor.steady_shared x.reactor _ (.refl _)
    exact secured ((htaken.secure hr).perform hrest c)
  | poll hrunning hdue =>
    have htaken : x.reactor.Steady k x.reactor.pollTimers.2 :=
      Reactor.steady_shared x.reactor _ (keeps_use (.now _))
    exact secured (htaken.secure (hx.secure hrunning))
  | @fire e rest hrunning hdue =>
    have hr := hx.secure hrunning
    exact secured (hr.fire (hx.kept.atRest hr.fits) (hdue ▸ List.mem_cons_self))
  | stop hrunning hstopping hdue =>
    exact ⟨(hx.secure hrunning).closed.isOpen .interrupter rfl, nofun⟩
  | start hrunning hdue callback endpoints => exact secured (Reactor.secure_new hx.wake _ endpoints)

/-- **Every step keeps it.** -/
theorem Step.sound (h : k.Step x y) (hx : k.Sound x) : k.Sound y := by
  have hsecure : k.isOpen Reactor.wakeDescriptor y.reactor.world ∧
      (y.service.running = true → y.reactor.Secure k) := by
    cases h with
    | course h hspares => exact secure_step h hspares hx
    | examine hrunning id => exact secured ((hx.secure hrunning).updateInterest id)
  exact ⟨h.advance.kept hx.kept, h.advance.numbered hx.numbered,
    h.advance.booked hx.numbered hx.booked, hsecure.1, hsecure.2⟩

/-- The loop comes to some transports in order, other threads in between; beside each transport stands what
they had left when the loop examined it. -/
inductive Survey (k : Kernel σ) :
    List TransportId → Course σ → List (TransportId × Service) → Course σ → Prop
  | done {x : Course σ} : Survey k [] x [] x
  | examine {id : TransportId} {rest : List TransportId} {x y : Course σ}
      {seen : List (TransportId × Service)}
      (h : Survey k rest (x.withReactor (x.reactor.updateInterest id)) seen y) :
      Survey k (id :: rest) x ((id, x.service) :: seen) y
  | aside {ids : List TransportId} {x x' y : Course σ} {seen : List (TransportId × Service)}
      (hstep : k.Step x x') (haside : x.Aside x') (h : Survey k ids x' seen y) : Survey k ids x seen y

/-- Another thread may still come at the end. -/
theorem Survey.tail {z : Course σ} {ids : List TransportId} {seen : List (TransportId × Service)}
    (h : k.Survey ids x seen y) (hstep : k.Step y z) (haside : y.Aside z) : k.Survey ids x seen z := by
  induction h with
  | done => exact .aside hstep haside .done
  | examine h ih => exact .examine (ih hstep haside)
  | aside hstep₀ haside₀ h ih => exact .aside hstep₀ haside₀ (ih hstep haside)

variable {ids : List TransportId} {seen : List (TransportId × Service)}

/-- What was examined is watched for what it asked for; the rest is as it was. -/
theorem Survey.interests (h : k.Survey ids x seen y) (hx : k.Sound x)
    (hrunning : x.service.running = true) :
    y.reactor.Secure k ∧ ∀ id t, y.reactor.transports.get? id = some t →
      (∃ s c, (id, s) ∈ seen ∧ s.connection? t.handle = some c ∧ t.interest = c.wanted) ∨
        id ∉ ids ∧ x.reactor.transports.get? id = some t := by
  induction h with
  | done => exact ⟨hx.secure hrunning, fun id t ht => .inr ⟨List.not_mem_nil, ht⟩⟩
  | @examine id rest x y seen h ih =>
    have hstep : k.Step x (x.withReactor (x.reactor.updateInterest id)) := .examine hrunning id
    have hservice := Reactor.service_updateInterest x.reactor id
    have hx₁ := hstep.sound hx
    have hrunning₁ : (x.reactor.updateInterest id).service.running = true := hservice ▸ hrunning
    obtain ⟨hsecure, hinterests⟩ := ih hx₁ hrunning₁
    refine ⟨hsecure, fun id' t ht => ?_⟩
    rcases hinterests id' t ht with ⟨s, c, hmem, hc, hwanted⟩ | ⟨hnot, ht₁⟩
    · exact .inl ⟨s, c, List.mem_cons_of_mem _ hmem, hc, hwanted⟩
    · rcases Reactor.interest_updateInterest ht₁ with ⟨hne, hbefore⟩ | ⟨rfl, hwanted⟩
      · exact .inr ⟨List.not_mem_cons_of_ne_of_not_mem hne hnot, hbefore⟩
      · obtain ⟨c, hc⟩ := (hx₁.booked (hx₁.secure hrunning₁).fits).connection? ht₁
        have hc := (congrArg (·.connection? t.handle) hservice).symm.trans hc
        exact .inl ⟨x.service, c, List.mem_cons_self, hc, hwanted c hc⟩
  | aside hstep haside h ih =>
    obtain ⟨s, w, hs, rfl⟩ := haside
    exact ih (hstep.sound hx) (hs.trans hrunning)

end Kernel

/-! ## A system that keeps the rule -/

namespace Simulation.Frugal

variable {w w' : Frugal} {d : Descriptor}

theorem exists_of_grant (h : w.grant = (.ok d, w')) :
    ∃ n, n ∉ w.held ∧ d = (n.val : Int) ∧ w' = ⟨n :: w.held⟩ := by
  unfold grant at h
  split at h
  · rename_i n hn
    simp only [Prod.mk.injEq, Except.ok.injEq] at h
    exact ⟨n, by simpa using List.find?_some hn, h.1.symm, h.2.symm⟩
  · simp at h

theorem grant_of_grantWith {α : Type} {give : Descriptor → α} {a : α}
    (h : w.grantWith give = (.ok a, w')) : ∃ d, w.grant = (.ok d, w') ∧ give d = a := by
  unfold grantWith at h
  split at h
  · rename_i d w₁ hgrant
    simp only [Prod.mk.injEq, Except.ok.injEq] at h
    exact ⟨d, h.2 ▸ hgrant, h.1⟩
  · simp at h

theorem held_grant (w : Frugal) : w.held ⊆ w.grant.2.held := by
  unfold grant
  split
  · exact List.subset_cons_self _ _
  · exact List.Subset.refl _

theorem held_grantWith {α : Type} (give : Descriptor → α) (w : Frugal) :
    w.held ⊆ (w.grantWith give).2.held := by
  have h := held_grant w
  unfold grantWith
  split
  all_goals
    rename_i heq
    rwa [heq] at h

theorem grant_of_host (h : Host.Grant w d w') : w.grant = (.ok d, w') := by
  cases h with
  | connect h =>
    obtain ⟨d, hgrant, heq⟩ := grant_of_grantWith h
    rwa [← (Prod.mk.inj heq).1]
  | bindServer h => exact h
  | accept h =>
    obtain ⟨d, hgrant, heq⟩ := grant_of_grantWith h
    rwa [← (Prod.mk.inj (Option.some.inj heq)).1]
  | bindPeer h => exact h

theorem held_use (h : Host.Use w w') : w.held ⊆ w'.held := by
  cases h with
  | connect stream port a => exact held_grantWith _ w
  | bindServer stream a => exact held_grant w
  | accept d => exact held_grantWith _ w
  | bindPeer server peer => exact held_grant w
  | _ => exact List.Subset.refl _

/-- What is held is open. -/
def kernel : Kernel Frugal where
  isOpen d w := ∃ n ∈ w.held, d = (n.val : Int)
  small := by
    rintro d w ⟨n, -, rfl⟩
    exact ⟨Int.natCast_nonneg _, Int.ofNat_lt.2 (Nat.lt_trans n.isLt (by decide))⟩
  grant := by
    intro w d w' h
    obtain ⟨n, hnot, rfl, rfl⟩ := exists_of_grant (grant_of_host h)
    refine ⟨fun ⟨m, hm, heq⟩ => hnot ?_, n, List.mem_cons_self, rfl⟩
    obtain rfl : n = m := Fin.ext (Int.ofNat.inj heq)
    exact hm
  use := by
    rintro w w' d h ⟨n, hn, rfl⟩
    exact ⟨n, held_use h hn, rfl⟩
  close := by
    rintro w d e hne ⟨n, hn, rfl⟩
    exact ⟨n, List.mem_filter.2 ⟨hn, decide_eq_true hne⟩, rfl⟩

end Simulation.Frugal

namespace Kernel

end Kernel

end NetReactor
