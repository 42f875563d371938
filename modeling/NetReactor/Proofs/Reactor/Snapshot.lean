import NetReactor.Proofs.Reactor.Lifetime
import NetReactor.Simulation.Isolated

/-!
# The options that a command is carried out with

The loop works with a copy of the options, which it renews at the start of a turn, before it waits; the
commands are carried out after the wait. **A change that falls into the wait is not in the copy yet**,
though a command that is queued behind it is carried out in the same turn (`stale_open`). A command is
carried out with a change exactly if the loop was up to date with the service at some moment in between
(`has_change_iff_renewed`).
-/

namespace NetReactor

namespace Reactor

variable {σ : Type}

/-- The loop's copy of the options is that of the version it names, which is none to come. -/
structure Fresh (r : Reactor σ) : Prop where
  version : r.version ≤ r.service.version
  options : r.version = r.service.version → r.options = r.service.options

/-- The loop's copy stays or becomes the service's, whose options change only with their version. -/
structure Copies (r r' : Reactor σ) : Prop where
  snapshot : (r'.options, r'.version) = (r.options, r.version) ∨
    (r'.options, r'.version) = (r'.service.options, r'.service.version)
  version : r.service.version ≤ r'.service.version
  options : r'.service.version = r.service.version → r'.service.options = r.service.options

theorem Copies.of_posts {r r' : Reactor σ}
    (hsnapshot : (r'.options, r'.version) = (r.options, r.version))
    (hposts : r.service.Posts r'.service) : r.Copies r' :=
  ⟨.inl hsnapshot, hposts.version, hposts.options⟩

theorem Copies.fresh {r r' : Reactor σ} (hcopies : r.Copies r') (h : r.Fresh) : r'.Fresh := by
  obtain ⟨hsnapshot, hle, hoptions⟩ := hcopies
  rcases hsnapshot with hsame | hnew
  · obtain ⟨ho, hv⟩ := Prod.mk.inj hsame
    have hfresh := h.version
    refine ⟨by omega, fun heq => ?_⟩
    rw [ho, hoptions (by omega)]
    exact h.options (by omega)
  · obtain ⟨ho, hv⟩ := Prod.mk.inj hnew
    exact ⟨Nat.le_of_eq hv, fun _ => ho⟩

/-- A fresh copy never becomes older. -/
theorem Copies.le {r r' : Reactor σ} (hcopies : r.Copies r') (h : r.Fresh) :
    r.version ≤ r'.version := by
  have hfresh := h.version
  have hle := hcopies.version
  rcases hcopies.snapshot with hsame | hnew
  · exact Nat.le_of_eq (Prod.mk.inj hsame).2.symm
  · have hv := (Prod.mk.inj hnew).2
    omega

end Reactor

namespace Lifetime

variable {σ : Type} [Host σ]

/-- **Every step keeps the loop's copy or renews it.** -/
theorem Step.copies {x y : Lifetime σ} (h : x.Step y) : x.reactor.Copies y.reactor := by
  cases h with
  | request now q => exact .of_posts rfl (Service.posts_perform x.service now q)
  | dispatch max => exact .of_posts rfl (Service.posts_dispatch max x.service x.reactor.world)
  | world w => exact .of_posts rfl (.refl _)
  | answer h answer time => exact ⟨.inl rfl, Nat.le_refl _, fun _ => rfl⟩
  | refresh hrunning =>
    simp only [Reactor.refreshOptions]
    split
    · exact .of_posts rfl (.refl _)
    · exact ⟨.inr rfl, Nat.le_refl _, fun _ => rfl⟩
  | act hrunning a =>
    have hfollows := Reactor.follows_act x.reactor a
    exact .of_posts hfollows.snapshot hfollows.posts
  | @command c rest hrunning hc =>
    obtain ⟨hsnapshot, hposts⟩ := Reactor.keeps_perform (x.reactor.withCommands rest) c
    exact ⟨.inl hsnapshot, hposts.version, hposts.options⟩
  | stop hrunning hstopping =>
    obtain ⟨r, hquiet, hteardown⟩ := Reactor.quiet_teardown x.reactor
    rw [hteardown]
    exact ⟨.inl hquiet.snapshot, hquiet.posts.version, hquiet.posts.options⟩
  | start hrunning callback endpoints =>
    have hstart : (x.service.start callback endpoints.length).version = x.service.version ∧
        (x.service.start callback endpoints.length).options = x.service.options := by
      unfold Service.start
      split <;> exact ⟨rfl, rfl⟩
    exact ⟨.inr rfl, Nat.le_of_eq hstart.1.symm, fun _ => hstart.2⟩

theorem Reachable.fresh {x : Lifetime σ} (h : x.Reachable) : x.reactor.Fresh :=
  h.invariant (fun _ _ => ⟨Nat.le_refl _, fun _ => rfl⟩) fun _ _ hstep hx => hstep.copies.fresh hx

theorem Steps.versions_le {x y : Lifetime σ} (h : x.Steps y) (hx : x.reactor.Fresh) :
    x.service.version ≤ y.service.version ∧ x.reactor.version ≤ y.reactor.version ∧
      y.reactor.Fresh := by
  induction h with
  | refl => exact ⟨Nat.le_refl _, Nat.le_refl _, hx⟩
  | tail _ hstep ih =>
    obtain ⟨hservice, hreactor, hfresh⟩ := ih
    have hcopies := hstep.copies
    exact ⟨Nat.le_trans hservice hcopies.version, Nat.le_trans hreactor (hcopies.le hfresh),
      hcopies.fresh hfresh⟩

/-- **The loop has a change exactly if it was up to date at some moment since the change.** -/
theorem has_change_iff_renewed {x y : Lifetime σ} (hx : x.Reachable) (h : x.Steps y) :
    x.service.version ≤ y.reactor.version ↔
      ∃ z, x.Steps z ∧ z.Steps y ∧ z.reactor.version = z.service.version := by
  have hfresh := hx.fresh
  constructor
  · intro hle
    induction h with
    | refl => exact ⟨x, .refl, .refl, Nat.le_antisymm hfresh.version hle⟩
    | @tail y y' hsteps hstep ih =>
      rcases hstep.copies.snapshot with hsame | hnew
      · obtain ⟨z, hxz, hzy, hrenewed⟩ := ih (by rwa [(Prod.mk.inj hsame).2] at hle)
        exact ⟨z, hxz, hzy.tail hstep, hrenewed⟩
      · exact ⟨y', hsteps.tail hstep, .refl, (Prod.mk.inj hnew).2⟩
  · rintro ⟨z, hxz, hzy, hrenewed⟩
    obtain ⟨hservice, -, hz⟩ := hxz.versions_le hfresh
    obtain ⟨-, hreactor, -⟩ := hzy.versions_le hz
    omega

/-! ## A change during a wait -/

open Simulation in
/-- **An open may be carried out without a change that was made before it was asked for**: the loop
waits, a resolver is set, and then a channel is opened. -/
theorem stale_open : ∃ x y z : Lifetime Isolated, x.Reachable ∧
    y = x.withService (x.service.perform ⟨0⟩ (.setOption (.resolver (some 7)))).2 ∧
    z = y.withService (y.service.perform ⟨0⟩ (.openChannel 0 .tcpServer)).2 ∧
    z.service.commands = [.openChannel 0 .tcpServer] ∧ z.service.running ∧
    z.service.options.resolver = some 7 ∧ z.reactor.options.resolver = none := by
  have hnew : (new (σ := Isolated) Options.standard .new).Reachable := ⟨_, _, .refl⟩
  have hstart := hnew.step (.start rfl 0 [⟨"svc.test", 80⟩])
  have hfresh := hstart.step (.refresh (by rfl))
  have hwaits := hfresh.step (.act (by rfl) (.await .zero))
  exact ⟨_, _, _, hwaits, rfl, rfl, by rfl, by rfl, by rfl, by rfl⟩

end Lifetime

end NetReactor
