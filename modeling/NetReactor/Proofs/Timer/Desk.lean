import NetReactor.Proofs.Reactor.Rows
import NetReactor.Proofs.Timer.Keyed

/-!
# The channels' timers among the application's

Channels and application share one timer queue, and a channel knows its timer by the handle in its slot.
**What waits under a handle is what was put there when the handle was issued**: the queue only loses
timers, and what is due is on its way (`Desk`). So no call of the application can put anything under a
channel's handle; and as long as the application takes out only what it was given (`Owned`), **the timer
of a channel waits until the channel drops it or it fires** (`Desk.Armed`).
-/

namespace NetReactor

namespace Timer

/-- The application cancelled and removed only timers that it was given. The latest call comes first. -/
def Owned : List Call → Prop
  | [] => True
  | .scheduled _ :: earlier => Owned earlier
  | .cancelled h :: earlier | .removed h :: earlier => .scheduled h ∈ earlier ∧ Owned earlier

instance decidableOwned : (calls : List Call) → Decidable (Owned calls)
  | [] => isTrue trivial
  | .scheduled _ :: earlier => decidableOwned earlier
  | .cancelled h :: earlier | .removed h :: earlier =>
    have := decidableOwned earlier
    inferInstanceAs (Decidable (.scheduled h ∈ earlier ∧ Owned earlier))

theorem Owned.scheduled_of_cancelled {calls : List Call} (h : Owned calls) {g : Handle}
    (hg : .cancelled g ∈ calls) : .scheduled g ∈ calls := by
  induction calls with
  | nil => simp at hg
  | cons call earlier ih =>
    cases call with
    | scheduled g' => exact List.mem_cons_of_mem _ (ih h (by simpa using hg))
    | cancelled g' =>
      rcases List.mem_cons.1 hg with heq | hg
      · exact List.mem_cons_of_mem _ (Call.cancelled.inj heq ▸ h.1)
      · exact List.mem_cons_of_mem _ (ih h.2 hg)
    | removed g' => exact List.mem_cons_of_mem _ (ih h.2 (by simpa using hg))

end Timer

open Timer (Expired Call Owned)

/-- The channels' timer slots, the queue, the next handle, the application's calls, and what is due and
still to fire. -/
structure Desk where
  slots : List (Option Timer.Handle)
  timers : Timer.Queue Task
  next : Timer.Handle
  calls : List Call
  due : List (Expired Task)

namespace Desk

/-- One change. -/
inductive Move : Desk → Desk → Prop
  | schedule {v : Desk} (now : Instant) (delay : Duration) (again : Bool) (timer : Nat) :
      Move v { v with
        timers := v.timers.insert v.next (.after now delay again (.user timer))
        next := v.next + 1
        calls := .scheduled v.next :: v.calls }
  | cancel {v : Desk} (now : Instant) (h : Timer.Handle) :
      Move v { v with timers := (v.timers.cancel now h).2, calls := .cancelled h :: v.calls }
  | remove {v : Desk} (h : Timer.Handle) :
      Move v { v with timers := (v.timers.remove h).2, calls := .removed h :: v.calls }
  | wait {v : Desk} : Move v { v with timers := v.timers.nextDeadline.2 }
  | drop {v : Desk} {i : Nat} {h : Timer.Handle} (hh : v.slots[i]? = some (some h)) :
      Move v { v with timers := (v.timers.remove h).2, slots := v.slots.set i none }
  | take {v : Desk} (i : Nat) : Move v { v with slots := v.slots.set i none }
  | arm {v : Desk} {i : Nat} (now : Instant) (delay : Duration) {task : Task}
      (htask : task.channel? = some i) :
      Move v { v with
        timers := v.timers.insert v.next (.after now delay false task)
        next := v.next + 1
        slots := v.slots.set i (some v.next) }

/-- Any number of changes. -/
def Moves : Desk → Desk → Prop := Relation.ReflTransGen Move

/-- A timer waits under the handle, in the queue or due. -/
def Waits (v : Desk) (h : Timer.Handle) (task : Task) : Prop :=
  (∃ e, Timer.Queue.lookup h v.timers.entries = some e ∧ e.payload = task) ∨
    ∃ x ∈ v.due, x.handle = h ∧ x.payload = task

/-- The handle was issued, and nothing but this task can wait under it. -/
def Tagged (v : Desk) (h : Timer.Handle) (task : Task) : Prop :=
  h < v.next ∧ ∀ task', v.Waits h task' → task' = task

/-- Handles are issued once; what the application was given is its own, and what a channel's slot names
is the channel's. -/
structure Sound (v : Desk) : Prop where
  keyed : Timer.Queue.Keyed (· < v.next) v.timers
  due : ∀ x ∈ v.due, x.handle < v.next
  calls : ∀ {h}, .scheduled h ∈ v.calls →
    h < v.next ∧ ∀ task, v.Waits h task → task.channel? = none
  slots : ∀ {i : Nat} {h}, v.slots[i]? = some (some h) →
    h < v.next ∧ ∀ task, v.Waits h task → task.channel? = some i

/-- Under every handle in a slot a timer waits. -/
def Armed (v : Desk) : Prop := ∀ {i : Nat} {h}, v.slots[i]? = some (some h) → ∃ task, v.Waits h task

/-- Later, with fewer timers under the handles issued before. -/
structure Follows (v v' : Desk) : Prop where
  next : v.next ≤ v'.next
  waits : ∀ {h task}, h < v.next → v'.Waits h task → v.Waits h task

theorem Follows.refl (v : Desk) : v.Follows v := ⟨Nat.le_refl _, fun _ => id⟩

theorem Follows.trans {v v' v'' : Desk} (h : v.Follows v') (h' : v'.Follows v'') : v.Follows v'' :=
  ⟨Nat.le_trans h.next h'.next,
    fun hlt hwaits => h.waits hlt (h'.waits (Nat.lt_of_lt_of_le hlt h.next) hwaits)⟩

theorem Tagged.follows {v v' : Desk} {h : Timer.Handle} {task : Task} (ht : v.Tagged h task)
    (hv : v.Follows v') : v'.Tagged h task :=
  ⟨Nat.lt_of_lt_of_le ht.1 hv.next, fun task' hwaits => ht.2 task' (hv.waits ht.1 hwaits)⟩

/-! ## What waits after a change -/

variable {v v' : Desk}

theorem lookup_insert_of_ne {g h : Timer.Handle} (hne : g ≠ h) (q : Timer.Queue Task)
    (e : Timer.Entry Task) :
    Timer.Queue.lookup g (q.insert h e).entries = Timer.Queue.lookup g q.entries :=
  Timer.Queue.lookup_put_of_ne hne e _

/-- A cancelled timer is still there, with its payload. -/
theorem payload_cancel (q : Timer.Queue Task) (now : Instant) (h g : Timer.Handle) :
    (Timer.Queue.lookup g (q.cancel now h).2.entries).map (·.payload) =
      (Timer.Queue.lookup g q.entries).map (·.payload) := by
  unfold Timer.Queue.cancel Timer.Queue.get?
  cases he : Timer.Queue.lookup h q.entries with
  | none => rfl
  | some e =>
    cases hc : e.cancelled with
    | true => simp [hc]
    | false =>
      by_cases hg : g = h
      · subst hg
        simp [hc, he]
      · simp [hc, Timer.Queue.lookup_put_of_ne hg]

theorem lookup_remove (q : Timer.Queue Task) (h g : Timer.Handle) :
    Timer.Queue.lookup g (q.remove h).2.entries =
      if g = h then none else Timer.Queue.lookup g q.entries := by
  unfold Timer.Queue.remove Timer.Queue.get?
  by_cases hg : g = h
  · subst hg
    cases he : Timer.Queue.lookup g q.entries <;> simp [he]
  · cases he : Timer.Queue.lookup h q.entries <;> simp [hg, Timer.Queue.lookup_erase_of_ne hg]

/-- What is there after a removal was there before, under another handle. -/
theorem ne_and_lookup_of_remove {q : Timer.Queue Task} {h g : Timer.Handle} {e : Timer.Entry Task}
    (he : Timer.Queue.lookup g (q.remove h).2.entries = some e) :
    g ≠ h ∧ Timer.Queue.lookup g q.entries = some e := by
  rw [lookup_remove] at he
  split at he
  · simp at he
  · exact ⟨‹g ≠ h›, he⟩

theorem waits_iff (v : Desk) (h : Timer.Handle) (task : Task) :
    v.Waits h task ↔ (Timer.Queue.lookup h v.timers.entries).map (·.payload) = some task ∨
      ∃ x ∈ v.due, x.handle = h ∧ x.payload = task := by
  rw [Waits, Option.map_eq_some_iff]

/-- What waits after a change waited before, but for what was put under the next handle. -/
theorem Move.follows (hm : Move v v') : v.Follows v' := by
  have hinsert : ∀ (e : Timer.Entry Task) (slots calls) {h task}, h < v.next →
      Waits { v with timers := v.timers.insert v.next e, next := v.next + 1, slots := slots, calls := calls } h task →
        v.Waits h task := by
    intro e slots calls h task hlt hwaits
    have hne : h ≠ v.next := Nat.ne_of_lt hlt
    simpa only [Waits, lookup_insert_of_ne hne] using hwaits
  have hremove : ∀ (g : Timer.Handle) (slots calls) {h task},
      Waits { v with timers := (v.timers.remove g).2, slots := slots, calls := calls } h task →
        v.Waits h task := by
    intro g slots calls h task hwaits
    rw [waits_iff, lookup_remove] at hwaits
    rw [waits_iff]
    refine hwaits.imp_left fun hsome => ?_
    split at hsome
    · simp at hsome
    · exact hsome
  cases hm with
  | schedule now delay again timer => exact ⟨Nat.le_succ _, hinsert _ _ _⟩
  | cancel now h =>
    refine ⟨Nat.le_refl _, fun _ hwaits => ?_⟩
    rw [waits_iff, payload_cancel] at hwaits
    exact (waits_iff _ _ _).2 hwaits
  | remove h => exact ⟨Nat.le_refl _, fun _ => hremove h _ _⟩
  | wait => exact ⟨Nat.le_refl _, fun _ => id⟩
  | drop hh => exact ⟨Nat.le_refl _, fun _ => hremove _ _ _⟩
  | take i => exact ⟨Nat.le_refl _, fun _ => id⟩
  | arm now delay htask => exact ⟨Nat.le_succ _, hinsert _ _ _⟩

theorem Moves.follows (h : Moves v v') : v.Follows v' := by
  induction h with
  | refl => exact .refl v
  | tail _ hm ih => exact ih.trans hm.follows

/-- Nothing waits under the next handle but what is put there. -/
theorem waits_insert_next (hs : v.Sound) {e : Timer.Entry Task} {slots calls} {task : Task}
    (h : Waits { v with
      timers := v.timers.insert v.next e, next := v.next + 1, slots := slots, calls := calls }
        v.next task) : task = e.payload := by
  rcases h with ⟨e', he', rfl⟩ | ⟨x, hx, hhandle, -⟩
  · have hself : Timer.Queue.lookup v.next (v.timers.insert v.next e).entries = some e :=
      Timer.Queue.lookup_put_self _ _ _
    rw [Option.some.inj (hself.symm.trans he')]
  · exact absurd hhandle (Nat.ne_of_lt (hs.due x hx))

theorem getElem?_set_some {slots : List (Option Timer.Handle)} {i j : Nat} {x : Option Timer.Handle}
    {h : Timer.Handle} (hj : (slots.set i x)[j]? = some (some h)) :
    j = i ∧ x = some h ∨ j ≠ i ∧ slots[j]? = some (some h) := by
  rw [List.getElem?_set] at hj
  split at hj
  · rename_i hij
    split at hj
    · exact .inl ⟨hij.symm, Option.some.inj hj⟩
    · simp at hj
  · rename_i hij
    exact .inr ⟨Ne.symm hij, hj⟩

/-! ## The desk stays sound -/

theorem keyed_insert_next (hs : v.Sound) (e : Timer.Entry Task) :
    Timer.Queue.Keyed (· < v.next + 1) (v.timers.insert v.next e) :=
  (hs.keyed.insert (Nat.lt_irrefl v.next) e).mono fun g hg => by
    rcases hg with hg | hg
    · exact Nat.lt_succ_of_lt hg
    · exact hg ▸ Nat.lt_succ_self _

/-- Slots that were there before stay right. -/
theorem Sound.slot_follows (hs : v.Sound) (hv : v.Follows v') {i : Nat} {h : Timer.Handle}
    (hh : v.slots[i]? = some (some h)) :
    h < v'.next ∧ ∀ task, v'.Waits h task → task.channel? = some i := by
  obtain ⟨hlt, hwaits⟩ := hs.slots hh
  exact ⟨Nat.lt_of_lt_of_le hlt hv.next, fun task hw => hwaits task (hv.waits hlt hw)⟩

theorem Sound.call_follows (hs : v.Sound) (hv : v.Follows v') {h : Timer.Handle}
    (hh : .scheduled h ∈ v.calls) : h < v'.next ∧ ∀ task, v'.Waits h task → task.channel? = none := by
  obtain ⟨hlt, hwaits⟩ := hs.calls hh
  exact ⟨Nat.lt_of_lt_of_le hlt hv.next, fun task hw => hwaits task (hv.waits hlt hw)⟩

theorem Move.sound (hm : Move v v') (hs : v.Sound) : v'.Sound := by
  have hv := hm.follows
  have hdue : ∀ x ∈ v.due, x.handle < v'.next := fun x hx => Nat.lt_of_lt_of_le (hs.due x hx) hv.next
  cases hm with
  | schedule now delay again timer =>
    refine ⟨keyed_insert_next hs _, hdue, fun {h} hh => ?_, hs.slot_follows hv⟩
    rcases List.mem_cons.1 hh with heq | hh
    · obtain rfl := Call.scheduled.inj heq
      refine ⟨Nat.lt_succ_self _, fun task hw => ?_⟩
      rw [waits_insert_next hs hw]
      rfl
    · exact hs.call_follows hv hh
  | cancel now h =>
    refine ⟨hs.keyed.cancel now h, hdue, fun hh => hs.call_follows hv ?_, hs.slot_follows hv⟩
    simpa using hh
  | remove h =>
    refine ⟨hs.keyed.remove h, hdue, fun hh => hs.call_follows hv ?_, hs.slot_follows hv⟩
    simpa using hh
  | wait => exact ⟨hs.keyed.nextDeadline, hdue, hs.call_follows hv, hs.slot_follows hv⟩
  | drop hh =>
    refine ⟨hs.keyed.remove _, hdue, hs.call_follows hv, fun hslot => ?_⟩
    rcases getElem?_set_some hslot with ⟨-, hnone⟩ | ⟨-, hslot⟩
    · simp at hnone
    · exact hs.slot_follows hv hslot
  | take i =>
    refine ⟨hs.keyed, hdue, hs.call_follows hv, fun hslot => ?_⟩
    rcases getElem?_set_some hslot with ⟨-, hnone⟩ | ⟨-, hslot⟩
    · simp at hnone
    · exact hs.slot_follows hv hslot
  | arm now delay htask =>
    refine ⟨keyed_insert_next hs _, hdue, hs.call_follows hv, fun hslot => ?_⟩
    rcases getElem?_set_some hslot with ⟨rfl, hnext⟩ | ⟨-, hslot⟩
    · obtain rfl := Option.some.inj hnext
      refine ⟨Nat.lt_succ_self _, fun task hw => ?_⟩
      rw [waits_insert_next hs hw]
      exact htask
    · exact hs.slot_follows hv hslot

theorem Moves.sound (h : Moves v v') (hs : v.Sound) : v'.Sound := by
  induction h with
  | refl => exact hs
  | tail _ hm ih => exact hm.sound ih

/-! ## A channel's timer waits -/

theorem Move.owned (hm : Move v v') (h : Owned v'.calls) : Owned v.calls := by
  cases hm with
  | schedule now delay again timer => exact h
  | cancel now g => exact h.2
  | remove g => exact h.2
  | _ => exact h

theorem Moves.owned (h : Moves v v') (howned : Owned v'.calls) : Owned v.calls := by
  induction h with
  | refl => exact howned
  | tail _ hm ih => exact ih (hm.owned howned)

theorem waits_insert_of_waits (e : Timer.Entry Task) (slots calls) {h : Timer.Handle}
    {task : Task} (hlt : h < v.next) (hw : v.Waits h task) :
    Waits { v with
      timers := v.timers.insert v.next e, next := v.next + 1, slots := slots, calls := calls }
        h task := by
  have hne : h ≠ v.next := Nat.ne_of_lt hlt
  simpa only [Waits, lookup_insert_of_ne hne] using hw

theorem waits_remove_of_waits {g h : Timer.Handle} (hne : h ≠ g) (slots calls) {task : Task}
    (hw : v.Waits h task) :
    Waits { v with timers := (v.timers.remove g).2, slots := slots, calls := calls } h task := by
  rw [waits_iff, lookup_remove, if_neg hne]
  exact (waits_iff _ _ _).1 hw

/-- **The application cannot take a channel's timer away**, if it takes out only what it was given. -/
theorem Move.armed (hm : Move v v') (hs : v.Sound) (howned : Owned v'.calls) (ha : v.Armed) :
    v'.Armed := by
  cases hm with
  | schedule now delay again timer =>
    intro i h hh
    obtain ⟨task, hw⟩ := ha hh
    exact ⟨task, waits_insert_of_waits _ _ _ (hs.slots hh).1 hw⟩
  | cancel now g =>
    intro i h hh
    obtain ⟨task, hw⟩ := ha hh
    refine ⟨task, (waits_iff _ _ _).2 ?_⟩
    rw [payload_cancel]
    exact (waits_iff _ _ _).1 hw
  | remove g =>
    intro i h hh
    obtain ⟨task, hw⟩ := ha hh
    have hne : h ≠ g := by
      rintro rfl
      have hnone := (hs.calls howned.1).2 task hw
      simp [(hs.slots hh).2 task hw] at hnone
    exact ⟨task, waits_remove_of_waits hne _ _ hw⟩
  | wait => exact ha
  | @drop i g hg =>
    intro j h hh
    rcases getElem?_set_some hh with ⟨-, hnone⟩ | ⟨hji, hslot⟩
    · simp at hnone
    · obtain ⟨task, hw⟩ := ha hslot
      have hne : h ≠ g := by
        rintro rfl
        have hsame := (hs.slots hg).2 task hw
        rw [(hs.slots hslot).2 task hw, Option.some.injEq] at hsame
        exact hji hsame
      exact ⟨task, waits_remove_of_waits hne _ _ hw⟩
  | take i =>
    intro j h hh
    rcases getElem?_set_some hh with ⟨-, hnone⟩ | ⟨-, hh⟩
    · simp at hnone
    · exact ha hh
  | @arm i now delay task htask =>
    intro j h hh
    rcases getElem?_set_some hh with ⟨-, hnext⟩ | ⟨-, hh⟩
    · obtain rfl := Option.some.inj hnext
      exact ⟨task, .inl ⟨_, Timer.Queue.lookup_put_self _ _ _, rfl⟩⟩
    · obtain ⟨task', hw⟩ := ha hh
      exact ⟨task', waits_insert_of_waits _ _ _ (hs.slots hh).1 hw⟩

theorem Moves.armed (h : Moves v v') (hs : v.Sound) (howned : Owned v'.calls) (ha : v.Armed) :
    v'.Armed := by
  induction h with
  | refl => exact ha
  | tail hmoves hm ih => exact hm.armed (Moves.sound hmoves hs) howned (ih (hm.owned howned))

/-- The application cancels no timer of a channel, if it cancels only what it was given. -/
theorem Sound.not_cancelled (hs : v.Sound) (howned : Owned v.calls) {g : Timer.Handle} {task : Task}
    {i : Nat} (hwaits : v.Waits g task) (hi : task.channel? = some i) : .cancelled g ∉ v.calls := by
  intro hcancelled
  have hnone := (hs.calls (howned.scheduled_of_cancelled hcancelled)).2 task hwaits
  simp [hi] at hnone

/-- A handle that a slot does not name is not named by it again. -/
theorem Moves.not_named (h : Moves v v') {i : Nat} {g : Timer.Handle} (hlt : g < v.next)
    (hnot : v.slots[i]? ≠ some (some g)) : v'.slots[i]? ≠ some (some g) := by
  induction h with
  | refl => exact hnot
  | @tail b c hmoves hm ih =>
    have hlt' : g < b.next := Nat.lt_of_lt_of_le hlt (Moves.follows hmoves).next
    cases hm with
    | drop hh =>
      intro hslot
      rcases getElem?_set_some hslot with ⟨-, hnone⟩ | ⟨-, hslot⟩
      · simp at hnone
      · exact ih hslot
    | take j =>
      intro hslot
      rcases getElem?_set_some hslot with ⟨-, hnone⟩ | ⟨-, hslot⟩
      · simp at hnone
      · exact ih hslot
    | arm now delay htask =>
      intro hslot
      rcases getElem?_set_some hslot with ⟨-, hnext⟩ | ⟨-, hslot⟩
      · exact absurd (Option.some.inj hnext).symm (Nat.ne_of_lt hlt')
      · exact ih hslot
    | _ => exact ih

/-! ## Timers that are due -/

/-- The desk once the timers due are taken off the queue. -/
def poll (v : Desk) (now : Instant) : Desk :=
  { v with timers := (v.timers.pollExpired now).2, due := (v.timers.pollExpired now).1 }

/-- **A poll moves timers from the queue to those due, and loses none.** -/
theorem waits_poll (hs : v.Sound) (hdue : v.due = []) (now : Instant) {h : Timer.Handle} {task : Task} :
    (v.poll now).Waits h task ↔ v.Waits h task := by
  have hlookup := hs.keyed.lookup_pollExpired now h
  constructor
  · rintro (⟨e', he', rfl⟩ | ⟨x, hx, rfl, rfl⟩)
    · rw [show (v.poll now).timers = (v.timers.pollExpired now).2 from rfl, hlookup] at he'
      obtain ⟨e, he, he'⟩ := Option.bind_eq_some_iff.1 he'
      refine .inl ⟨e, he, ?_⟩
      split at he'
      · obtain ⟨interval, -, rfl⟩ := Option.map_eq_some_iff.1 he'
        rfl
      · rw [Option.some.inj he']
    · obtain ⟨e, he, -, hpayload, -⟩ := hs.keyed.mem_pollExpired.1 hx
      exact .inl ⟨e, he, hpayload⟩
  · rintro (⟨e, he, rfl⟩ | ⟨x, hx, -⟩)
    · by_cases hexpired : e.isExpired now = true
      · refine .inr ⟨⟨h, e.payload, e.cancelled⟩, ?_, rfl, rfl⟩
        exact hs.keyed.mem_pollExpired.2 ⟨e, he, hexpired, rfl, rfl⟩
      · refine .inl ⟨e, ?_, rfl⟩
        rw [show (v.poll now).timers = (v.timers.pollExpired now).2 from rfl, hlookup, he]
        simp [hexpired]
    · simp [hdue] at hx

theorem follows_poll (hs : v.Sound) (hdue : v.due = []) (now : Instant) : v.Follows (v.poll now) :=
  ⟨Nat.le_refl _, fun _ => (waits_poll hs hdue now).1⟩

theorem sound_poll (hs : v.Sound) (hdue : v.due = []) (now : Instant) : (v.poll now).Sound := by
  have hv := follows_poll hs hdue now
  refine ⟨hs.keyed.pollExpired now, fun x hx => ?_, hs.call_follows hv, hs.slot_follows hv⟩
  obtain ⟨e, he, -⟩ := hs.keyed.mem_pollExpired.1 hx
  exact hs.keyed.issued_of_lookup he

theorem armed_poll (hs : v.Sound) (hdue : v.due = []) (now : Instant) (ha : v.Armed) :
    (v.poll now).Armed := fun hh => by
  obtain ⟨task, hw⟩ := ha hh
  exact ⟨task, (waits_poll hs hdue now).2 hw⟩

/-- The desk with fewer timers due. -/
theorem follows_due {due : List (Expired Task)} (hsub : ∀ x ∈ due, x ∈ v.due) :
    v.Follows { v with due := due } :=
  ⟨Nat.le_refl _, fun _ hw => hw.imp_right fun ⟨x, hx, hsame⟩ => ⟨x, hsub x hx, hsame⟩⟩

theorem sound_due {due : List (Expired Task)} (hsub : ∀ x ∈ due, x ∈ v.due) (hs : v.Sound) :
    Sound { v with due := due } :=
  ⟨hs.keyed, fun x hx => hs.due x (hsub x hx), hs.call_follows (follows_due hsub),
    hs.slot_follows (follows_due hsub)⟩

/-- Once a timer has fired, its channel's slot does not name it any more. -/
theorem armed_rest {e : Expired Task} {rest : List (Expired Task)} (hdue : v.due = e :: rest)
    (hs : v.Sound) (ha : v.Armed)
    (hnot : ∀ i, e.payload.channel? = some i → v.slots[i]? ≠ some (some e.handle)) :
    Armed { v with due := rest } := by
  intro i h hh
  obtain ⟨task, hw⟩ := ha hh
  refine ⟨task, hw.imp_right ?_⟩
  rintro ⟨x, hx, rfl, rfl⟩
  rw [hdue, List.mem_cons] at hx
  rcases hx with rfl | hx
  · exact absurd hh (hnot i ((hs.slots hh).2 _ hw))
  · exact ⟨x, hx, rfl, rfl⟩

end Desk

/-! ## The loop's desk -/

namespace Reactor

variable {σ : Type}

def desk (r : Reactor σ) (due : List (Expired Task)) : Desk :=
  ⟨r.channels.map (·.timer), r.service.timers, r.service.nextTimer, r.service.timerCalls, due⟩

theorem slots_set (channels : List Channel) (i : Nat) (x : Option Timer.Handle) :
    (channels.modify i ({ · with timer := x })).map (·.timer) = (channels.map (·.timer)).set i x := by
  refine List.ext_getElem? fun k => ?_
  simp only [List.getElem?_map, List.getElem?_modify, List.getElem?_set, List.length_map]
  by_cases hk : i = k
  · subst hk
    cases hc : channels[i]? with
    | none => simp [List.getElem?_eq_none_iff.1 hc]
    | some c => simp [(List.getElem?_eq_some_iff.1 hc).1]
  · cases channels[k]? <;> simp [hk]

theorem slots_keep {channels : List Channel} {i : Nat} {f : Channel → Channel}
    (hf : ∀ c, channels[i]? = some c → (f c).timer = c.timer) :
    (channels.modify i f).map (·.timer) = channels.map (·.timer) := by
  refine List.ext_getElem? fun k => ?_
  simp only [List.getElem?_map, List.getElem?_modify]
  by_cases hk : i = k
  · subst hk
    cases hc : channels[i]? with
    | none => rfl
    | some c => simp [hf c hc]
  · cases channels[k]? <;> simp [hk]

theorem desk_congr {r r' : Reactor σ} (due : List (Expired Task))
    (hslots : r'.channels.map (·.timer) = r.channels.map (·.timer))
    (hbooks : r'.service.books.2 = r.service.books.2) : r'.desk due = r.desk due := by
  simp only [Service.books, Prod.mk.injEq] at hbooks
  simp only [desk, hslots, hbooks]

theorem desk_plays {r r' : Reactor σ} {s : Service} (due : List (Expired Task))
    (hslots : r'.channels.map (·.timer) = r.channels.map (·.timer))
    (hbooks : s.books.2 = r.service.books.2) (h : s.Plays r'.service) :
    (r.desk due).Moves (r'.desk due) := by
  have hstart : r.desk due = ⟨r'.channels.map (·.timer), s.timers, s.nextTimer, s.timerCalls, due⟩ := by
    simp only [Service.books, Prod.mk.injEq] at hbooks
    simp only [desk, hslots, hbooks]
  rw [hstart, desk]
  generalize r'.service = s' at h
  induction h with
  | refl => exact .refl
  | tail _ hplay ih =>
    cases hplay with
    | same hsame =>
      have hsame := congrArg (·.2) hsame
      simp only [Service.books, Prod.mk.injEq] at hsame
      rwa [hsame.1, hsame.2.1, hsame.2.2]
    | schedule now delay again timer => exact ih.tail (.schedule now delay again timer)
    | cancel now h => exact ih.tail (.cancel now h)
    | remove h => exact ih.tail (.remove h)
    | wait => exact ih.tail .wait

variable [Host σ] {r r' : Reactor σ} {i : Nat}

/-- **A move changes the desk by its channel's slot and the application's calls.** -/
theorem Move.desk (h : Move i r r') (due : List (Expired Task)) :
    (r.desk due).Moves (r'.desk due) := by
  have hsame : ∀ {r r' : Reactor σ}, r'.channels.map (·.timer) = r.channels.map (·.timer) →
      r'.service.books.2 = r.service.books.2 → (r.desk due).Moves (r'.desk due) :=
    fun hslots hbooks => desk_congr due hslots hbooks ▸ .refl
  cases h with
  | aside hservice hchannels htransports => exact hsame (by rw [hchannels]) (by rw [hservice])
  | play hplay => exact desk_plays due rfl rfl (.single hplay)
  | channel hf => exact hsame (slots_keep fun c hc => (hf c hc).2) rfl
  | state s => exact hsame (slots_keep fun _ _ => rfl) rfl
  | @drop h hh =>
    have hslot : (r.desk due).slots[i]? = some (some h) := by
      obtain ⟨c, hc, htimer⟩ := Option.bind_eq_some_iff.1 hh
      have hc : r.channels[i]? = some c := hc
      simp only [desk, List.getElem?_map, hc, Option.map_some, htimer]
    have hdrop := Desk.Move.drop hslot
    simp only [desk, ← slots_set] at hdrop
    exact .single hdrop
  | take =>
    have htake := Desk.Move.take (v := r.desk due) i
    simp only [desk, ← slots_set] at htake
    exact .single htake
  | arm now delay htask =>
    have harm := Desk.Move.arm (v := r.desk due) now delay htask
    simp only [desk, ← slots_set] at harm
    exact .single harm
  | transport id hf => exact hsame rfl rfl
  | refuse h => exact hsame rfl rfl
  | packet ht channel payload => exact hsame rfl rfl
  | announce mask d => exact hsame rfl rfl
  | @greet s mask d hplays channel payload =>
    have hplayed : (r.desk due).Moves ({ r.announced i mask d with service := s }.desk due) :=
      desk_plays (s := (r.announced i mask d).service) due rfl rfl hplays
    exact hplayed
  | @lose id t s status ht hi hplays =>
    exact desk_plays (r := r) (s := (r.farewell t status).service) due rfl rfl hplays

theorem Trail.desk (h : Trail r r') (due : List (Expired Task)) :
    (r.desk due).Moves (r'.desk due) := by
  induction h with
  | refl => exact .refl
  | tail _ hmove ih =>
    obtain ⟨k, hmove⟩ := hmove
    exact Relation.ReflTransGen.trans ih (hmove.desk due)

end Reactor

end NetReactor
