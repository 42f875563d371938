import NetReactor.Proofs.Timer.Desk

/-!
# How a timer ends

A timer that was taken out is gone, and **no change of the desk and no poll brings it back** (`Gone`): handles
are issued once. One of the application's timers that was cancelled is doomed (`Doomed`): it waits with the
deadline that the cancel gave it. **Only the application's own removal, or the poll that calls it for the last
time, ends this wait** (`Moves.doomed`, `Doomed.poll`); a second cancel changes nothing, and no channel drops it.
-/

namespace NetReactor

open Timer (Expired Call)

namespace Timer

/-- The calls of one timer, among others. -/
def callsOf {α : Type} (h : Handle) (calls : List (Expired α)) : List (Expired α) := calls.filter (·.handle = h)

section
variable {α : Type} {h : Handle}

theorem callsOf_append (h : Handle) (a b : List (Expired α)) :
    callsOf h (a ++ b) = callsOf h a ++ callsOf h b :=
  List.filter_append a b

theorem callsOf_eq_nil {calls : List (Expired α)} (hnone : ∀ x ∈ calls, x.handle ≠ h) :
    callsOf h calls = [] :=
  List.filter_eq_nil_iff.2 fun x hx => by simpa using hnone x hx

/-- Where every timer is called once, a call is all there is of its timer. -/
theorem callsOf_eq_singleton {calls : List (Expired α)} (hnodup : (calls.map (·.handle)).Nodup) {x : Expired α}
    (hx : x ∈ calls) : callsOf x.handle calls = [x] := by
  induction calls with
  | nil => simp at hx
  | cons y rest ih =>
    obtain ⟨hfresh, hrest⟩ := List.nodup_cons.1 hnodup
    rcases List.mem_cons.1 hx with rfl | hx
    · have hnone : callsOf x.handle rest = [] :=
        callsOf_eq_nil fun z hz heq => hfresh (List.mem_map.2 ⟨z, hz, heq⟩)
      rw [callsOf, List.filter_cons_of_pos (by simp), ← callsOf, hnone]
    · have hne : y.handle ≠ x.handle := fun heq => hfresh (List.mem_map.2 ⟨x, hx, heq.symm⟩)
      rw [callsOf, List.filter_cons_of_neg (by simpa using hne)]
      exact ih hrest hx

theorem length_callsOf_le {calls : List (Expired α)} (hnodup : (calls.map (·.handle)).Nodup) (h : Handle) :
    (callsOf h calls).length ≤ 1 := by
  by_cases hx : ∃ x ∈ calls, x.handle = h
  · obtain ⟨x, hx, rfl⟩ := hx
    rw [callsOf_eq_singleton hnodup hx]
    rfl
  · rw [callsOf_eq_nil fun x hmem heq => hx ⟨x, hmem, heq⟩]
    exact Nat.zero_le 1

end

namespace Queue

variable {α : Type} {q : Queue α} {now : Instant} {h : Handle}

/-- A cancel that is answered with `true` leaves the timer due now, for the last time. -/
theorem exists_of_cancel (hfound : (q.cancel now h).1 = true) : ∃ e, q.get? h = some e ∧
    (q.cancel now h).2.get? h = some { e with cancelled := true, deadline := now } := by
  unfold cancel at hfound ⊢
  cases he : q.get? h with
  | none => simp [he] at hfound
  | some e =>
    by_cases hcancelled : e.cancelled = true
    · simp [he, hcancelled] at hfound
    · simp only [hcancelled, Bool.false_eq_true, if_false]
      exact ⟨e, rfl, lookup_put_self h _ q.entries⟩

/-- Nothing happens to a cancelled timer, whatever is cancelled. -/
theorem get?_cancel_of_cancelled {g : Handle} {e : Entry α} (he : q.get? g = some e)
    (hcancelled : e.cancelled = true) : (q.cancel now h).2.get? g = some e := by
  by_cases hg : g = h
  · subst hg
    simp [cancel, he, hcancelled]
  · unfold cancel
    split
    · exact he
    · split
      · exact he
      · exact (lookup_put_of_ne hg _ q.entries).trans he

theorem isSome_get?_of_remove (hfound : (q.remove h).1.isSome = true) : (q.get? h).isSome = true := by
  unfold remove at hfound
  cases he : q.get? h with
  | none => simp [he] at hfound
  | some e => rfl

end Queue

end Timer

open Timer (callsOf)

namespace Desk

/-- The handle was issued, and no timer waits under it in the queue. -/
structure Gone (v : Desk) (g : Timer.Handle) : Prop where
  issued : g < v.next
  absent : v.timers.get? g = none

/-- The application's timer was cancelled at `t`, and waits in the queue to be called for the last time. -/
def Doomed (v : Desk) (g : Timer.Handle) (timer : Nat) (t : Instant) : Prop :=
  ∃ kind, v.timers.get? g = some ⟨t, kind, true, .user timer⟩

variable {v v' : Desk} {g : Timer.Handle} {timer : Nat} {t : Instant}

/-! ## Changes -/

theorem get?_insert_of_lt (hlt : g < v.next) (e : Timer.Entry Task) :
    (v.timers.insert v.next e).get? g = v.timers.get? g :=
  lookup_insert_of_ne (Nat.ne_of_lt hlt) v.timers e

/-- **What is gone does not come back.** -/
theorem Move.gone (hm : Move v v') (h : v.Gone g) : v'.Gone g := by
  have hremoved : ∀ k, (v.timers.remove k).2.get? g = none := fun k => by
    refine (lookup_remove v.timers k g).trans ?_
    split
    · rfl
    · exact h.absent
  have hissued := Nat.lt_of_lt_of_le h.issued hm.follows.next
  refine ⟨hissued, ?_⟩
  cases hm with
  | schedule now delay again timer => exact (get?_insert_of_lt h.issued _).trans h.absent
  | arm now delay htask => exact (get?_insert_of_lt h.issued _).trans h.absent
  | cancel now k =>
    have hpayload := payload_cancel v.timers now k g
    rw [show Timer.Queue.lookup g v.timers.entries = none from h.absent] at hpayload
    exact Option.map_eq_none_iff.1 hpayload
  | remove k => exact hremoved k
  | drop hk => exact hremoved _
  | wait => exact h.absent
  | take i => exact h.absent

theorem Moves.gone (h : Moves v v') (hg : v.Gone g) : v'.Gone g := by
  induction h with
  | refl => exact hg
  | tail _ hm ih => exact hm.gone ih

/-- The calls of the application are a record that grows. -/
theorem Move.calls (hm : Move v v') : ∃ new, v'.calls = new ++ v.calls := by
  cases hm with
  | schedule now delay again timer => exact ⟨[.scheduled v.next], rfl⟩
  | cancel now k => exact ⟨[.cancelled k], rfl⟩
  | remove k => exact ⟨[.removed k], rfl⟩
  | _ => exact ⟨[], rfl⟩

theorem Moves.calls (h : Moves v v') : ∃ new, v'.calls = new ++ v.calls := by
  induction h with
  | refl => exact ⟨[], rfl⟩
  | tail _ hm ih =>
    obtain ⟨new, hnew⟩ := ih
    obtain ⟨more, hmore⟩ := hm.calls
    exact ⟨more ++ new, by rw [hmore, hnew, List.append_assoc]⟩

/-- The application is not given again what was issued before. -/
theorem Moves.scheduled (h : Moves v v') (hlt : g < v.next) (hg : .scheduled g ∈ v'.calls) :
    .scheduled g ∈ v.calls := by
  induction h with
  | refl => exact hg
  | @tail b c hmoves hm ih =>
    cases hm with
    | schedule now delay again timer =>
      rcases List.mem_cons.1 hg with heq | hg
      · have hissued : g < b.next := Nat.lt_of_lt_of_le hlt (Moves.follows hmoves).next
        exact absurd (Call.scheduled.inj heq) (Nat.ne_of_lt hissued)
      · exact ih hg
    | cancel now k => exact ih (by simpa using hg)
    | remove k => exact ih (by simpa using hg)
    | _ => exact ih hg

/-- A doomed timer is the application's. -/
theorem Doomed.waits (h : v.Doomed g timer t) : v.Waits g (.user timer) := by
  obtain ⟨kind, he⟩ := h
  exact .inl ⟨_, he, rfl⟩

/-- **Only the application ends the wait of a timer that it cancelled.** -/
theorem Move.doomed (hm : Move v v') (hs : v.Sound) (h : v.Doomed g timer t) :
    v'.Doomed g timer t ∨ v'.Gone g ∧ v'.calls = .removed g :: v.calls := by
  obtain ⟨kind, he⟩ := h
  have hissued : g < v.next := hs.keyed.issued_of_lookup he
  have hkept : ∀ {k}, g ≠ k → (v.timers.remove k).2.get? g = some ⟨t, kind, true, .user timer⟩ := by
    intro k hne
    refine (lookup_remove v.timers k g).trans ?_
    rw [if_neg hne]
    exact he
  cases hm with
  | schedule now delay again timer => exact .inl ⟨kind, (get?_insert_of_lt hissued _).trans he⟩
  | arm now delay htask => exact .inl ⟨kind, (get?_insert_of_lt hissued _).trans he⟩
  | cancel now k => exact .inl ⟨kind, Timer.Queue.get?_cancel_of_cancelled he rfl⟩
  | remove k =>
    by_cases hg : g = k
    · subst hg
      refine .inr ⟨⟨hissued, ?_⟩, rfl⟩
      exact (lookup_remove v.timers g g).trans (if_pos rfl)
    · exact .inl ⟨kind, hkept hg⟩
  | @drop i k hk =>
    have hg : g ≠ k := by
      rintro rfl
      have hchannel := (hs.slots hk).2 _ (Doomed.waits ⟨kind, he⟩)
      simp [Task.channel?] at hchannel
    exact .inl ⟨kind, hkept hg⟩
  | wait => exact .inl ⟨kind, he⟩
  | take i => exact .inl ⟨kind, he⟩

theorem Moves.doomed (h : Moves v v') (hs : v.Sound) (hd : v.Doomed g timer t) :
    v'.Doomed g timer t ∨ v'.Gone g ∧ ∃ new, v'.calls = new ++ v.calls ∧ .removed g ∈ new := by
  induction h with
  | refl => exact .inl hd
  | tail hmoves hm ih =>
    rcases ih with hd | ⟨hgone, new, hnew, hmem⟩
    · rcases hm.doomed (Moves.sound hmoves hs) hd with hd | ⟨hgone, hcalls⟩
      · exact .inl hd
      · obtain ⟨new, hnew⟩ := Moves.calls hmoves
        exact .inr ⟨hgone, .removed g :: new, by rw [hcalls, hnew]; rfl, List.mem_cons_self⟩
    · obtain ⟨more, hmore⟩ := hm.calls
      exact .inr ⟨hm.gone hgone, more ++ new, by rw [hmore, hnew, List.append_assoc],
        List.mem_append_right more hmem⟩

/-! ## Polls -/

theorem Gone.poll (h : v.Gone g) (hs : v.Sound) (now : Instant) :
    (v.poll now).Gone g ∧ callsOf g (v.poll now).due = [] := by
  have habsent : Timer.Queue.lookup g v.timers.entries = none := h.absent
  refine ⟨⟨h.issued, ?_⟩, Timer.callsOf_eq_nil fun x hx heq => ?_⟩
  · refine (hs.keyed.lookup_pollExpired now g).trans ?_
    rw [habsent]
    rfl
  · obtain ⟨e, he, -⟩ := hs.keyed.mem_pollExpired.1 hx
    rw [heq, habsent] at he
    cases he

/-- **A poll that is not too early calls a cancelled timer once, as cancelled, and takes it out.** -/
theorem Doomed.poll (h : v.Doomed g timer t) (hs : v.Sound) {now : Instant} (hnow : t ≤ now) :
    (v.poll now).Gone g ∧ callsOf g (v.poll now).due = [⟨g, .user timer, true⟩] := by
  obtain ⟨kind, he⟩ := h
  have hexpired : Timer.Entry.isExpired ⟨t, kind, true, Task.user timer⟩ now = true := decide_eq_true hnow
  refine ⟨⟨hs.keyed.issued_of_lookup he, ?_⟩, ?_⟩
  · refine (hs.keyed.lookup_pollExpired now g).trans ?_
    rw [show Timer.Queue.lookup g v.timers.entries = _ from he, Option.bind_some, if_pos hexpired]
    rfl
  · have hmem : (⟨g, .user timer, true⟩ : Expired Task) ∈ (v.poll now).due :=
      hs.keyed.mem_pollExpired.2 ⟨_, he, hexpired, rfl, rfl⟩
    exact Timer.callsOf_eq_singleton (hs.keyed.nodup_pollExpired now) hmem

/-- A poll that is too early leaves it. -/
theorem Doomed.poll_early (h : v.Doomed g timer t) (hs : v.Sound) {now : Instant} (hnow : ¬ t ≤ now) :
    (v.poll now).Doomed g timer t ∧ callsOf g (v.poll now).due = [] := by
  obtain ⟨kind, he⟩ := h
  have hearly : ¬ Timer.Entry.isExpired ⟨t, kind, true, Task.user timer⟩ now = true := by
    simpa [Timer.Entry.isExpired] using hnow
  refine ⟨⟨kind, ?_⟩, Timer.callsOf_eq_nil fun x hx heq => ?_⟩
  · refine (hs.keyed.lookup_pollExpired now g).trans ?_
    rw [show Timer.Queue.lookup g v.timers.entries = _ from he, Option.bind_some, if_neg hearly]
  · obtain ⟨e, he', hexpired, -⟩ := hs.keyed.mem_pollExpired.1 hx
    rw [heq] at he'
    obtain rfl := Option.some.inj (he.symm.trans he')
    exact hearly hexpired

end Desk

end NetReactor
