import Mathlib.Data.List.Perm.Basic
import NetReactor.Proofs.Reactor.Crowd
import NetReactor.Simulation.Prompt

/-!
# What a loss leaves in a queue

A loss clears the connection's queue, and closes the connection after that. A write that found the
connection open before may enqueue its message after the clear; what is enqueued then stays in the queue of
a closed connection, and nothing ever takes it out.

**The queue of a lost connection is empty and stays so exactly if every write that found the connection
open had enqueued its message by the time the queue was cleared** (`settles_of_told`); writes that look once the
loss is told are dropped. It may be otherwise for any connection (`exists_late_write`), and in a run of its own
(`keeps_what_came_behind_the_clear`).
-/

namespace NetReactor

namespace Service

/-- The messages that wait for a connection, by its serial number. -/
def queued (s : Service) (k : Nat) : List Bytes :=
  ((s.connections[k]?).map fun c => c.outgoing.map (·.data)).getD []

variable {s : Service}

theorem getElem?_updateConnection (s : Service) (h : Handle) (f : Connection → Connection) (k : Nat) :
    (s.updateConnection h f).connections[k]? =
      if h.serial = k then (s.connections[k]?).map f else s.connections[k]? :=
  Array.getElem?_modify

theorem queued_updateConnection (s : Service) (h : Handle) (f : Connection → Connection) {k : Nat}
    (hk : h.serial ≠ k) : (s.updateConnection h f).queued k = s.queued k := by
  rw [queued, getElem?_updateConnection, if_neg hk, queued]

theorem queued_enqueue {h : Handle} (hlt : h.serial < s.connections.size) (m : Outgoing) :
    (s.updateConnection h (·.enqueue m)).queued h.serial = s.queued h.serial ++ [m.data] := by
  rw [queued, getElem?_updateConnection, if_pos rfl, queued, Array.getElem?_eq_getElem hlt]
  simp [Connection.enqueue]

theorem queued_clear (s : Service) (h : Handle) :
    (s.updateConnection h ({ · with outgoing := [] })).queued h.serial = [] := by
  rw [queued, getElem?_updateConnection, if_pos rfl]
  cases s.connections[h.serial]? <;> rfl

theorem queued_markClosed (s : Service) (h : Handle) (status : Status) (k : Nat) :
    (s.updateConnection h (·.markClosed status)).queued k = s.queued k := by
  rw [queued, getElem?_updateConnection, queued]
  split
  · cases s.connections[k]? <;> rfl
  · rfl

theorem queued_close (s : Service) (h : Handle) (status : Status) :
    (s.updateConnection h (·.close status)).queued h.serial = [] := by
  rw [← markClosed_clear, queued_markClosed, queued_clear]

/-- Whether a connection is open, by its serial number. -/
def openAt (s : Service) (k : Nat) : Bool := (s.connections[k]?).any (·.isOpen)

/-- What leaves a connection open or closed as it was. -/
theorem openAt_updateConnection (s : Service) (h : Handle) {f : Connection → Connection}
    (hf : ∀ c, (f c).isOpen = c.isOpen) (k : Nat) : (s.updateConnection h f).openAt k = s.openAt k := by
  rw [openAt, getElem?_updateConnection, openAt]
  split
  · rw [Option.any_map]
    simp only [hf]
  · rfl

theorem openAt_markClosed (s : Service) (h : Handle) (status : Status) (k : Nat) :
    (s.updateConnection h (·.markClosed status)).openAt k = if h.serial = k then false else s.openAt k := by
  rw [openAt, getElem?_updateConnection, openAt]
  split
  · cases s.connections[k]? <;> rfl
  · rfl

theorem size_updateConnection (s : Service) (h : Handle) (f : Connection → Connection) :
    (s.updateConnection h f).connections.size = s.connections.size :=
  Array.size_modify

/-- A start keeps the connections that were made, and what was told. -/
theorem kept_start (s : Service) (callback channels : Nat) :
    (s.start callback channels).connections = s.connections ∧
      (s.start callback channels).emitted = s.emitted := by
  unfold start
  split <;> exact ⟨rfl, rfl⟩

theorem isLive_eq (s : Service) (h : Handle) : s.isLive h = s.openAt h.serial := rfl

/-- What is open has been made. -/
theorem lt_of_openAt {k : Nat} (h : s.openAt k = true) : k < s.connections.size := by
  obtain ⟨c, hc, -⟩ := (Option.any_eq_true _ _).1 h
  exact (Array.getElem?_eq_some_iff.1 hc).1

end Service

/-- A loss that is recorded is told. -/
theorem Reactor.told_of_record {σ : Type} (r : Reactor σ) (h : Handle) (status : Status) :
    (r.record (.connectionLost h.channel status h)).service.Told h :=
  ⟨r.emission (.connectionLost h.channel status h), by simp [record], h.channel, status, rfl⟩

/-- What one more member adds in front. -/
theorem filterMap_cons_toList {α β : Type} (f : α → Option β) (a : α) (l : List α) :
    (a :: l).filterMap f = (f a).toList ++ l.filterMap f := by
  rw [List.filterMap_cons]
  cases f a <;> rfl

namespace Touch

def serial : Touch → Nat
  | found k _ | put k _ | cleared k | closed k => k

def found? (k : Nat) : Touch → Option Bytes
  | found j data => if j = k then some data else none
  | _ => none

def put? (k : Nat) : Touch → Option Bytes
  | put j data => if j = k then some data else none
  | _ => none

/-- The messages of the writes that found connection `k` open, the latest first. -/
def founds (k : Nat) (history : List Touch) : List Bytes := history.filterMap (found? k)

/-- The messages that were enqueued for connection `k`, the latest first. -/
def puts (k : Nat) (history : List Touch) : List Bytes := history.filterMap (put? k)

theorem founds_cons (k : Nat) (t : Touch) (history : List Touch) :
    founds k (t :: history) = (t.found? k).toList ++ founds k history := filterMap_cons_toList _ t history

theorem puts_cons (k : Nat) (t : Touch) (history : List Touch) :
    puts k (t :: history) = (t.put? k).toList ++ puts k history := filterMap_cons_toList _ t history

theorem founds_append (k : Nat) (later earlier : List Touch) :
    founds k (later ++ earlier) = founds k later ++ founds k earlier := List.filterMap_append

theorem puts_append (k : Nat) (later earlier : List Touch) :
    puts k (later ++ earlier) = puts k later ++ puts k earlier := List.filterMap_append

end Touch

namespace Crowd

variable {σ : Type} [Host σ] {x y : Crowd σ}

def size (x : Crowd σ) : Nat := x.service.connections.size

omit [Host σ] in
theorem size_withUpdate (x : Crowd σ) (h : Handle) (f : Connection → Connection) :
    (x.withService (x.service.updateConnection h f)).size = x.size :=
  Service.size_updateConnection x.service h f

omit [Host σ] in
/-- A check finds the connection open, or drops the message. -/
@[elab_as_elim]
theorem check_cases {h : Handle} {data : Bytes} {motive : Crowd σ → Prop} (hdropped : motive x)
    (hfound : x.service.openAt h.serial = true → motive { x with
      underway := (h, data) :: x.underway
      history := .found h.serial data :: x.history }) :
    motive (x.check h data) := by
  unfold check
  split
  · rename_i hlive
    exact hfound hlive
  · exact hdropped

omit [Host σ] in
theorem mem_of_put {w w' : Handle × Bytes} {before after : List (Handle × Bytes)}
    (hw : x.underway = before ++ w' :: after) (hmem : w ∈ before ++ after) : w ∈ x.underway := by
  rw [hw]
  rcases List.mem_append.1 hmem with h | h
  · exact List.mem_append_left _ h
  · exact List.mem_append_right _ (List.mem_cons_of_mem _ h)

/-! ## Connections that have been made -/

/-- Every connection that plays a part has been made. -/
structure Known (x : Crowd σ) : Prop where
  kept : ∀ {id h}, x.reactor.holder id = some h → h.serial < x.size
  lost : ∀ L, x.loss = some L → L.handle.serial < x.size
  writing : ∀ w ∈ x.underway, w.1.serial < x.size
  noted : ∀ t ∈ x.history, t.serial < x.size

omit [Host σ] in
theorem Known.of_le (hsize : x.size ≤ y.size)
    (hkept : ∀ {id h}, y.reactor.holder id = some h → h.serial < y.size)
    (hlost : ∀ L, y.loss = some L → L.handle.serial < x.size)
    (hwriting : ∀ w ∈ y.underway, w.1.serial < x.size) (hnoted : ∀ t ∈ y.history, t.serial < x.size) :
    y.Known :=
  ⟨hkept, fun L hL => Nat.lt_of_lt_of_le (hlost L hL) hsize,
    fun w hw => Nat.lt_of_lt_of_le (hwriting w hw) hsize, fun t ht => Nat.lt_of_lt_of_le (hnoted t ht) hsize⟩

theorem Step.known (h : x.Step y) (hx : x.Known) : y.Known := by
  obtain ⟨hkept, hlost, hwriting, hnoted⟩ := hx
  cases h with
  | check h data =>
    refine check_cases ⟨hkept, hlost, hwriting, hnoted⟩ fun hopen => ?_
    have hlt : h.serial < x.size := Service.lt_of_openAt hopen
    exact ⟨hkept, hlost, List.forall_mem_cons.2 ⟨hlt, hwriting⟩, List.forall_mem_cons.2 ⟨hlt, hnoted⟩⟩
  | @put h data before after hw expires =>
    have hsize := size_withUpdate x h (·.enqueue (.new data expires))
    have hlt : h.serial < x.size := hwriting (h, data) (by simp [hw])
    exact .of_le (Nat.le_of_eq hsize.symm) (fun hh => Nat.lt_of_lt_of_eq (hkept hh) hsize.symm) hlost
      (fun w hmem => hwriting w (mem_of_put hw hmem)) (List.forall_mem_cons.2 ⟨hlt, hnoted⟩)
  | aside haside =>
    have hsize := congrArg Array.size haside.connections
    exact .of_le (Nat.le_of_eq hsize.symm)
      (fun hh => Nat.lt_of_lt_of_eq (hkept (haside.holder _ ▸ hh)) hsize.symm) hlost hwriting hnoted
  | flush hidle now id =>
    refine Reactor.flushTransport_cases (motive := fun r => Known { x with reactor := r })
      ⟨hkept, hlost, hwriting, hnoted⟩ fun h queue w _ => ?_
    have hsize := size_withUpdate x h ({ · with outgoing := queue })
    exact .of_le (Nat.le_of_eq hsize.symm) (fun hh => Nat.lt_of_lt_of_eq (hkept hh) hsize.symm) hlost
      hwriting hnoted
  | @add hidle i hi mask d =>
    have hsize : (x.reactor.addTransport i mask d).2.service.connections.size = x.size + 1 :=
      Array.size_push _
    refine .of_le (x := x) (Nat.le_of_lt (Nat.lt_of_lt_of_eq (Nat.lt_succ_self _) hsize.symm)) (fun hh => ?_)
      hlost hwriting hnoted
    refine Nat.lt_of_lt_of_eq ?_ hsize.symm
    rcases Reactor.holder_addTransport hh with ⟨-, rfl⟩ | hold
    · exact Nat.lt_succ_self _
    · exact Nat.lt_succ_of_lt (hkept hold)
  | begin hidle hh status =>
    exact ⟨hkept, fun L hL => Option.some.inj hL ▸ hkept hh, hwriting, hnoted⟩
  | @clear id h status hloss =>
    have hsize := size_withUpdate x h ({ · with outgoing := [] })
    have hlt := hlost _ hloss
    exact .of_le (Nat.le_of_eq hsize.symm) (fun hh => Nat.lt_of_lt_of_eq (hkept hh) hsize.symm)
      (fun L hL => Option.some.inj hL ▸ hlt) hwriting (List.forall_mem_cons.2 ⟨hlt, hnoted⟩)
  | @close id h status hloss =>
    have hsize := size_withUpdate x h (·.markClosed status)
    have hlt := hlost _ hloss
    exact .of_le (Nat.le_of_eq hsize.symm) (fun hh => Nat.lt_of_lt_of_eq (hkept hh) hsize.symm)
      (fun L hL => Option.some.inj hL ▸ hlt) hwriting (List.forall_mem_cons.2 ⟨hlt, hnoted⟩)
  | tell hloss =>
    have hlt := hlost _ hloss
    exact ⟨hkept, fun L hL => Option.some.inj hL ▸ hlt, hwriting, hnoted⟩
  | part hloss =>
    refine ⟨fun hh => ?_, by simp, hwriting, hnoted⟩
    rw [Reactor.holder_remove] at hh
    split at hh
    · simp at hh
    · exact hkept hh
  | start hidle callback endpoints =>
    have hsame := congrArg Array.size (x.reactor.service.kept_start callback endpoints.length).1
    refine .of_le (Nat.le_of_eq hsame.symm) (fun hh => ?_) hlost hwriting hnoted
    simp at hh

/-! ## Connections that are kept -/

/-- Connections are kept once each, and none whose queue was cleared but the one that the loop is losing. -/
structure Kept (x : Crowd σ) : Prop where
  distinct : ∀ {id id' h h'}, x.reactor.holder id = some h → x.reactor.holder id' = some h' →
    h.serial = h'.serial → id = id'
  losing : ∀ {L id h}, x.loss = some L → x.reactor.holder id = some h → h.serial = L.handle.serial →
    id = L.id
  spent : ∀ {id h}, .cleared h.serial ∈ x.history → x.reactor.holder id = some h →
    ∃ L, x.loss = some L ∧ L.handle.serial = h.serial

omit [Host σ] in
/-- While the loop loses no connection, those that it keeps have never been cleared. -/
theorem Kept.not_cleared (hx : x.Kept) (hidle : x.loss = none) {id : TransportId} {h : Handle}
    (hh : x.reactor.holder id = some h) : .cleared h.serial ∉ x.history := by
  intro hcleared
  obtain ⟨L, hL, -⟩ := hx.spent hcleared hh
  simp [hidle] at hL

omit [Host σ] in
/-- No connection comes in, and the loop is at the loss that it was at, whose queue it may have cleared. -/
theorem Kept.of_le (hx : x.Kept)
    (hkept : ∀ {id h}, y.reactor.holder id = some h → x.reactor.holder id = some h)
    (hloss : y.loss.map (fun L => (L.id, L.handle)) = x.loss.map fun L => (L.id, L.handle))
    (hcleared : ∀ k, .cleared k ∈ y.history →
      .cleared k ∈ x.history ∨ ∃ L, x.loss = some L ∧ L.handle.serial = k) : y.Kept := by
  refine ⟨fun hh hh' => hx.distinct (hkept hh) (hkept hh'), fun {L id h} hL hh hserial => ?_,
    fun {id h} hk hh => ?_⟩
  · rw [hL] at hloss
    obtain ⟨L', hL', heq⟩ := Option.map_eq_some_iff.1 hloss.symm
    obtain ⟨hid, hhandle⟩ := Prod.mk.inj heq
    exact hid ▸ hx.losing hL' (hkept hh) (hhandle ▸ hserial)
  · have hstill : ∃ L, x.loss = some L ∧ L.handle.serial = h.serial :=
      (hcleared _ hk).elim (fun hk => hx.spent hk (hkept hh)) fun h => h
    obtain ⟨L, hL, hserial⟩ := hstill
    rw [hL] at hloss
    obtain ⟨L', hL', heq⟩ := Option.map_eq_some_iff.1 hloss
    exact ⟨L', hL', (Prod.mk.inj heq).2 ▸ hserial⟩

theorem Step.kept (h : x.Step y) (hx : x.Known) (hk : x.Kept) : y.Kept := by
  cases h with
  | check h data =>
    exact check_cases hk fun _ => hk.of_le id rfl fun k hmem => .inl (by simpa using hmem)
  | put hw expires => exact hk.of_le id rfl fun k hmem => .inl (by simpa using hmem)
  | aside haside => exact hk.of_le (fun hh => haside.holder _ ▸ hh) rfl fun k hmem => .inl hmem
  | flush hidle now id =>
    refine Reactor.flushTransport_cases (motive := fun r => Kept { x with reactor := r }) hk
      fun h queue w _ => ?_
    exact hk.of_le (fun hh => hh) rfl fun k hmem => .inl hmem
  | @add hidle i hi mask d =>
    have hserial : (x.reactor.addTransport i mask d).1.serial = x.size := rfl
    refine ⟨fun {id id' h h'} hh hh' heq => ?_, by simp [hidle], fun {id h} hcleared hh => ?_⟩
    · rcases Reactor.holder_addTransport hh with ⟨hid, rfl⟩ | hold <;>
        rcases Reactor.holder_addTransport hh' with ⟨hid', rfl⟩ | hold'
      · rw [hid, hid']
      · have := hx.kept hold'
        omega
      · have := hx.kept hold
        omega
      · exact hk.distinct hold hold' heq
    · rcases Reactor.holder_addTransport hh with ⟨-, rfl⟩ | hold
      · exact absurd (hx.noted _ hcleared) (Nat.lt_irrefl x.size)
      · exact hk.spent hcleared hold
  | begin hidle hh status =>
    refine ⟨hk.distinct, fun hL hh' hserial => ?_, fun hcleared hh' => ?_⟩
    · obtain rfl := Option.some.inj hL
      exact hk.distinct hh' hh hserial
    · exact absurd hcleared (hk.not_cleared hidle hh')
  | @clear id h status hloss =>
    refine hk.of_le (fun hh => hh) (by rw [hloss]; rfl) fun k hmem => ?_
    rcases List.mem_cons.1 hmem with heq | hmem
    · exact .inr ⟨_, hloss, (Touch.cleared.inj heq).symm⟩
    · exact .inl hmem
  | @close id h status hloss =>
    exact hk.of_le (fun hh => hh) (by rw [hloss]; rfl) fun k hmem => .inl (by simpa using hmem)
  | tell hloss => exact hk.of_le (fun hh => hh) (by rw [hloss]; rfl) fun k hmem => .inl hmem
  | @part id h status hloss =>
    have hkept : ∀ {id' h'}, Reactor.holder { x.reactor with
        transports := (x.reactor.transports.remove id).2 } id' = some h' →
        id' ≠ id ∧ x.reactor.holder id' = some h' := by
      intro id' h' hh
      rw [Reactor.holder_remove] at hh
      split at hh
      · simp at hh
      · exact ⟨‹_›, hh⟩
    refine ⟨fun hh hh' => hk.distinct (hkept hh).2 (hkept hh').2, by simp, fun hcleared hh => ?_⟩
    obtain ⟨L, hL, hserial⟩ := hk.spent hcleared (hkept hh).2
    rw [hloss] at hL
    obtain rfl := Option.some.inj hL
    exact absurd (hk.losing hloss (hkept hh).2 hserial.symm) (hkept hh).1
  | start hidle callback endpoints =>
    exact hk.of_le (fun hh => by simp at hh) rfl fun k hmem => .inl hmem

/-! ## Connections that are closed -/

/-- Connections are marked closed, and their losses told, after their queues were cleared. -/
structure Shut (x : Crowd σ) : Prop where
  cleared : ∀ L, x.loss = some L → L.stage ≠ .begun → .cleared L.handle.serial ∈ x.history
  closed : ∀ L, x.loss = some L → L.stage = .closed ∨ L.stage = .told → .closed L.handle.serial ∈ x.history
  shut : ∀ k, .closed k ∈ x.history → x.service.openAt k = false
  told : ∀ h, x.service.Told h → .cleared h.serial ∈ x.history ∧ .closed h.serial ∈ x.history

omit [Host σ] in
/-- Nothing is closed, opened again or told lost, and the loop is where it was. -/
theorem Shut.of_le (hx : x.Shut) (hloss : y.loss = x.loss) (hhistory : ∀ t ∈ x.history, t ∈ y.history)
    (hclosed : ∀ k, .closed k ∈ y.history → .closed k ∈ x.history)
    (hopen : ∀ k, .closed k ∈ x.history → y.service.openAt k = x.service.openAt k)
    (htold : ∀ h, y.service.Told h → x.service.Told h) : y.Shut := by
  refine ⟨fun L hL hstage => hhistory _ (hx.cleared L (hloss ▸ hL) hstage),
    fun L hL hstage => hhistory _ (hx.closed L (hloss ▸ hL) hstage), fun k hk => ?_, fun h hh => ?_⟩
  · rw [hopen k (hclosed k hk)]
    exact hx.shut k (hclosed k hk)
  · obtain ⟨hcleared, hclosed⟩ := hx.told h (htold h hh)
    exact ⟨hhistory _ hcleared, hhistory _ hclosed⟩

omit [Host σ] in
/-- A new loss is that of the connection that the loop is losing. -/
theorem told_record {r : Reactor σ} {h h' : Handle} {status : Status}
    (hh : (r.record (.connectionLost h.channel status h)).service.Told h') : h' = h ∨ r.service.Told h' := by
  obtain ⟨m, hm, channel, status', heq⟩ := hh
  simp only [Reactor.record, Array.toList_push, List.mem_append, List.mem_singleton] at hm
  rcases hm with hm | rfl
  · exact .inr ⟨m, hm, channel, status', heq⟩
  · exact .inl (Event.connectionLost.inj heq).2.2.symm

theorem Step.shut (h : x.Step y) (hx : x.Known) (hs : x.Shut) : y.Shut := by
  cases h with
  | check h data =>
    exact check_cases hs fun _ => hs.of_le rfl (fun _ => List.mem_cons_of_mem _)
      (fun k hmem => by simpa using hmem) (fun _ _ => rfl) fun _ hh => hh
  | @put h data before after hw expires =>
    have hsame := Service.openAt_updateConnection x.service h (f := (·.enqueue (.new data expires)))
      fun _ => rfl
    exact hs.of_le rfl (fun _ => List.mem_cons_of_mem _) (fun k hmem => by simpa using hmem)
      (fun k _ => hsame k) fun _ hh => hh
  | aside haside =>
    refine hs.of_le rfl (fun _ h => h) (fun _ h => h) (fun k _ => ?_) fun h hh => (haside.told h).1 hh
    simp only [service, Service.openAt, haside.connections]
  | flush hidle now id =>
    refine Reactor.flushTransport_cases (motive := fun r => Shut { x with reactor := r }) hs
      fun h queue w _ => ?_
    have hsame := Service.openAt_updateConnection x.service h (f := ({ · with outgoing := queue }))
      fun _ => rfl
    exact hs.of_le rfl (fun _ h => h) (fun _ h => h) (fun k _ => hsame k) fun _ hh => hh
  | @add hidle i hi mask d =>
    refine hs.of_le rfl (fun _ h => h) (fun _ h => h) (fun k hk => ?_) fun _ hh => hh
    have hlt : k < x.reactor.service.connections.size := hx.noted _ hk
    simp only [service, Service.openAt, Reactor.connections_addTransport_of_lt hlt]
  | begin hidle hh status =>
    exact ⟨fun L hL hstage => absurd (Option.some.inj hL ▸ rfl) hstage,
      fun L hL hstage => by obtain rfl := Option.some.inj hL; simp at hstage, hs.shut, hs.told⟩
  | @clear id h status hloss =>
    have hsame := Service.openAt_updateConnection x.service h (f := ({ · with outgoing := [] }))
      fun _ => rfl
    refine ⟨fun L hL _ => ?_, fun L hL hstage => ?_, fun k hk => ?_, fun h' hh => ?_⟩
    · obtain rfl := Option.some.inj hL
      exact List.mem_cons_self
    · obtain rfl := Option.some.inj hL
      simp at hstage
    · exact (hsame k).trans (hs.shut k (by simpa using hk))
    · exact (hs.told h' hh).imp (List.mem_cons_of_mem _) (List.mem_cons_of_mem _)
  | @close id h status hloss =>
    have hcleared := hs.cleared _ hloss (by simp)
    refine ⟨fun L hL _ => ?_, fun L hL _ => ?_, fun k hk => ?_, fun h' hh => ?_⟩
    · obtain rfl := Option.some.inj hL
      exact List.mem_cons_of_mem _ hcleared
    · obtain rfl := Option.some.inj hL
      exact List.mem_cons_self
    · refine (Service.openAt_markClosed x.service h status k).trans ?_
      split
      · rfl
      · rename_i hne
        rcases List.mem_cons.1 hk with heq | hk
        · exact absurd (Touch.closed.inj heq).symm hne
        · exact hs.shut k hk
    · exact (hs.told h' hh).imp (List.mem_cons_of_mem _) (List.mem_cons_of_mem _)
  | @tell id h status hloss =>
    have hcleared := hs.cleared _ hloss (by simp)
    have hclosed := hs.closed _ hloss (by simp)
    refine ⟨fun L hL _ => Option.some.inj hL ▸ hcleared, fun L hL _ => Option.some.inj hL ▸ hclosed, hs.shut,
      fun h' hh => ?_⟩
    rcases told_record hh with rfl | hold
    · exact ⟨hcleared, hclosed⟩
    · exact hs.told h' hold
  | part hloss => exact ⟨by simp, by simp, hs.shut, hs.told⟩
  | start hidle callback endpoints =>
    obtain ⟨hconnections, hemitted⟩ := x.reactor.service.kept_start callback endpoints.length
    refine hs.of_le rfl (fun _ h => h) (fun _ h => h) (fun k _ => ?_) fun h hh => ?_
    · simp only [service, Reactor.new, Service.openAt, hconnections]
    · simpa only [service, Reactor.new, Service.Told, hemitted] using hh

/-! ## Messages that were enqueued -/

/-- The message of a write, if that is to connection `k`. -/
def to? (k : Nat) (w : Handle × Bytes) : Option Bytes := if w.1.serial = k then some w.2 else none

/-- The messages of the writes to connection `k` that are still to be enqueued. -/
def pending (x : Crowd σ) (k : Nat) : List Bytes := x.underway.filterMap (to? k)

/-- After a clear, the queue holds what was enqueued since; and each write that found its connection open
has enqueued its message or is underway. -/
structure Noted (x : Crowd σ) : Prop where
  queue : ∀ k, .cleared k ∈ x.history → ∃ later earlier, x.history = later ++ .cleared k :: earlier ∧
    .cleared k ∉ later ∧ x.service.queued k = (Touch.puts k later).reverse
  balance : ∀ k, (Touch.founds k x.history).Perm (Touch.puts k x.history ++ x.pending k)

omit [Host σ] in
/-- Nothing new is noted, and the queues that were cleared stay. -/
theorem Noted.of_eq (hx : x.Noted) (hhistory : y.history = x.history) (hunderway : y.underway = x.underway)
    (hqueued : ∀ k, .cleared k ∈ x.history → y.service.queued k = x.service.queued k) : y.Noted := by
  refine ⟨fun k hk => ?_, fun k => ?_⟩
  · rw [hhistory] at hk ⊢
    rw [hqueued k hk]
    exact hx.queue k hk
  · rw [hhistory, pending, hunderway]
    exact hx.balance k

omit [Host σ] in
/-- One thing more is noted: each queue that was cleared before gets what is enqueued, or is cleared. -/
theorem Noted.queue_cons (hx : x.Noted) {t : Touch} {s : Service}
    (h : ∀ k, .cleared k ∈ x.history → t ≠ .cleared k →
      s.queued k = x.service.queued k ++ (t.put? k).toList)
    (hcleared : ∀ k, t = .cleared k → s.queued k = []) (k : Nat) (hk : .cleared k ∈ t :: x.history) :
    ∃ later earlier, t :: x.history = later ++ .cleared k :: earlier ∧
      .cleared k ∉ later ∧ s.queued k = (Touch.puts k later).reverse := by
  by_cases ht : t = .cleared k
  · exact ⟨[], x.history, by rw [ht]; rfl, List.not_mem_nil, hcleared k ht⟩
  · have hk : .cleared k ∈ x.history := (List.mem_cons.1 hk).resolve_left (Ne.symm ht)
    obtain ⟨later, earlier, hhistory, hlast, hqueued⟩ := hx.queue k hk
    refine ⟨t :: later, earlier, by rw [hhistory]; rfl, List.not_mem_cons_of_ne_of_not_mem (Ne.symm ht) hlast, ?_⟩
    rw [h k hk ht, hqueued, Touch.puts_cons, List.reverse_append]
    cases t.put? k <;> rfl

theorem Step.noted (h : x.Step y) (hx : x.Known) (hk : x.Kept) (hn : x.Noted) : y.Noted := by
  cases h with
  | check h data =>
    refine check_cases hn fun _ => ⟨hn.queue_cons (fun k _ _ => ?_) fun k ht => by simp at ht, fun k => ?_⟩
    · exact (List.append_nil _).symm
    · rw [Touch.founds_cons, Touch.puts_cons, pending, filterMap_cons_toList]
      exact ((hn.balance k).append_left _).trans (List.perm_append_comm_assoc _ _ _)
  | @put h data before after hw expires =>
    have hlt : h.serial < x.size := hx.writing (h, data) (by simp [hw])
    refine ⟨hn.queue_cons (fun k _ _ => ?_) fun k ht => by simp at ht, fun k => ?_⟩
    · by_cases hserial : h.serial = k
      · subst hserial
        exact (Service.queued_enqueue hlt _).trans (by simp [Touch.put?, Outgoing.new])
      · exact (Service.queued_updateConnection _ h _ hserial).trans (by simp [Touch.put?, hserial])
    · have hbalance := hn.balance k
      rw [pending, hw, List.filterMap_append, filterMap_cons_toList] at hbalance
      rw [Touch.founds_cons, Touch.puts_cons, pending, List.filterMap_append, List.append_assoc]
      exact (hbalance.trans ((List.perm_append_comm_assoc _ _ _).append_left _)).trans
        (List.perm_append_comm_assoc _ _ _)
  | aside haside =>
    refine hn.of_eq rfl rfl fun k _ => ?_
    simp only [service, Service.queued, haside.connections]
  | @flush hidle now id =>
    refine Reactor.flushTransport_cases (motive := fun r => Noted { x with reactor := r }) hn
      fun h queue w hh => ?_
    refine hn.of_eq rfl rfl fun k hcleared => Service.queued_updateConnection _ h _ fun heq => ?_
    exact hk.not_cleared hidle hh (heq ▸ hcleared)
  | @add hidle i hi mask d =>
    refine hn.of_eq rfl rfl fun k hcleared => ?_
    have hlt : k < x.reactor.service.connections.size := hx.noted _ hcleared
    simp only [service, Service.queued, Reactor.connections_addTransport_of_lt hlt]
  | begin hidle hh status => exact hn.of_eq rfl rfl fun _ _ => rfl
  | @clear id h status hloss =>
    refine ⟨hn.queue_cons (fun k _ hne => ?_) fun k ht => ?_, fun k => ?_⟩
    · have hserial : h.serial ≠ k := fun heq => hne (congrArg Touch.cleared heq)
      exact (Service.queued_updateConnection x.service h _ hserial).trans (List.append_nil _).symm
    · obtain rfl := Touch.cleared.inj ht
      exact Service.queued_clear x.service h
    · exact hn.balance k
  | @close id h status hloss =>
    refine ⟨hn.queue_cons (fun k _ _ => ?_) fun k ht => by simp at ht, fun k => ?_⟩
    · exact (Service.queued_markClosed x.service h status k).trans (List.append_nil _).symm
    · exact hn.balance k
  | tell hloss => exact hn.of_eq rfl rfl fun _ _ => rfl
  | part hloss => exact hn.of_eq rfl rfl fun _ _ => rfl
  | start hidle callback endpoints =>
    obtain ⟨hconnections, -⟩ := x.reactor.service.kept_start callback endpoints.length
    refine hn.of_eq rfl rfl fun k _ => ?_
    simp only [service, Reactor.new, Service.queued, hconnections]

/-! ## What becomes of a lost connection's queue -/

/-- What holds of every crowd. -/
structure Sound (x : Crowd σ) : Prop where
  known : x.Known
  kept : x.Kept
  shut : x.Shut
  noted : x.Noted

omit [Host σ] in
theorem sound_new (o : Options) (w : σ) : (new o w).Sound := by
  have hnone : ∀ id, (new o w).reactor.holder id = none := Reactor.holder_new _ _ _
  refine ⟨⟨by simp [hnone], by simp [new], by simp [new], by simp [new]⟩,
    ⟨by simp [hnone], by simp [new], by simp [new]⟩,
    ⟨by simp [new], by simp [new], by simp [new], fun h hh => ?_⟩, ⟨by simp [new], fun k => ?_⟩⟩
  · obtain ⟨m, hm, -⟩ := hh
    simp [new, service, Reactor.new, Service.ofOptions] at hm
  · exact .refl _

theorem Step.sound (h : x.Step y) (hx : x.Sound) : y.Sound :=
  ⟨h.known hx.known, h.kept hx.known hx.kept, h.shut hx.known hx.shut, h.noted hx.known hx.kept hx.noted⟩

theorem Steps.sound (h : x.Steps y) (hx : x.Sound) : y.Sound := by
  induction h with
  | refl => exact hx
  | tail _ hstep ih => exact hstep.sound ih

theorem Reachable.sound (h : x.Reachable) : x.Sound := by
  obtain ⟨o, w, hsteps⟩ := h
  exact hsteps.sound (sound_new o w)

/-- What is noted stays noted, and no write finds a closed connection open. -/
theorem Step.exists_history (h : x.Step y) (hs : x.Shut) :
    ∃ new, y.history = new ++ x.history ∧ ∀ k, .closed k ∈ x.history → Touch.founds k new = [] := by
  cases h with
  | check h data =>
    refine check_cases (motive := fun y => ∃ new, y.history = new ++ x.history ∧
      ∀ k, .closed k ∈ x.history → Touch.founds k new = []) ⟨[], rfl, fun _ _ => rfl⟩ fun hopen => ?_
    refine ⟨[.found h.serial data], rfl, fun k hk => ?_⟩
    have hne : h.serial ≠ k := by
      rintro rfl
      simp [hs.shut _ hk] at hopen
    simp [Touch.founds, Touch.found?, hne]
  | @put h data before after hw expires => exact ⟨[.put h.serial data], rfl, fun _ _ => rfl⟩
  | @clear id h status hloss => exact ⟨[.cleared h.serial], rfl, fun _ _ => rfl⟩
  | @close id h status hloss => exact ⟨[.closed h.serial], rfl, fun _ _ => rfl⟩
  | _ => exact ⟨[], rfl, fun _ _ => rfl⟩

theorem Steps.exists_history (h : x.Steps y) (hx : x.Sound) :
    ∃ new, y.history = new ++ x.history ∧ ∀ k, .closed k ∈ x.history → Touch.founds k new = [] := by
  induction h with
  | refl => exact ⟨[], rfl, fun _ _ => rfl⟩
  | tail hsteps hstep ih =>
    obtain ⟨new, hnew, hfounds⟩ := ih
    obtain ⟨more, hmore, hfounds'⟩ := hstep.exists_history (Steps.sound hsteps hx).shut
    refine ⟨more ++ new, by rw [hmore, hnew, List.append_assoc], fun k hk => ?_⟩
    rw [Touch.founds_append, hfounds k hk, hfounds' k (hnew ▸ List.mem_append_right _ hk), List.append_nil]

/-- What becomes of the queue and of the writes of a connection whose loss was told, where `later` is what
happened since its queue was cleared, and `earlier` what happened before. -/
structure Settles (x : Crowd σ) (h : Handle) (later earlier : List Touch) : Prop where
  history : x.history = later ++ .cleared h.serial :: earlier
  last : .cleared h.serial ∉ later
  /-- The queue holds what was enqueued since. -/
  queue : x.service.queued h.serial = (Touch.puts h.serial later).reverse
  /-- A write that looks from now on is dropped. -/
  dropped : ∀ y, x.Steps y → ∀ data, y.check h data = y
  /-- The queue is empty and stays empty exactly if the writes that found the connection open had enqueued
  their messages before it was cleared. -/
  empty_iff : (∀ y, x.Steps y → y.service.queued h.serial = []) ↔
    (Touch.founds h.serial x.history).Perm (Touch.puts h.serial earlier)

omit [Host σ] in
/-- What was enqueued since the last clear was enqueued since an earlier one. -/
theorem puts_eq_nil_of_suffix {k : Nat} {later later' earlier earlier' : List Touch}
    (h : later' ++ .cleared k :: earlier' = later ++ .cleared k :: earlier) (hlast : .cleared k ∉ later')
    (hnone : Touch.puts k later = []) : Touch.puts k later' = [] := by
  rcases List.append_eq_append_iff.1 h with ⟨more, hmore, -⟩ | ⟨more, hmore, hrest⟩
  · rw [hmore, Touch.puts_append, List.append_eq_nil_iff] at hnone
    exact hnone.1
  · cases more with
    | nil => rwa [hmore, List.append_nil]
    | cons t more =>
      obtain rfl : .cleared k = t := (List.cons.inj hrest).1
      exact absurd (by rw [hmore]; simp) hlast

/-- **The queue of a lost connection is empty and stays so exactly if every write that found the connection
open had enqueued its message by the time the queue was cleared.** -/
theorem settles_of_told (hx : x.Reachable) {h : Handle} (htold : x.service.Told h) :
    ∃ later earlier, x.Settles h later earlier := by
  have hsound := hx.sound
  obtain ⟨hcleared, hclosed⟩ := hsound.shut.told h htold
  obtain ⟨later, earlier, hhistory, hlast, hqueued⟩ := hsound.noted.queue _ hcleared
  have hbalance := hsound.noted.balance h.serial
  have hputs : Touch.puts h.serial x.history =
      Touch.puts h.serial later ++ Touch.puts h.serial earlier := by
    rw [hhistory, Touch.puts_append, Touch.puts_cons]
    rfl
  refine ⟨later, earlier, hhistory, hlast, hqueued, fun y hsteps data => ?_, fun hempty => ?_,
    fun hperm y hsteps => ?_⟩
  · obtain ⟨new, hnew, -⟩ := Steps.exists_history hsteps hsound
    have hshut := (Steps.sound hsteps hsound).shut.shut h.serial (hnew ▸ List.mem_append_right _ hclosed)
    rw [check, Service.isLive_eq, hshut]
    rfl
  · -- an empty queue got nothing since, and a write that is underway would fill it
    have hnone : Touch.puts h.serial later = [] := List.reverse_eq_nil_iff.1 (hqueued.symm.trans (hempty x .refl))
    have hpending : x.pending h.serial = [] := by
      rw [pending, List.filterMap_eq_nil_iff]
      rintro ⟨h', data⟩ hw
      rw [to?, if_neg]
      intro hserial
      obtain ⟨before, after, hsplit⟩ := List.append_of_mem hw
      have hput := hempty _ (.single (.put hsplit none))
      have hlt : h'.serial < x.size := hsound.known.writing _ hw
      have hlong := Service.queued_enqueue hlt (.new data none)
      simp only at hserial
      rw [hserial] at hlong
      exact absurd (hlong.symm.trans hput) (by simp)
    rwa [hputs, hnone, hpending, List.nil_append, List.append_nil] at hbalance
  · obtain ⟨new, hnew, hfounds⟩ := Steps.exists_history hsteps hsound
    obtain ⟨later', earlier', hhistory', hlast', hqueued'⟩ :=
      (Steps.sound hsteps hsound).noted.queue h.serial (hnew ▸ List.mem_append_right _ hcleared)
    have hbalance' := (Steps.sound hsteps hsound).noted.balance h.serial
    -- no write found the connection open since, so that none is left that was not enqueued before
    have hnone : Touch.puts h.serial (new ++ later) = [] := by
      rw [hnew, Touch.founds_append, hfounds _ hclosed, List.nil_append, Touch.puts_append, hputs] at hbalance'
      have hlength := (hperm.symm.trans hbalance').length_eq
      simp only [List.length_append] at hlength
      rw [Touch.puts_append, List.append_eq_nil_iff, ← List.length_eq_zero_iff, ← List.length_eq_zero_iff]
      omega
    have hsame : y.history = (new ++ later) ++ .cleared h.serial :: earlier := by
      rw [hnew, hhistory, List.append_assoc]
    rw [hqueued', puts_eq_nil_of_suffix (hhistory'.symm.trans hsame) hlast' hnone]
    rfl

/-! ## A write that comes too late -/

/-- **To any open connection a message may come too late**: its write finds the connection open, the loop loses
the connection, and then the message is enqueued. -/
theorem exists_late_write {r : Reactor σ} {underway : List (Handle × Bytes)} {history : List Touch}
    {id : TransportId} {h : Handle} (hh : r.holder id = some h) (hopen : r.service.isLive h = true)
    (data : Bytes) : ∃ y, Steps ⟨r, none, underway, history⟩ y ∧ y.service.Told h ∧
      y.service.queued h.serial = [data] := by
  have hchecked : Step ⟨r, none, underway, history⟩
      ⟨r, none, (h, data) :: underway, .found h.serial data :: history⟩ := by
    have hcheck := Step.check (x := ⟨r, none, underway, history⟩) h data
    simpa only [check, service, hopen, if_true] using hcheck
  obtain ⟨more, hclosed⟩ := ((Reactor.Runs.refl r).close hh Status.closedHere).steps
    ((h, data) :: underway) (.found h.serial data :: history)
  have hlost := (hclosed.tail (.tell rfl)).tail (.part rfl)
  have hfirst : (h, data) :: underway = [] ++ (h, data) :: underway := rfl
  have hput := hlost.tail (.put hfirst none)
  refine ⟨_, .trans (.single hchecked) hput, ?_, ?_⟩
  · exact Reactor.told_of_record _ h Status.closedHere
  · have hlt : h.serial < (r.service.updateConnection h (·.close Status.closedHere)).connections.size := by
      rw [Service.size_updateConnection]
      exact Service.lt_of_openAt hopen
    refine (Service.queued_enqueue hlt _).trans ?_
    rw [Service.queued_close]
    rfl

open Simulation

/-- A client is connected. -/
def connectedClient : Reactor Prompt :=
  (Reactor.new ((Service.ofOptions .standard).start 0 1) ⟨1, []⟩ [⟨"10.0.0.1", 80⟩]).openChannel 0 .tcpClient

theorem reachable_connectedClient : ∃ history, Reachable ⟨connectedClient, none, [], history⟩ := by
  have hstart := Step.start (x := new .standard (⟨1, []⟩ : Prompt)) rfl 0 [⟨"10.0.0.1", 80⟩]
  have hopens := Reactor.runs_openChannel (Reactor.new ((Service.ofOptions .standard).start 0 1)
    (⟨1, []⟩ : Prompt) [⟨"10.0.0.1", 80⟩]) 0 .tcpClient
  obtain ⟨history, hopened⟩ := hopens.steps [] []
  exact ⟨_, .standard, ⟨1, []⟩, .trans (.single hstart) hopened⟩

/-- A message that was enqueued behind the clear is left in the queue of a lost connection. -/
theorem exists_left_behind : ∃ (x : Crowd Prompt) (h : Handle),
    x.Reachable ∧ x.service.Told h ∧ x.service.queued h.serial = [[2]] := by
  obtain ⟨history, o, w, hsteps⟩ := reachable_connectedClient
  have hh : connectedClient.holder ⟨0, 0⟩ = some ⟨0, ⟨0, 0⟩, 0, .tcpClient, none, none⟩ := by rfl
  obtain ⟨y, hlate, htold, hqueued⟩ := exists_late_write hh (by rfl) [2]
  exact ⟨y, _, ⟨o, w, hsteps.trans hlate⟩, htold, hqueued⟩

/-- **What is enqueued behind the clear stays**: the queue of a connection whose loss was told need not be
empty. -/
theorem keeps_what_came_behind_the_clear :
    ¬ ∀ (x : Crowd Prompt) (h : Handle), x.Reachable → x.service.Told h → x.service.queued h.serial = [] := by
  intro hempty
  obtain ⟨x, h, hreachable, htold, hqueued⟩ := exists_left_behind
  simp [hempty x h hreachable htold] at hqueued

/-- The late write's message is all that the queue holds, and the exact account says so. -/
theorem settles_with_late_write : ∃ (x : Crowd Prompt) (h : Handle) (later earlier : List Touch),
    x.Reachable ∧ x.service.Told h ∧ x.Settles h later earlier ∧ x.service.queued h.serial = [[2]] := by
  obtain ⟨x, h, hreachable, htold, hqueued⟩ := exists_left_behind
  obtain ⟨later, earlier, hsettles⟩ := settles_of_told hreachable htold
  exact ⟨x, h, later, earlier, hreachable, htold, hsettles, hqueued⟩

end Crowd

end NetReactor
