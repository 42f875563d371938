import Mathlib.Data.List.Nodup
import Mathlib.Logic.Relation
import NetReactor.Event

/-!
# Lists of peers

A datagram server lists its peers, each with the connection that its messages go to. Of the lists, the
connections that are held and what is told, five things happen (`Shift`). **Each of them keeps every list right**
(`Sound`): a server's names each peer once and exactly the server's own connections, and no other channel lists
anything. And a peer keeps its connection until the loss of it is told (`Shifts.keeps`).
-/

namespace NetReactor

/-- Whether a channel routes messages, and the transports of its peers. -/
structure Roster.Row where
  routes : Bool
  peers : List (SocketAddress × TransportId)

/-- The channels' peers, the connections held under the identifiers, and what was told. -/
structure Roster where
  rows : List Roster.Row
  held : TransportId → Option Handle
  told : List Event

namespace Roster

/-! ## What happens to them -/

def tell (v : Roster) (e : Event) : Roster := { v with told := v.told ++ [e] }

/-- A connection is held from now on. -/
def take (v : Roster) (id : TransportId) (h : Handle) : Roster :=
  { v with held := fun id' => if id' = id then some h else v.held id' }

/-- A channel lists a peer, with its transport. -/
def list (v : Roster) (i : Nat) (peer : SocketAddress) (id : TransportId) : Roster :=
  { v with rows := v.rows.modify i fun row =>
      { row with peers := (peer, id) :: row.peers.filter (·.1 ≠ peer) } }

/-- A loss is told, and neither is the connection held nor its peer listed any more. -/
def lose (v : Roster) (id : TransportId) (h : Handle) (status : Status) : Roster where
  rows := v.rows.modify h.channel fun row => { row with peers := row.peers.filter (·.2 ≠ id) }
  held := fun id' => if id' = id then none else v.held id'
  told := v.told ++ [.connectionLost h.channel status h]

/-- A channel has no connection. -/
def Alone (v : Roster) (i : Nat) : Prop := ∀ id h, v.held id = some h → h.channel ≠ i

/-- One change. -/
inductive Shift : Roster → Roster → Prop
  | tell {v : Roster} (e : Event) : Shift v (v.tell e)
  | take {v : Roster} {id : TransportId} {h : Handle} (hfree : v.held id = none)
      (hquiet : ∀ row, v.rows[h.channel]? = some row → row.routes = false) : Shift v (v.take id h)
  | greet {v : Roster} {row : Row} {peer : SocketAddress} {id : TransportId} {h : Handle}
      (hfree : v.held id = none) (hrow : v.rows[h.channel]? = some row) (hroutes : row.routes = true)
      (hudp : h.mask.isUdp = true)
      (hnew : ∀ id', row.peers.lookup peer = some id' → v.held id' = none) :
      Shift v ((v.take id h).list h.channel peer id)
  | lose {v : Roster} {id : TransportId} {h : Handle} (status : Status) (hheld : v.held id = some h) :
      Shift v (v.lose id h status)
  /-- A channel without connections opens or closes. -/
  | turn {v : Roster} {i : Nat} {row row' : Row} (hrow : v.rows[i]? = some row) (halone : v.Alone i)
      (hpeers : row'.peers = row.peers ∨ row'.peers = []) : Shift v { v with rows := v.rows.set i row' }

/-- Any number of changes. -/
def Shifts : Roster → Roster → Prop := Relation.ReflTransGen Shift

variable {v v' v'' : Roster} {i : Nat} {peer : SocketAddress} {id : TransportId} {g h : Handle}

theorem Shifts.refl (v : Roster) : v.Shifts v := Relation.ReflTransGen.refl

theorem Shifts.single (h : v.Shift v') : v.Shifts v' := Relation.ReflTransGen.single h

theorem Shifts.trans (h : v.Shifts v') (h' : v'.Shifts v'') : v.Shifts v'' :=
  Relation.ReflTransGen.trans h h'

/-! ## What every change keeps -/

/-- A channel's list is right: its peers and their transports are distinct, the transports are the channel's
own, and no channel lists any but a datagram server. -/
structure Row.Sound (held : TransportId → Option Handle) (i : Nat) (row : Row) : Prop where
  peers : (row.peers.map Prod.fst).Nodup
  ids : (row.peers.map Prod.snd).Nodup
  live : row.routes = true → ∀ id, id ∈ row.peers.map Prod.snd ↔ ∃ h, held id = some h ∧ h.channel = i
  udp : row.routes = true → ∀ id h, held id = some h → h.channel = i → h.mask.isUdp = true
  idle : row.routes = false → row.peers = []

/-- Every channel's list is right. -/
def Sound (v : Roster) : Prop := ∀ (i : Nat) (row : Row), v.rows[i]? = some row → row.Sound v.held i

/-- A peer's messages go to a connection. -/
def Maps (v : Roster) (i : Nat) (peer : SocketAddress) (h : Handle) : Prop :=
  ∃ row id, v.rows[i]? = some row ∧ (peer, id) ∈ row.peers ∧ v.held id = some h

namespace Row.Sound

variable {held held' : TransportId → Option Handle} {row row' : Row}

/-- What is listed is held, as a connection of this channel. -/
theorem exists_held (hrow : row.Sound held i) (hmem : (peer, id) ∈ row.peers) :
    ∃ h, held id = some h ∧ h.channel = i := by
  cases hroutes : row.routes with
  | false => simp [hrow.idle hroutes] at hmem
  | true => exact (hrow.live hroutes id).1 (List.mem_map_of_mem hmem)

theorem routes_of_mem (hrow : row.Sound held i) (hmem : (peer, id) ∈ row.peers) : row.routes = true := by
  by_contra hidle
  simp [hrow.idle (Bool.eq_false_iff.2 hidle)] at hmem

/-- Connections of other channels do not matter. -/
theorem congr (hrow : row.Sound held i)
    (hsame : ∀ id h, h.channel = i → (held' id = some h ↔ held id = some h)) : row.Sound held' i where
  peers := hrow.peers
  ids := hrow.ids
  live hroutes id := by
    refine (hrow.live hroutes id).trans ⟨?_, ?_⟩
    · rintro ⟨h, hh, hi⟩
      exact ⟨h, (hsame id h hi).2 hh, hi⟩
    · rintro ⟨h, hh, hi⟩
      exact ⟨h, (hsame id h hi).1 hh, hi⟩
  udp hroutes id h hh hi := hrow.udp hroutes id h ((hsame id h hi).1 hh) hi
  idle := hrow.idle

/-- Nor does an identifier that other channels have before and after. -/
theorem elsewhere (hrow : row.Sound held i) {holder? : Option Handle}
    (hbefore : ∀ h, held id = some h → h.channel ≠ i) (hafter : ∀ h, holder? = some h → h.channel ≠ i) :
    Row.Sound (fun id' => if id' = id then holder? else held id') i row := by
  refine hrow.congr fun id' g hg => ?_
  by_cases hid : id' = id
  · subst hid
    rw [if_pos rfl]
    exact ⟨fun hh => absurd hg (hafter g hh), fun hh => absurd hg (hbefore g hh)⟩
  · rw [if_neg hid]

/-- A peer without a connection is not listed. -/
theorem not_mem_of_lookup (hrow : row.Sound held i)
    (hnew : ∀ id', row.peers.lookup peer = some id' → held id' = none) (id : TransportId) :
    (peer, id) ∉ row.peers := by
  intro hmem
  cases hlookup : row.peers.lookup peer with
  | none =>
    have hne := List.lookup_eq_none_iff.1 hlookup (peer, id) hmem
    simp at hne
  | some id' =>
    obtain ⟨before, after, heq, -⟩ := List.lookup_eq_some_iff.1 hlookup
    have hmem' : (peer, id') ∈ row.peers := by simp [heq]
    obtain ⟨h, hheld, -⟩ := hrow.exists_held hmem'
    simp [hnew id' hlookup] at hheld

/-- A new peer of a datagram server is listed with a new connection. -/
theorem list (hrow : row.Sound held h.channel) (hfree : held id = none) (hroutes : row.routes = true)
    (hudp : h.mask.isUdp = true) (hnew : ∀ id', (peer, id') ∉ row.peers) :
    Row.Sound (fun id' => if id' = id then some h else held id') h.channel
      { row with peers := (peer, id) :: row.peers.filter (·.1 ≠ peer) } := by
  have hkept : row.peers.filter (·.1 ≠ peer) = row.peers := by
    refine List.filter_eq_self.2 fun x hx => ?_
    have hne : x.1 ≠ peer := by
      rintro rfl
      exact hnew x.2 hx
    simpa using hne
  have hunlisted : id ∉ row.peers.map Prod.snd := by
    intro hmem
    obtain ⟨g, hheld, -⟩ := (hrow.live hroutes id).1 hmem
    simp [hfree] at hheld
  rw [hkept]
  refine ⟨?_, ?_, fun _ id' => ?_, fun _ id' g hg hchannel => ?_, fun hidle => ?_⟩
  · refine List.nodup_cons.2 ⟨fun hmem => ?_, hrow.peers⟩
    obtain ⟨x, hx, rfl⟩ := List.mem_map.1 hmem
    exact hnew x.2 hx
  · exact List.nodup_cons.2 ⟨hunlisted, hrow.ids⟩
  · by_cases hid : id' = id
    · simp [hid]
    · simp [hid, ← hrow.live hroutes id']
  · by_cases hid : id' = id
    · simp only [if_pos hid, Option.some.injEq] at hg
      exact hg ▸ hudp
    · rw [if_neg hid] at hg
      exact hrow.udp hroutes id' g hg hchannel
  · simp [hroutes] at hidle

/-- What is lost is struck off the list. -/
theorem lose (hrow : row.Sound held i) (id : TransportId) :
    Row.Sound (fun id' => if id' = id then none else held id') i
      { row with peers := row.peers.filter (·.2 ≠ id) } where
  peers := hrow.peers.sublist ((List.filter_sublist).map _)
  ids := hrow.ids.sublist ((List.filter_sublist).map _)
  live hroutes id' := by
    have hlive := hrow.live hroutes id'
    by_cases hid : id' = id
    · simp [hid]
    · simp only [List.mem_map] at hlive
      simp only [List.mem_map, List.mem_filter, if_neg hid, ← hlive]
      refine exists_congr fun x => ⟨fun hx => ⟨hx.1.1, hx.2⟩, fun hx => ⟨⟨hx.1, ?_⟩, hx.2⟩⟩
      simpa [hx.2] using hid
  udp hroutes id' g hg hchannel := by
    by_cases hid : id' = id
    · simp [hid] at hg
    · rw [if_neg hid] at hg
      exact hrow.udp hroutes id' g hg hchannel
  idle hidle := by simp [hrow.idle hidle]

/-- A channel without connections lists nothing, whether it routes messages or not. -/
theorem turn (hrow : row.Sound held i) (halone : ∀ id h, held id = some h → h.channel ≠ i)
    (hpeers : row'.peers = row.peers ∨ row'.peers = []) : row'.Sound held i := by
  have hnone : row.peers = [] := by
    refine List.eq_nil_iff_forall_not_mem.2 fun x hx => ?_
    obtain ⟨peer, id⟩ := x
    obtain ⟨h, hheld, hi⟩ := hrow.exists_held hx
    exact halone id h hheld hi
  have hnone' : row'.peers = [] := hpeers.elim (·.trans hnone) id
  refine ⟨by simp [hnone'], by simp [hnone'], fun _ id => ?_, fun _ id h hh hi => ?_, fun _ => hnone'⟩
  · simpa [hnone'] using halone id
  · exact absurd hi (halone id h hh)

end Row.Sound

/-- **A change keeps every list right.** -/
theorem Shift.sound (hshift : Shift v v') (hv : v.Sound) : v'.Sound := by
  intro j row' hrow'
  cases hshift with
  | tell e => exact hv j row' hrow'
  | @take id h hfree hquiet =>
    have hrow := hv j row' hrow'
    by_cases hj : h.channel = j
    · have hidle : row'.routes = false := hquiet row' (hj ▸ hrow')
      exact ⟨hrow.peers, hrow.ids, by simp [hidle], by simp [hidle], hrow.idle⟩
    · exact hrow.elsewhere (by simp [hfree]) (by simpa using hj)
  | @greet row peer id h hfree hrow hroutes hudp hnew =>
    have hunlisted := (hv _ row hrow).not_mem_of_lookup hnew
    by_cases hj : h.channel = j
    · subst hj
      simp only [Roster.list, Roster.take, List.getElem?_modify, hrow, if_true, Option.map_eq_map,
        Option.map_some, Option.some.injEq] at hrow'
      exact hrow' ▸ (hv _ row hrow).list hfree hroutes hudp hunlisted
    · simp only [Roster.list, Roster.take, List.getElem?_modify, if_neg hj, Option.map_eq_map,
        Option.map_id_fun', id_eq] at hrow'
      exact (hv j row' hrow').elsewhere (by simp [hfree]) (by simpa using hj)
  | @lose id h status hheld =>
    simp only [Roster.lose, List.getElem?_modify] at hrow'
    by_cases hj : h.channel = j
    · subst hj
      obtain ⟨row, hrow, rfl⟩ := Option.map_eq_some_iff.1 hrow'
      simpa [Roster.lose] using (hv _ row hrow).lose id
    · simp only [if_neg hj, Option.map_eq_map, Option.map_id_fun', id_eq] at hrow'
      exact (hv j row' hrow').elsewhere (by simpa [hheld] using hj) (by simp)
  | @turn i row new hrow halone hpeers =>
    obtain ⟨hlt, -⟩ := List.getElem?_eq_some_iff.1 hrow
    by_cases hj : i = j
    · subst hj
      simp only [List.getElem?_set_self hlt, Option.some.injEq] at hrow'
      exact hrow' ▸ (hv i row hrow).turn halone hpeers
    · rw [List.getElem?_set_ne hj] at hrow'
      exact hv j row' hrow'

theorem Shifts.sound (hshifts : Shifts v v') (hv : v.Sound) : v'.Sound := by
  induction hshifts with
  | refl => exact hv
  | tail _ hshift ih => exact hshift.sound ih

theorem Shift.told (hshift : Shift v v') : ∃ new, v'.told = v.told ++ new := by
  cases hshift with
  | tell e => exact ⟨[e], rfl⟩
  | lose status hheld => exact ⟨_, rfl⟩
  | _ => exact ⟨[], by simp [Roster.take, Roster.list]⟩

/-- **A change leaves a peer its connection, or tells of the loss of it.** -/
theorem Shift.keeps (hshift : Shift v v') (hv : v.Sound) (hmaps : v.Maps i peer g) :
    v'.Maps i peer g ∨ ∃ status, v'.told = v.told ++ [.connectionLost i status g] := by
  obtain ⟨row, k, hrow, hmem, hk⟩ := hmaps
  cases hshift with
  | tell e => exact .inl ⟨row, k, hrow, hmem, hk⟩
  | @take id h hfree hquiet =>
    have hne : k ≠ id := by
      rintro rfl
      simp [hfree] at hk
    exact .inl ⟨row, k, hrow, hmem, by simp [Roster.take, hne, hk]⟩
  | @greet row' newcomer id h hfree hrow' hroutes hudp hnew =>
    have hne : k ≠ id := by
      rintro rfl
      simp [hfree] at hk
    have hheld : ((v.take id h).list h.channel newcomer id).held k = some g := by
      simp [Roster.list, Roster.take, hne, hk]
    by_cases hi : h.channel = i
    · subst hi
      obtain rfl : row' = row := Option.some.inj (hrow'.symm.trans hrow)
      have hother : peer ≠ newcomer := by
        rintro rfl
        exact (hv _ row' hrow').not_mem_of_lookup hnew k hmem
      have hlisted : ((v.take id h).list h.channel newcomer id).rows[h.channel]? =
          some { row' with peers := (newcomer, id) :: row'.peers.filter (·.1 ≠ newcomer) } := by
        simp [Roster.list, Roster.take, hrow]
      refine .inl ⟨_, k, hlisted, ?_, hheld⟩
      exact List.mem_cons_of_mem _ (List.mem_filter.2 ⟨hmem, by simpa using hother⟩)
    · refine .inl ⟨row, k, ?_, hmem, hheld⟩
      simp [Roster.list, Roster.take, hi, hrow]
  | @lose id h status hheld =>
    by_cases hid : k = id
    · subst hid
      obtain rfl : h = g := Option.some.inj (hheld.symm.trans hk)
      obtain ⟨h', hh', rfl⟩ := (hv i row hrow).exists_held hmem
      obtain rfl : h' = h := Option.some.inj (hh'.symm.trans hk)
      exact .inr ⟨status, rfl⟩
    · have hrow' : (v.lose id h status).rows[i]? = some
          (if h.channel = i then { row with peers := row.peers.filter (·.2 ≠ id) } else row) := by
        simp only [Roster.lose, List.getElem?_modify, hrow, Option.map_eq_map, Option.map_some]
      refine .inl ⟨_, k, hrow', ?_, by simp [Roster.lose, hid, hk]⟩
      split
      · exact List.mem_filter.2 ⟨hmem, by simpa using hid⟩
      · exact hmem
  | @turn j row₀ new hrow₀ halone hpeers =>
    obtain ⟨h, hheld, hchannel⟩ := (hv i row hrow).exists_held hmem
    have hne : j ≠ i := by
      rintro rfl
      exact halone k h hheld hchannel
    exact .inl ⟨row, k, by simp [List.getElem?_set_ne hne, hrow], hmem, hk⟩

/-- **A peer keeps its connection until the loss of it is told.** -/
theorem Shifts.keeps (hshifts : Shifts v v') (hv : v.Sound) (hmaps : v.Maps i peer g) :
    ∃ new, v'.told = v.told ++ new ∧
      (v'.Maps i peer g ∨ ∃ status, Event.connectionLost i status g ∈ new) := by
  induction hshifts with
  | refl => exact ⟨[], by simp, .inl hmaps⟩
  | tail hshifts hshift ih =>
    obtain ⟨new, hnew, hmaps | ⟨status, hlost⟩⟩ := ih
    · rcases hshift.keeps (Shifts.sound hshifts hv) hmaps with hmaps | ⟨status, hlost⟩
      · obtain ⟨more, hmore⟩ := hshift.told
        exact ⟨new ++ more, by rw [hmore, hnew, List.append_assoc], .inl hmaps⟩
      · exact ⟨new ++ [.connectionLost i status g], by rw [hlost, hnew, List.append_assoc],
          .inr ⟨status, by simp⟩⟩
    · obtain ⟨more, hmore⟩ := hshift.told
      exact ⟨new ++ more, by rw [hmore, hnew, List.append_assoc],
        .inr ⟨status, List.mem_append_left _ hlost⟩⟩

end Roster

end NetReactor
