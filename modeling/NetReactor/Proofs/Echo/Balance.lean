import NetReactor.Proofs.Echo.Wire
import NetReactor.Reactor.Turn

/-!
# The balance of an echoed connection

What a server's connection has heard goes one way: its frames are told as packets, a packet's octets are
written to its own queue, and the queue is sent. **What was said, what the queue still has to send and what
is still to be told are, in this order, the frames that were heard** (`Balanced`), at every moment, if what is
still to be told counts the events of the work in hand (`pending`): a batch that is being dispatched stands
before what waits, a row that is being emitted behind it.

A connection that is about to be lost is out of balance (`spared`). Each of the laws of `Faithful` says what
one deed of the loop does to all connections at once; **no deed on one connection touches another's**, because
two transports have neither a descriptor nor a connection in common.
-/

namespace NetReactor

/-- What an event brings to the connection with this number. -/
def Event.payloadTo (n : Nat) : Event → Bytes
  | packet _ h payload => if h.serial = n then payload else []
  | _ => []

/-- What some events bring to the connection with this number. -/
def payloadsTo (n : Nat) (events : List Event) : Bytes := events.flatMap (Event.payloadTo n)

theorem payloadsTo_cons (n : Nat) (e : Event) (rest : List Event) :
    payloadsTo n (e :: rest) = e.payloadTo n ++ payloadsTo n rest := rfl

theorem payloadsTo_append (n : Nat) (xs ys : List Event) :
    payloadsTo n (xs ++ ys) = payloadsTo n xs ++ payloadsTo n ys := List.flatMap_append

theorem payloadsTo_packets {n : Nat} {channel : Nat} {h : Handle} (packets : List Bytes) :
    payloadsTo n (packets.map (.packet channel h)) = if h.serial = n then packets.flatten else [] := by
  induction packets with
  | nil => simp [payloadsTo]
  | cons b rest ih =>
    rw [List.map_cons, payloadsTo_cons, ih, Event.payloadTo]
    split
    · rfl
    · rfl

/-- A mask of a stream's server, or of a channel that was never opened. -/
def ChannelMask.Serves (m : ChannelMask) : Prop := m.isClient = false ∧ m.isUdp = false

/-- A command that opens nothing but servers of streams. -/
def Command.Serves : Command → Prop
  | openChannel _ mask => mask.Serves
  | _ => True

namespace Echo

open Wire (Reader)

/-! ## One connection -/

/-- A connection in balance, where so many octets were heard and said and are still to be told. -/
structure Balanced (f : Framing) (heard said told : Bytes) (a : Assembler) (c : Connection) : Prop where
  isOpen : c.isOpen = true
  lasting : Lasting c.outgoing
  frames : ∃ packets, Reader f heard packets a ∧ said ++ unsentOf c.outgoing ++ told = packets.flatten

section
variable {f : Framing} {heard said told : Bytes} {a : Assembler} {c : Connection}

theorem balanced_new (f : Framing) (h : Handle) : Balanced f [] [] [] .new (.ofHandle h) :=
  ⟨rfl, (fun _ hm => nomatch hm), [], Wire.reader_new f, rfl⟩

/-- **A packet that is written goes to the end of the queue.** -/
theorem Balanced.write {payload : Bytes} (h : Balanced f heard said (payload ++ told) a c) :
    Balanced f heard said told a (c.enqueue (.new payload none)) := by
  obtain ⟨packets, hreader, hframes⟩ := h.frames
  refine ⟨h.isOpen, fun m hm => ?_, packets, hreader, ?_⟩
  · rcases List.mem_append.1 hm with hm | hm
    · exact h.lasting m hm
    · rw [List.mem_singleton.1 hm]
      rfl
  · rw [← hframes]
    simp [Connection.enqueue, unsentOf, Outgoing.unsent, Outgoing.new]

/-- **What is sent goes from the front of the queue to what was said.** -/
theorem Balanced.send (h : Balanced f heard said told a c) {queue : List Outgoing} {sent : Bytes}
    (hsent : unsentOf c.outgoing = sent ++ unsentOf queue) (hlasting : Lasting queue) :
    Balanced f heard (said ++ sent) told a { c with outgoing := queue } := by
  obtain ⟨packets, hreader, hframes⟩ := h.frames
  refine ⟨h.isOpen, hlasting, packets, hreader, ?_⟩
  rw [← hframes, hsent]
  simp

/-- **What is received is to be told**, and the rest stays with the reader. -/
theorem Balanced.receive (h : Balanced f heard said told a c) {heard' : Bytes} {cut : List Bytes}
    {a' : Assembler} (hread : ∀ packets, Reader f heard packets a → Reader f heard' (packets ++ cut) a') :
    Balanced f heard' said (told ++ cut.flatten) a' c := by
  obtain ⟨packets, hreader, hframes⟩ := h.frames
  refine ⟨h.isOpen, h.lasting, packets ++ cut, hread packets hreader, ?_⟩
  rw [List.flatten_append, ← hframes]
  simp

end

/-! ## All of them -/

/-- What the echo is about of a loop. -/
structure Scene where
  transports : Arena Transport
  masks : List ChannelMask
  options : Options
  /-- The service's options. -/
  shared : Options
  callback : Option Nat
  commands : List NetReactor.Command
  events : EventQueue
  connections : Array Connection
  heard : Descriptor → Bytes
  said : Descriptor → Bytes

namespace Scene

/-- A transport is a stream's, and stands with its connection. -/
structure Held (v : Scene) (id : TransportId) (t : Transport) : Prop where
  named : t.handle.id = id
  stream : t.handle.mask.isUdp = false
  connection : ∃ c, v.connections[t.handle.serial]? = some c ∧ c.handle = t.handle

/-- A transport's connection is in balance. -/
def Echoes (v : Scene) (f : Framing) (pending : List Event) (t : Transport) : Prop :=
  ∃ c, v.connections[t.handle.serial]? = some c ∧
    Balanced f (v.heard t.descriptor) (v.said t.descriptor) (payloadsTo t.handle.serial pending)
      t.assembler c

/-- Two transports do not share a descriptor. -/
def Apart (v : Scene) : Prop :=
  ∀ {id id' t t'}, v.transports.get? id = some t → v.transports.get? id' = some t' →
    t.descriptor = t'.descriptor → id = id'

variable {v v' : Scene} {f : Framing} {pending pending' : List Event} {id : TransportId} {t : Transport}

/-- A transport stands with its connection as long as nothing changes the connection's handle. -/
theorem Held.modify (h : v.Held id t) {n : Nat} {f : Connection → Connection}
    (hconnections : v'.connections = v.connections.modify n f) (hf : ∀ c, (f c).handle = c.handle) :
    v'.Held id t := by
  obtain ⟨c, hc, hhandle⟩ := h.connection
  refine ⟨h.named, h.stream, if n = t.handle.serial then f c else c, ?_, ?_⟩
  · rw [hconnections, Array.getElem?_modify, hc]
    split
    · rfl
    · rfl
  · split
    · exact (hf c).trans hhandle
    · exact hhandle

theorem Held.congr (h : v.Held id t) (hconnections : v'.connections = v.connections) : v'.Held id t :=
  ⟨h.named, h.stream, hconnections ▸ h.connection⟩

/-- **What does not touch a connection leaves its balance.** -/
theorem Echoes.congr (h : v.Echoes f pending t)
    (hconnection : v'.connections[t.handle.serial]? = v.connections[t.handle.serial]?)
    (hheard : v'.heard t.descriptor = v.heard t.descriptor)
    (hsaid : v'.said t.descriptor = v.said t.descriptor)
    (htold : payloadsTo t.handle.serial pending' = payloadsTo t.handle.serial pending) :
    v'.Echoes f pending' t := by
  rw [Echoes, hconnection, hheard, hsaid, htold]
  exact h

end Scene

/-- **Every connection is in balance**, but for one that is about to be lost. -/
structure Faithful (o : Options) (pending : List Event) (spared : Option TransportId) (v : Scene) :
    Prop where
  options : v.options = o
  shared : v.shared = o
  callback : v.callback.isSome
  masks : ∀ m ∈ v.masks, m.Serves
  commands : ∀ c ∈ v.commands, c.Serves
  /-- Events are dispatched, or never queued. -/
  prompt : o.deferEvents = false → v.events = []
  /-- Nothing is to be told to connections that are still to come. -/
  numbered : ∀ {channel h payload}, .packet channel h payload ∈ pending → h.serial < v.connections.size
  held : ∀ {id t}, v.transports.get? id = some t → v.Held id t
  echoes : ∀ {id t}, v.transports.get? id = some t → spared ≠ some id → v.Echoes o.framing pending t

namespace Faithful

variable {o : Options} {pending : List Event} {spared : Option TransportId} {v : Scene}
variable {id id' : TransportId} {t t' : Transport}

/-- **Two transports do not share a connection.** -/
theorem serial_ne (hv : Faithful o pending spared v) (ht : v.transports.get? id = some t)
    (ht' : v.transports.get? id' = some t') (hne : id' ≠ id) : t.handle.serial ≠ t'.handle.serial := by
  intro hsame
  obtain ⟨c, hc, hhandle⟩ := (hv.held ht).connection
  obtain ⟨c', hc', hhandle'⟩ := (hv.held ht').connection
  obtain rfl : c = c' := Option.some.inj (hc.symm.trans (hsame ▸ hc'))
  have hid : t'.handle.id = t.handle.id := congrArg Handle.id (hhandle'.symm.trans hhandle)
  exact hne ((hv.held ht').named.symm.trans (hid.trans (hv.held ht).named))

/-- Whatever is about to be lost may be out of balance. -/
theorem spare (hv : Faithful o pending none v) (id : TransportId) : Faithful o pending (some id) v :=
  { hv with echoes := fun ht _ => hv.echoes ht nofun }

/-- Commands come and go, as long as they open nothing but servers. -/
theorem order (hv : Faithful o pending spared v) {commands : List NetReactor.Command}
    (hserve : ∀ c ∈ commands, c.Serves) : Faithful o pending spared { v with commands := commands } :=
  { hv with
    commands := hserve
    held := fun ht => (hv.held ht).congr rfl
    echoes := fun ht hspared => (hv.echoes ht hspared).congr rfl rfl rfl rfl }

/-- Channels are opened as servers only. -/
theorem mask (hv : Faithful o pending spared v) {masks : List ChannelMask} (hserve : ∀ m ∈ masks, m.Serves) :
    Faithful o pending spared { v with masks := masks } :=
  { hv with
    masks := hserve
    held := fun ht => (hv.held ht).congr rfl
    echoes := fun ht hspared => (hv.echoes ht hspared).congr rfl rfl rfl rfl }

/-! ### Telling -/

/-- Events come and go on the queue, where they are dispatched. -/
theorem queue (hv : Faithful o pending spared v) {events : EventQueue}
    (hprompt : o.deferEvents = false → v.events = [] → events = []) :
    Faithful o pending spared { v with events := events } :=
  { hv with
    prompt := fun h => hprompt h (hv.prompt h)
    held := fun ht => (hv.held ht).congr rfl
    echoes := fun ht hspared => (hv.echoes ht hspared).congr rfl rfl rfl rfl }

/-- What is no packet brings nothing. -/
theorem tell (hv : Faithful o pending spared v) {e : Event} (he : Command.isPacket e = false) :
    Faithful o (pending ++ [e]) spared v := by
  refine { hv with numbered := fun {channel h payload} hmem => ?_, echoes := fun {id t} ht hspared => ?_ }
  · rcases List.mem_append.1 hmem with hmem | hmem
    · exact hv.numbered hmem
    · rw [← List.mem_singleton.1 hmem] at he
      cases he
  · refine (hv.echoes ht hspared).congr rfl rfl rfl ?_
    have hnone : payloadsTo t.handle.serial [e] = [] := by
      cases e with
      | packet channel h payload => cases he
      | connectResponse channel status h => rfl
      | connectionLost channel status h => rfl
    rw [payloadsTo_append, hnone, List.append_nil]

/-- An event that brings nothing to those in balance may be passed over. -/
theorem skip {e : Event} (hv : Faithful o (e :: pending) spared v)
    (he : ∀ {id t}, v.transports.get? id = some t → spared ≠ some id → e.payloadTo t.handle.serial = []) :
    Faithful o pending spared v := by
  refine { hv with numbered := fun hmem => hv.numbered (List.mem_cons_of_mem _ hmem), echoes := ?_ }
  intro id t ht hspared
  refine (hv.echoes ht hspared).congr rfl rfl rfl ?_
  rw [payloadsTo_cons, he ht hspared]
  rfl

/-- A packet of a connection that is closed already is nobody's. -/
theorem discard {channel : Nat} {h : Handle} {payload : Bytes}
    (hv : Faithful o (.packet channel h payload :: pending) spared v)
    (hclosed : ∀ c, v.connections[h.serial]? = some c → c.isOpen = false) :
    Faithful o pending spared v := by
  refine hv.skip fun {id t} ht hspared => if_neg fun hsame => ?_
  obtain ⟨c, hc, hbalanced⟩ := hv.echoes ht hspared
  have hopen := hbalanced.isOpen
  rw [hclosed c (hsame ▸ hc)] at hopen
  cases hopen

/-- **A packet that is written back goes from the pending ones to its connection's queue.** -/
theorem write {channel : Nat} {h : Handle} {payload : Bytes}
    (hv : Faithful o (.packet channel h payload :: pending) spared v) :
    Faithful o pending spared { v with
      connections := v.connections.modify h.serial (·.enqueue (.new payload none)) } := by
  refine { hv with numbered := fun hmem => ?_, held := fun ht => ?_, echoes := fun {id t} ht hspared => ?_ }
  · rw [Array.size_modify]
    exact hv.numbered (List.mem_cons_of_mem _ hmem)
  · exact (hv.held ht).modify (f := (·.enqueue (.new payload none))) rfl fun _ => rfl
  · by_cases hsame : h.serial = t.handle.serial
    · obtain ⟨c, hc, hbalanced⟩ := hv.echoes ht hspared
      rw [payloadsTo_cons, Event.payloadTo, if_pos hsame] at hbalanced
      exact ⟨_, by simp [Array.getElem?_modify, hsame, hc], hbalanced.write⟩
    · refine (hv.echoes ht hspared).congr ?_ rfl rfl ?_
      · rw [Array.getElem?_modify, if_neg hsame]
      · rw [payloadsTo_cons, Event.payloadTo, if_neg hsame]
        rfl

/-! ### Sending and receiving -/

/-- **What one connection sends changes no other's balance.** -/
theorem send (hv : Faithful o pending none v) (hapart : v.Apart) (ht : v.transports.get? id = some t)
    {queue : List Outgoing} {sent : Bytes} {said : Descriptor → Bytes}
    (hsent : ∀ c, v.connections[t.handle.serial]? = some c → Lasting c.outgoing →
      unsentOf c.outgoing = sent ++ unsentOf queue ∧ Lasting queue)
    (hsaid : ∀ d, said d = v.said d ++ if d = t.descriptor then sent else []) :
    Faithful o pending none { v with
      connections := v.connections.modify t.handle.serial ({ · with outgoing := queue })
      said := said } := by
  refine { hv with numbered := fun hmem => ?_, held := fun ht' => ?_, echoes := fun {id' t'} ht' _ => ?_ }
  · rw [Array.size_modify]
    exact hv.numbered hmem
  · exact (hv.held ht').modify (f := ({ · with outgoing := queue })) rfl fun _ => rfl
  · have hechoes := hv.echoes ht' nofun
    by_cases hid : id' = id
    · subst hid
      obtain rfl : t = t' := Option.some.inj (ht.symm.trans ht')
      obtain ⟨c, hc, hbalanced⟩ := hechoes
      obtain ⟨hunsent, hlasting⟩ := hsent c hc hbalanced.lasting
      have hgrown := hsaid t.descriptor
      rw [if_pos rfl] at hgrown
      refine ⟨{ c with outgoing := queue }, by simp [Array.getElem?_modify, hc], ?_⟩
      show Balanced _ _ (said t.descriptor) _ _ _
      rw [hgrown]
      exact hbalanced.send hunsent hlasting
    · refine hechoes.congr ?_ rfl ?_ rfl
      · rw [Array.getElem?_modify, if_neg (hv.serial_ne ht ht' hid)]
      · have hd : t'.descriptor ≠ t.descriptor := fun hsame => hid (hapart ht' ht hsame)
        have hsame := hsaid t'.descriptor
        rwa [if_neg hd, List.append_nil] at hsame

/-- **What one connection receives changes no other's balance**; if it cannot be read any more, it is about
to be lost. -/
theorem receive (hv : Faithful o pending none v) (hapart : v.Apart) (ht : v.transports.get? id = some t)
    {a : Assembler} {cut : List Bytes} {heard : Descriptor → Bytes}
    (hothers : ∀ d, d ≠ t.descriptor → heard d = v.heard d)
    (hread : spared ≠ some id → ∀ packets, Reader o.framing (v.heard t.descriptor) packets t.assembler →
      Reader o.framing (heard t.descriptor) (packets ++ cut) a) :
    Faithful o (pending ++ cut.map (.packet t.handle.channel t.handle)) spared { v with
      transports := v.transports.modify id ({ · with assembler := a })
      heard := heard } := by
  have hget : ∀ {id' t'}, (v.transports.modify id ({ · with assembler := a })).get? id' = some t' →
      (id' = id ∧ t' = { t with assembler := a }) ∨ (id' ≠ id ∧ v.transports.get? id' = some t') := by
    intro id' t' ht'
    rw [Arena.get?_modify] at ht'
    by_cases hid : id' = id
    · subst hid
      rw [ht] at ht'
      exact .inl ⟨rfl, by simpa using ht'.symm⟩
    · exact .inr ⟨hid, by simpa [hid] using ht'⟩
  refine { hv with numbered := fun hmem => ?_, held := fun ht' => ?_, echoes := fun {id' t'} ht' hspared => ?_ }
  · rcases List.mem_append.1 hmem with hmem | hmem
    · exact hv.numbered hmem
    · obtain ⟨b, -, heq⟩ := List.mem_map.1 hmem
      obtain ⟨c, hc, -⟩ := (hv.held ht).connection
      obtain ⟨-, rfl, -⟩ := Event.packet.inj heq
      exact (Array.getElem?_eq_some_iff.1 hc).1
  · rcases hget ht' with ⟨rfl, rfl⟩ | ⟨-, ht'⟩
    · exact ⟨(hv.held ht).named, (hv.held ht).stream, (hv.held ht).connection⟩
    · exact (hv.held ht').congr rfl
  · rcases hget ht' with ⟨rfl, rfl⟩ | ⟨hid, ht'⟩
    · obtain ⟨c, hc, hbalanced⟩ := hv.echoes ht nofun
      refine ⟨c, hc, ?_⟩
      rw [payloadsTo_append, payloadsTo_packets, if_pos rfl]
      exact hbalanced.receive (hread hspared)
    · refine (hv.echoes ht' nofun).congr rfl ?_ rfl ?_
      · exact hothers _ fun hsame => hid (hapart ht' ht hsame)
      · rw [payloadsTo_append, payloadsTo_packets, if_neg (hv.serial_ne ht ht' hid), List.append_nil]

/-- A transport may be watched for something else. -/
theorem renew (hv : Faithful o pending spared v) (id : TransportId) (interest : Interest) :
    Faithful o pending spared { v with
      transports := v.transports.modify id ({ · with interest := interest }) } := by
  have hget : ∀ {id' t'}, (v.transports.modify id ({ · with interest := interest })).get? id' = some t' →
      ∃ t interest, v.transports.get? id' = some t ∧ t' = { t with interest := interest } := by
    intro id' t' ht'
    rw [Arena.get?_modify] at ht'
    obtain ⟨t, ht, rfl⟩ := Option.map_eq_some_iff.1 ht'
    split
    · exact ⟨t, interest, ht, rfl⟩
    · exact ⟨t, t.interest, ht, rfl⟩
  refine { hv with held := fun ht' => ?_, echoes := fun ht' hspared => ?_ }
  · obtain ⟨t, interest, ht, rfl⟩ := hget ht'
    exact ⟨(hv.held ht).named, (hv.held ht).stream, (hv.held ht).connection⟩
  · obtain ⟨t, interest, ht, rfl⟩ := hget ht'
    have hechoes := hv.echoes ht hspared
    exact hechoes

/-! ### Connections come and go -/

/-- A connection that is about to be lost is closed. -/
theorem close (hv : Faithful o pending (some id) v) (ht : v.transports.get? id = some t)
    (status : Status) : Faithful o pending (some id) { v with
      connections := v.connections.modify t.handle.serial (·.close status) } := by
  refine { hv with numbered := fun hmem => ?_, held := fun ht' => ?_, echoes := fun {id' t'} ht' hspared => ?_ }
  · rw [Array.size_modify]
    exact hv.numbered hmem
  · exact (hv.held ht').modify (f := (·.close status)) rfl fun _ => rfl
  · refine (hv.echoes ht' hspared).congr ?_ rfl rfl rfl
    have hserial := hv.serial_ne ht ht' fun hid => hspared (congrArg some hid.symm)
    rw [Array.getElem?_modify, if_neg hserial]

/-- Once it is lost, all that are left are in balance. -/
theorem lose (hv : Faithful o pending (some id) v) :
    Faithful o pending none { v with transports := (v.transports.remove id).2 } := by
  have hget : ∀ {id' t'}, (v.transports.remove id).2.get? id' = some t' →
      id' ≠ id ∧ v.transports.get? id' = some t' := by
    intro id' t' ht'
    rw [Arena.get?_remove] at ht'
    by_cases hid : id' = id
    · rw [if_pos hid] at ht'
      cases ht'
    · rw [if_neg hid] at ht'
      exact ⟨hid, ht'⟩
  refine { hv with held := fun ht' => (hv.held (hget ht').2).congr rfl, echoes := fun ht' _ => ?_ }
  obtain ⟨hid, ht'⟩ := hget ht'
  exact (hv.echoes ht' fun heq => hid (Option.some.inj heq).symm).congr rfl rfl rfl rfl

/-- A descriptor that nobody holds may begin a new record. -/
theorem grant (hv : Faithful o pending none v) {d : Descriptor}
    (hspare : ∀ {id t}, v.transports.get? id = some t → t.descriptor ≠ d) {heard said : Descriptor → Bytes}
    (hheard : ∀ e, e ≠ d → heard e = v.heard e) (hsaid : ∀ e, e ≠ d → said e = v.said e) :
    Faithful o pending none { v with heard := heard, said := said } := by
  refine { hv with held := fun ht => (hv.held ht).congr rfl, echoes := fun ht _ => ?_ }
  exact (hv.echoes ht nofun).congr rfl (hheard _ (hspare ht)) (hsaid _ (hspare ht)) rfl

/-- **A new connection is in balance**: nothing was heard of it and nothing said, and nothing is to be told
to it. -/
theorem add (hv : Faithful o pending none v) {h : Handle} {d : Descriptor}
    (hserial : h.serial = v.connections.size) (hstream : h.mask.isUdp = false) (hheard : v.heard d = [])
    (hsaid : v.said d = []) {transports : Arena Transport} (hget : ∀ id, transports.get? id =
      if id = h.id then some ⟨h, d, .new, .read⟩ else v.transports.get? id) :
    Faithful o pending none { v with
      transports := transports
      connections := v.connections.push (.ofHandle h) } := by
  have hsplit : ∀ {id t}, transports.get? id = some t →
      (id = h.id ∧ t = ⟨h, d, .new, .read⟩) ∨ v.transports.get? id = some t := by
    intro id t ht
    rw [hget] at ht
    split at ht
    · rename_i hid
      exact .inl ⟨hid, (Option.some.inj ht).symm⟩
    · exact .inr ht
  have hnew : (v.connections.push (.ofHandle h))[h.serial]? = some (.ofHandle h) := by
    rw [hserial, Array.getElem?_push_size]
  have hold : ∀ {n : Nat} {c : Connection}, v.connections[n]? = some c →
      (v.connections.push (.ofHandle h))[n]? = v.connections[n]? := by
    intro n c hc
    have hlt := (Array.getElem?_eq_some_iff.1 hc).1
    rw [Array.getElem?_push, if_neg (Nat.ne_of_lt hlt)]
  refine { hv with numbered := fun hmem => ?_, held := fun ht => ?_, echoes := fun {id t} ht _ => ?_ }
  · rw [Array.size_push]
    exact Nat.lt_succ_of_lt (hv.numbered hmem)
  · rcases hsplit ht with ⟨rfl, rfl⟩ | ht
    · exact ⟨rfl, hstream, _, hnew, rfl⟩
    · obtain ⟨c, hc, hhandle⟩ := (hv.held ht).connection
      exact ⟨(hv.held ht).named, (hv.held ht).stream, c, (hold hc).trans hc, hhandle⟩
  · rcases hsplit ht with ⟨rfl, rfl⟩ | ht
    · have hnone : payloadsTo h.serial pending = [] := by
        refine List.flatMap_eq_nil_iff.2 fun e he => ?_
        cases e with
        | packet channel h' payload => exact if_neg (Nat.ne_of_lt (hserial ▸ hv.numbered he))
        | connectResponse channel status h => rfl
        | connectionLost channel status h => rfl
      refine ⟨_, hnew, ?_⟩
      rw [hnone, hheard, hsaid]
      exact balanced_new o.framing h
    · obtain ⟨c, hc, -⟩ := (hv.held ht).connection
      exact (hv.echoes ht nofun).congr (hold hc) rfl rfl rfl

end Faithful

end Echo

end NetReactor
