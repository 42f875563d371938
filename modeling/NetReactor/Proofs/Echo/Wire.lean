import NetReactor.Echo.Application
import NetReactor.Proofs.Reactor.Watching
import NetReactor.Proofs.Transport.Receiving

/-!
# What passed over each socket

`Wire σ` is the world `σ` with a record beside it: for every descriptor the octets that its socket brought
and those that it took, since the system handed the descriptor out. **Every call answers as in `σ`**, so a
loop over a wire does what it does over the world; and where the world keeps its descriptors apart, so does
the wire (`Kernel.onWire`).

Two laws say what the two halves of a connection leave on the record. **A flush sends the front of the
queue** (`flushes`), and **reading a stream parses all that the socket ever brought**
(`Reader.readStream`).
-/

namespace NetReactor

/-- A world, and what passed over each descriptor's socket. -/
structure Wire (σ : Type) where
  world : σ
  /-- The octets that the socket brought. -/
  heard : Descriptor → Bytes
  /-- The octets that the socket took. -/
  said : Descriptor → Bytes

namespace Wire

variable {σ : Type}

/-- Nothing has passed yet. -/
def on (w : σ) : Wire σ := ⟨w, fun _ => [], fun _ => []⟩

/-- The world goes on to `w`. A descriptor that it hands out begins a new record. -/
def after (t : Wire σ) (given : Option Descriptor) (w : σ) : Wire σ where
  world := w
  heard e := if given = some e then [] else t.heard e
  said e := if given = some e then [] else t.said e

/-- The socket brought octets. -/
def hear (t : Wire σ) (d : Descriptor) (octets : Bytes) (w : σ) : Wire σ :=
  { t with world := w, heard := fun e => t.heard e ++ if e = d then octets else [] }

/-- The socket took octets. -/
def say (t : Wire σ) (d : Descriptor) (octets : Bytes) (w : σ) : Wire σ :=
  { t with world := w, said := fun e => t.said e ++ if e = d then octets else [] }

/-- A callback does to the record nothing. -/
def script (t : Wire σ) : Script σ → Script (Wire σ)
  | .done w => .done { t with world := w }
  | .call w q next => .call { t with world := w } q fun reply t' => script t' (next reply t'.world)

instance [Host σ] : Host (Wire σ) where
  receive d limit t :=
    let (answer, w) := Sockets.receive d limit t.world
    (answer, t.hear d (Receive.mk limit answer).octets w)
  send d data t :=
    let (answer, w) := Sockets.send d data t.world
    (answer, t.say d (Send.mk data answer).accepted w)
  shutdown d t := { t with world := Sockets.shutdown d t.world }
  onEvent callback e t := t.script (Application.onEvent callback e t.world)
  onTimer timer cancelled t := t.script (Application.onTimer timer cancelled t.world)
  now t :=
    let (time, w) := Host.now t.world
    (time, { t with world := w })
  connect stream port a t :=
    let (answer, w) := Host.connect stream port a t.world
    (answer, t.after (answer.toOption.map (·.1)) w)
  connectError d t :=
    let (answer, w) := Host.connectError d t.world
    (answer, { t with world := w })
  bindServer stream a t :=
    let (answer, w) := Host.bindServer stream a t.world
    (answer, t.after answer.toOption w)
  accept d t :=
    let (answer, w) := Host.accept d t.world
    (answer, t.after (answer.toOption.bind fun x => x.map (·.1)) w)
  receiveFrom d limit t :=
    let (answer, w) := Host.receiveFrom d limit t.world
    (answer, { t with world := w })
  bindPeer server peer t :=
    let (answer, w) := Host.bindPeer server peer t.world
    (answer, t.after answer.toOption w)
  localAddress d t := Host.localAddress d t.world
  peerAddress d t := Host.peerAddress d t.world
  keepAlive d k t := { t with world := Host.keepAlive d k t.world }
  close d t := { t with world := Host.close d t.world }
  lookUp l t :=
    let (started, w) := Host.lookUp l t.world
    (started, { t with world := w })
  wait asked millis t :=
    let (shown, w) := Host.wait asked millis t.world
    (shown, { t with world := w })

end Wire

/-! ## The calls over a wire -/

namespace Wire

variable {σ : Type} [Host σ] {d : Descriptor}

theorem receive_eq (d : Descriptor) (limit : Nat) (t : Wire σ) :
    Sockets.receive d limit t = ((Sockets.receive d limit t.world).1,
      t.hear d (Receive.mk limit (Sockets.receive d limit t.world).1).octets
        (Sockets.receive d limit t.world).2) := rfl

theorem send_eq (d : Descriptor) (data : Bytes) (t : Wire σ) :
    Sockets.send d data t = ((Sockets.send d data t.world).1,
      t.say d (Send.mk data (Sockets.send d data t.world).1).accepted
        (Sockets.send d data t.world).2) := rfl

theorem connect_eq (stream : Bool) (port : UInt16) (a : SocketAddress) (t : Wire σ) :
    Host.connect stream port a t = ((Host.connect stream port a t.world).1,
      t.after ((Host.connect stream port a t.world).1.toOption.map (·.1))
        (Host.connect stream port a t.world).2) := rfl

theorem bindServer_eq (stream : Bool) (a : SocketAddress) (t : Wire σ) :
    Host.bindServer stream a t = ((Host.bindServer stream a t.world).1,
      t.after (Host.bindServer stream a t.world).1.toOption (Host.bindServer stream a t.world).2) := rfl

theorem accept_eq (d : Descriptor) (t : Wire σ) :
    Host.accept d t = ((Host.accept d t.world).1,
      t.after ((Host.accept d t.world).1.toOption.bind fun x => x.map (·.1))
        (Host.accept d t.world).2) := rfl

theorem bindPeer_eq (server peer : SocketAddress) (t : Wire σ) :
    Host.bindPeer server peer t = ((Host.bindPeer server peer t.world).1,
      t.after (Host.bindPeer server peer t.world).1.toOption (Host.bindPeer server peer t.world).2) := rfl

end Wire

/-! ## A wire keeps descriptors apart -/

section
variable {σ : Type} [Host σ] {c : Echo.Command} {t t' : Echo.Running c (Wire σ)} {d : Descriptor}

/-- **A descriptor is handed out over a wire as it is in the world**, and its record is blank. -/
theorem Wire.exists_of_grant (h : Host.Grant t d t') :
    ∃ w, Host.Grant (Wire.world t) d w ∧ t' = Wire.after t (some d) w := by
  cases h with
  | @connect stream port a _ _ _ done h =>
    have heq := (Wire.connect_eq stream port a t).symm.trans h
    rcases hw : Host.connect stream port a (Wire.world t) with ⟨answer, w⟩
    rw [hw] at heq
    obtain ⟨rfl, rfl⟩ := Prod.mk.inj heq
    exact ⟨w, .connect hw, rfl⟩
  | @bindServer stream a _ _ _ h =>
    have heq := (Wire.bindServer_eq stream a t).symm.trans h
    rcases hw : Host.bindServer stream a (Wire.world t) with ⟨answer, w⟩
    rw [hw] at heq
    obtain ⟨rfl, rfl⟩ := Prod.mk.inj heq
    exact ⟨w, .bindServer hw, rfl⟩
  | @accept listener _ peer _ _ h =>
    have heq := (Wire.accept_eq listener t).symm.trans h
    rcases hw : Host.accept listener (Wire.world t) with ⟨answer, w⟩
    rw [hw] at heq
    obtain ⟨rfl, rfl⟩ := Prod.mk.inj heq
    exact ⟨w, .accept hw, rfl⟩
  | @bindPeer server peer _ _ _ h =>
    have heq := (Wire.bindPeer_eq server peer t).symm.trans h
    rcases hw : Host.bindPeer server peer (Wire.world t) with ⟨answer, w⟩
    rw [hw] at heq
    obtain ⟨rfl, rfl⟩ := Prod.mk.inj heq
    exact ⟨w, .bindPeer hw, rfl⟩

/-- Where no descriptor is handed out, the record stays. -/
theorem Wire.record_of_ask (h : Host.Ask t t') : Wire.heard t' = Wire.heard t ∧ Wire.said t' = Wire.said t := by
  have hsame : ∀ {w}, Wire.after t none w = t' → Wire.heard t' = Wire.heard t ∧ Wire.said t' = Wire.said t := by
    rintro w rfl
    exact ⟨rfl, rfl⟩
  cases h with
  | now => exact ⟨rfl, rfl⟩
  | @refused stream port a _ _ e h =>
    obtain ⟨hanswer, hw⟩ := Prod.mk.inj ((Wire.connect_eq stream port a t).symm.trans h)
    exact hsame (hanswer ▸ hw)
  | connectError d => exact ⟨rfl, rfl⟩
  | @unbound stream a _ _ e h =>
    obtain ⟨hanswer, hw⟩ := Prod.mk.inj ((Wire.bindServer_eq stream a t).symm.trans h)
    exact hsame (hanswer ▸ hw)
  | @accept d _ _ answer h hnone =>
    obtain ⟨hanswer, hw⟩ := Prod.mk.inj ((Wire.accept_eq d t).symm.trans h)
    rw [hanswer] at hw
    match answer with
    | .ok (some peer) => exact absurd rfl (hnone peer)
    | .ok none => exact hsame hw
    | .error e => exact hsame hw
  | receiveFrom d limit => exact ⟨rfl, rfl⟩
  | @homeless server peer _ _ e h =>
    obtain ⟨hanswer, hw⟩ := Prod.mk.inj ((Wire.bindPeer_eq server peer t).symm.trans h)
    exact hsame (hanswer ▸ hw)
  | shutdown d => exact ⟨rfl, rfl⟩

namespace Kernel

/-- The command's requests ask the clock alone. -/
theorem keeps_ofRequests (k : Kernel σ) (requests : List Request) (s : Service)
    (t : Echo.Running c (Wire σ)) :
    k.Keeps (Wire.world t) (Wire.world (Service.runScript (.ofRequests requests t) s).2) := by
  induction requests generalizing s t with
  | nil => exact .refl _
  | cons q rest ih =>
    have hasked : k.Keeps (Wire.world t) (Wire.world (Host.now t).2) := keeps_use (.now (Wire.world t))
    exact hasked.trans (ih _ _)

/-- The system below a command's loop, over a wire. -/
def onWire (k : Kernel σ) (c : Echo.Command) : Kernel (Echo.Running c (Wire σ)) where
  isOpen d t := k.isOpen d (Wire.world t)
  small := k.small
  grant h := by
    obtain ⟨w, hgrant, rfl⟩ := Wire.exists_of_grant h
    exact k.grant hgrant
  use := by
    intro t t' d h hd
    cases h with
    | now => exact k.use (.now (Wire.world t)) hd
    | connect stream port a => exact k.use (.connect stream port a (Wire.world t)) hd
    | connectError e => exact k.use (.connectError e (Wire.world t)) hd
    | bindServer stream a => exact k.use (.bindServer stream a (Wire.world t)) hd
    | accept e => exact k.use (.accept e (Wire.world t)) hd
    | receiveFrom e limit => exact k.use (.receiveFrom e limit (Wire.world t)) hd
    | bindPeer server peer => exact k.use (.bindPeer server peer (Wire.world t)) hd
    | keepAlive e o => exact k.use (.keepAlive e o (Wire.world t)) hd
    | lookUp l => exact k.use (.lookUp l (Wire.world t)) hd
    | wait asked millis => exact k.use (.wait asked millis (Wire.world t)) hd
    | receive e limit => exact k.use (.receive e limit (Wire.world t)) hd
    | send e data => exact k.use (.send e data (Wire.world t)) hd
    | shutdown e => exact k.use (.shutdown e (Wire.world t)) hd
    | onEvent callback e s => exact keeps_ofRequests k (c.onEvent e) s t d hd
    | onTimer timer cancelled s => exact hd
  close hne := k.close hne

end Kernel

end

/-! ## What a flush leaves on the record -/

/-- What a queue still has to send. -/
def unsentOf (queue : List Outgoing) : Bytes := queue.flatMap Outgoing.unsent

/-- Nothing in a queue ever expires. -/
def Lasting (queue : List Outgoing) : Prop := ∀ m ∈ queue, m.expires = none

theorem Outgoing.not_isExpired {m : Outgoing} (h : m.expires = none) (now : Instant) :
    m.isExpired now = false := by
  rw [isExpired, h]

namespace Wire

variable {σ : Type} [Host σ] {d : Descriptor}

/-- What a flush did: what it sent, and what its queue still has. -/
structure Flushes (d : Descriptor) (queue : List Outgoing) (t : Wire σ) (f : Flush (Wire σ))
    (sent : Bytes) : Prop where
  unsent : unsentOf queue = sent ++ unsentOf f.queue
  lasting : Lasting f.queue
  heard : f.world.heard = t.heard
  said : ∀ e, f.world.said e = t.said e ++ if e = d then sent else []

/-- **A flush sends the front of the queue**, if nothing in it expires. -/
theorem flushes (d : Descriptor) (now : Instant) {queue : List Outgoing} (hlasting : Lasting queue)
    (t : Wire σ) : ∃ sent, Flushes d queue t (flush d now queue t) sent := by
  induction queue generalizing t with
  | nil => exact ⟨[], rfl, hlasting, rfl, fun e => by simp [flush]⟩
  | cons m rest ih =>
    have hm := Outgoing.not_isExpired (hlasting m List.mem_cons_self) now
    have hrest : Lasting rest := fun x hx => hlasting x (List.mem_cons_of_mem m hx)
    rcases hw : Sockets.send d m.unsent t.world with ⟨answer, w⟩
    have hsend := send_eq d m.unsent t
    rw [hw] at hsend
    cases answer with
    | error e =>
      rw [flush_error hm hsend]
      exact ⟨[], rfl, hlasting, rfl, fun e => by simp [say, Send.accepted]⟩
    | ok n =>
      by_cases hshort : m.sent + n < m.data.length
      · rw [flush_short hm hsend hshort]
        refine ⟨m.unsent.take n, ?_, ?_, rfl, fun e => rfl⟩
        · have hleft : Outgoing.unsent { m with sent := m.sent + n } = m.unsent.drop n := by
            simp [Outgoing.unsent]
          simp only [unsentOf, List.flatMap_cons, hleft]
          rw [← List.append_assoc, List.take_append_drop]
        · intro x hx
          rcases List.mem_cons.1 hx with rfl | hx
          · exact hlasting m List.mem_cons_self
          · exact hrest x hx
      · rw [flush_whole hm hsend hshort]
        obtain ⟨sent, hflushed⟩ := ih hrest (t.say d (Send.mk m.unsent (.ok n)).accepted w)
        have hall : (Send.mk m.unsent (.ok n)).accepted = m.unsent :=
          List.take_of_length_le (by rw [Outgoing.unsent, List.length_drop]; omega)
        refine ⟨m.unsent ++ sent, ?_, hflushed.lasting, hflushed.heard, fun e => ?_⟩
        · rw [List.append_assoc, ← hflushed.unsent]
          rfl
        · rw [hflushed.said e, say, hall]
          by_cases he : e = d
          · simp [he]
          · simp [he]

/-! ## What reading leaves on the record -/

/-- A stream's reader: what was heard parses as the packets that were cut off and what the assembler still
holds. -/
structure Reader (f : Framing) (heard : Bytes) (packets : List Bytes) (a : Assembler) : Prop where
  capacity : a.capacity = receiveRoom
  parsed : f.parse receiveRoom heard = ⟨packets, .waiting a.expected a.frame.toList a.buffered⟩

variable {f : Framing} {heard : Bytes} {packets : List Bytes} {a : Assembler}

theorem reader_new (f : Framing) : Reader f [] [] .new where
  capacity := (Assembler.Ready.withCapacity (by decide) : Assembler.new.Ready f receiveRoom).capacity
  parsed := by
    rw [Framing.parse_nil, Assembler.new, Assembler.buffered_withCapacity]
    rfl

theorem Reader.ready (h : Reader f heard packets a) : a.Ready f receiveRoom :=
  ⟨h.capacity, Framing.open_of_parse (by decide) h.parsed⟩

/-- **The packets are the whole frames that were heard**, where nothing is stripped from a frame. -/
theorem Reader.exists_cut (h : Reader ⟨.standard, none⟩ heard packets a) :
    ∃ rest, LengthField.standard.Cut heard packets rest := by
  have hsound : LengthField.standard.Sound := LengthField.sound_of_isValid (by decide) (by decide)
  have hroom : LengthField.standard.headerLength < receiveRoom := by decide
  obtain ⟨frames, rest, hcut, hpackets, -, -⟩ := LengthField.exists_cut hsound (by decide) hroom heard
  have hsame : packets = frames.map id := (congrArg Parsed.packets h.parsed).symm.trans hpackets
  rw [List.map_id] at hsame
  exact ⟨rest, hsame ▸ hcut⟩

/-- What is received is parsed behind what was heard. -/
theorem Reader.commit (hf : f.PrefixStable) (h : Reader f heard packets a) {data : Bytes}
    (hroom : data.length ≤ a.spare) {a' : Assembler} {cut : Array Bytes}
    (hcommit : (a.write data).commit f data.length = ⟨a', cut, none⟩) :
    Reader f (heard ++ data) (packets ++ cut.toList) a' := by
  have hlt := h.ready.filled_lt (by decide)
  have hcap := h.capacity
  have hfit : a.filled + data.length ≤ receiveRoom := by
    rw [Assembler.spare] at hroom
    omega
  obtain ⟨houtcome, hcap'⟩ := h.ready.outcome_commit hf hfit
  rw [hcommit] at houtcome hcap'
  refine ⟨hcap', ?_⟩
  rw [Framing.parse_append hf, h.parsed]
  show (f.parse receiveRoom (a.pending ++ data)).after packets = _
  rw [← houtcome]
  rfl

/-- Reading leaves alone what was said, and what others heard. -/
theorem beside_readStream (f : Framing) (d : Descriptor) (turns : Nat) (a : Assembler) (t : Wire σ) :
    (Transport.readStream f d turns a t).world.said = t.said ∧
      ∀ e, e ≠ d → (Transport.readStream f d turns a t).world.heard e = t.heard e := by
  refine Host.readStream_keeps (P := fun u : Wire σ => u.said = t.said ∧ ∀ e, e ≠ d → u.heard e = t.heard e)
    (fun limit u h => ⟨h.1, fun e he => ?_⟩) f turns a ⟨rfl, fun _ _ => rfl⟩
  rw [receive_eq]
  simpa [hear, he] using h.2 e he

/-- **Reading a stream parses all that its socket ever brought**, unless reading fails. -/
theorem Reader.readStream (hf : f.PrefixStable) (hb : Sockets.Bounded σ d) (turns : Nat) {t : Wire σ}
    (h : Reader f (t.heard d) packets a) (hok : (Transport.readStream f d turns a t).failure = none) :
    Reader f ((Transport.readStream f d turns a t).world.heard d)
      (packets ++ (Transport.readStream f d turns a t).packets.toList)
      (Transport.readStream f d turns a t).assembler := by
  induction turns generalizing a packets t with
  | zero => simpa [Transport.readStream] using h
  | succ turns ih =>
    rcases hw : Sockets.receive d a.spare t.world with ⟨answer, w⟩
    have hrec := receive_eq d a.spare t
    rw [hw] at hrec
    cases answer with
    | error e =>
      rw [readStream_error hrec]
      simpa [hear, Receive.octets] using h
    | ok data =>
      by_cases hdata : data = []
      · subst hdata
        rw [readStream_end hrec] at hok
        cases hok
      · rcases hcommit : (a.write data).commit f data.length with ⟨a', cut, failure⟩
        cases failure with
        | some e =>
          rw [readStream_refused hdata hrec hcommit] at hok
          cases hok
        | none =>
          have hnext := h.commit hf (hb _ _ _ _ hw) hcommit
          rw [readStream_more hdata hrec hcommit] at hok ⊢
          have hheard : t.heard d ++ data =
              (t.hear d (Receive.mk a.spare (.ok data)).octets w).heard d := by
            simp [hear, Receive.octets]
          rw [hheard] at hnext
          have hlater := ih hnext hok
          simpa using hlater

end Wire

end NetReactor
