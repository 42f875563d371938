import NetReactor.Outgoing
import NetReactor.Transport

/-!
# Tapped sockets

`Tap σ d` is the world `σ` with a record of what socket `d` was asked and answered. It is a world of
sockets itself, so the functions that run over `σ` run over the tap, and **a tap only listens**: they
return the same over it and leave the same world behind (`flush_tap`, `readStream_tap`).
-/

namespace NetReactor

/-! ## One send, one receive -/

section
variable {σ : Type} [Sockets σ] {d : Descriptor} {w w' : σ}

section
variable {now : Instant} {m : Outgoing} {rest : List Outgoing}

attribute [local simp] flush

theorem flush_expired (hexp : m.isExpired now = true) :
    flush d now (m :: rest) w = flush d now rest w := by
  simp [hexp]

theorem flush_error {e : IoError} (hexp : m.isExpired now = false)
    (hsend : Sockets.send d m.unsent w = (.error e, w')) :
    flush d now (m :: rest) w = ⟨m :: rest, e.fatal?, w'⟩ := by
  simp [hexp, hsend]

theorem flush_short {n : Nat} (hexp : m.isExpired now = false)
    (hsend : Sockets.send d m.unsent w = (.ok n, w')) (hn : m.sent + n < m.data.length) :
    flush d now (m :: rest) w = ⟨{ m with sent := m.sent + n } :: rest, none, w'⟩ := by
  simp [hexp, hsend, hn]

theorem flush_whole {n : Nat} (hexp : m.isExpired now = false)
    (hsend : Sockets.send d m.unsent w = (.ok n, w')) (hn : ¬m.sent + n < m.data.length) :
    flush d now (m :: rest) w = flush d now rest w' := by
  simp [hexp, hsend, hn]

end

section
variable {f : Framing} {turns : Nat} {a a' : Assembler} {data : Bytes} {packets : Array Bytes}

attribute [local simp] Transport.readStream

theorem readStream_error {e : IoError} (hrec : Sockets.receive d a.spare w = (.error e, w')) :
    Transport.readStream f d (turns + 1) a w = ⟨a, #[], e.fatal?, w'⟩ := by
  simp [hrec]

theorem readStream_end (hrec : Sockets.receive d a.spare w = (.ok [], w')) :
    Transport.readStream f d (turns + 1) a w = ⟨a, #[], some (.lost Status.endOfStream), w'⟩ := by
  simp [hrec]

theorem readStream_refused {e : Failure} (hdata : data ≠ [])
    (hrec : Sockets.receive d a.spare w = (.ok data, w'))
    (hcommit : (a.write data).commit f data.length = ⟨a', packets, some e⟩) :
    Transport.readStream f d (turns + 1) a w = ⟨a', packets, some e, w'⟩ := by
  obtain ⟨b, tail, rfl⟩ := List.exists_cons_of_ne_nil hdata
  simp only [Transport.readStream, hrec, hcommit]

theorem readStream_more (hdata : data ≠ []) (hrec : Sockets.receive d a.spare w = (.ok data, w'))
    (hcommit : (a.write data).commit f data.length = ⟨a', packets, none⟩) :
    Transport.readStream f d (turns + 1) a w =
      { Transport.readStream f d turns a' w' with
        packets := packets ++ (Transport.readStream f d turns a' w').packets } := by
  obtain ⟨b, tail, rfl⟩ := List.exists_cons_of_ne_nil hdata
  simp only [Transport.readStream, hrec, hcommit]

end

end

/-! ## The tap -/

/-- A receive: the room that was offered, and the answer. -/
structure Receive where
  room : Nat
  answer : Except IoError Bytes

/-- A send: the octets that were offered, and the answer. -/
structure Send where
  offered : Bytes
  answer : Except IoError Nat

/-- The octets that the socket took. -/
def Send.accepted (s : Send) : Bytes :=
  match s.answer with
  | .ok n => s.offered.take n
  | .error _ => []

/-- A world, and what socket `d` was asked in it, earliest first. -/
structure Tap (σ : Type) (d : Descriptor) where
  world : σ
  receives : List Receive
  sends : List Send

namespace Tap

variable {σ : Type} {d : Descriptor}

/-- Nothing was asked yet. -/
def on (d : Descriptor) (w : σ) : Tap σ d := ⟨w, [], []⟩

instance [Sockets σ] : Sockets (Tap σ d) where
  receive e limit t :=
    let (answer, w) := Sockets.receive e limit t.world
    (answer, ⟨w, if e = d then t.receives ++ [⟨limit, answer⟩] else t.receives, t.sends⟩)
  send e data t :=
    let (answer, w) := Sockets.send e data t.world
    (answer, ⟨w, t.receives, if e = d then t.sends ++ [⟨data, answer⟩] else t.sends⟩)
  shutdown e t := { t with world := Sockets.shutdown e t.world }

variable [Sockets σ]

theorem receive_eq (e : Descriptor) (limit : Nat) (t : Tap σ d) :
    Sockets.receive e limit t = ((Sockets.receive e limit t.world).1,
      ⟨(Sockets.receive e limit t.world).2,
        if e = d then t.receives ++ [⟨limit, (Sockets.receive e limit t.world).1⟩] else t.receives,
        t.sends⟩) := rfl

theorem send_eq (e : Descriptor) (data : Bytes) (t : Tap σ d) :
    Sockets.send e data t = ((Sockets.send e data t.world).1,
      ⟨(Sockets.send e data t.world).2, t.receives,
        if e = d then t.sends ++ [⟨data, (Sockets.send e data t.world).1⟩] else t.sends⟩) := rfl

end Tap

variable {σ : Type} [Sockets σ] {d : Descriptor}

/-- Sending over a tap does what sending over its world does. -/
theorem flush_tap (e : Descriptor) (now : Instant) : ∀ (q : List Outgoing) (t : Tap σ d),
    flush e now q t.world = ⟨(flush e now q t).queue, (flush e now q t).failure,
      (flush e now q t).world.world⟩
  | [], _ => rfl
  | m :: rest, t => by
    by_cases hexp : m.isExpired now
    · simpa only [flush, hexp, if_true] using flush_tap e now rest t
    · rcases hw : Sockets.send e m.unsent t.world with ⟨n | n, w⟩
      · simp [flush, hexp, Tap.send_eq, hw]
      · by_cases hshort : m.sent + n < m.data.length
        · simp [flush, hexp, Tap.send_eq, hw, hshort]
        · simp only [flush, hexp, Tap.send_eq, hw, hshort, if_false, Bool.false_eq_true]
          exact flush_tap e now rest ⟨w, _, _⟩

/-- Reading a stream over a tap does what reading it over its world does. -/
theorem readStream_tap (f : Framing) (e : Descriptor) : ∀ (turns : Nat) (a : Assembler) (t : Tap σ d),
    Transport.readStream f e turns a t.world =
      ⟨(Transport.readStream f e turns a t).assembler, (Transport.readStream f e turns a t).packets,
        (Transport.readStream f e turns a t).failure,
        (Transport.readStream f e turns a t).world.world⟩
  | 0, _, _ => rfl
  | turns + 1, a, t => by
    rcases hw : Sockets.receive e a.spare t.world with ⟨failure | _ | ⟨b, tail⟩, w⟩
    · simp [Transport.readStream, Tap.receive_eq, hw]
    · simp [Transport.readStream, Tap.receive_eq, hw]
    · simp only [Transport.readStream, Tap.receive_eq, hw]
      rcases hr : (a.write (b :: tail)).commit f (b :: tail).length with ⟨a', packets, refusal | _⟩
      · simp only
        rw [readStream_tap f e turns a' ⟨w, _, _⟩]
      · rfl

end NetReactor
