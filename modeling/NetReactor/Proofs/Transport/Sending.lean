import Mathlib.Data.List.Forall2
import NetReactor.Connection
import NetReactor.Proofs.Transport.Tap

/-!
# What a connection sends

Messages are written to a connection and flushed to its socket, in any order and however the socket
answers. **Every message written is accounted for**: the octets the socket accepted are a prefix of
each message, in the order written. A message that has left the queue was accepted whole, unless the
flush it left with found it expired, and what is queued are the others, less what was accepted of the
first. So with no expiries nothing is lost, doubled or reordered, also when sending failed in between.

A `Parcel` is a message with the sends made of it. `flush` is followed parcel by parcel: those in front
leave, the next may get one more send, and those behind are not touched.
-/

namespace NetReactor

/-! ## Parcels -/

/-- The octets taken by sends, each made at its time. -/
def acceptedBy (sends : List (Instant × Send)) : Bytes := sends.flatMap fun s => s.2.accepted

/-- A message as it was written, and the sends made of it. -/
structure Parcel where
  message : Outgoing
  sends : List (Instant × Send)

namespace Parcel

def ofMessage (m : Outgoing) : Parcel := ⟨m, []⟩

def accepted (p : Parcel) : Bytes := acceptedBy p.sends

/-- What stays queued of the message. -/
def rest (p : Parcel) : Outgoing := { p.message with sent := p.accepted.length }

def sentOnce (p : Parcel) (now : Instant) (s : Send) : Parcel :=
  { p with sends := p.sends ++ [(now, s)] }

/-- Octets are offered in order and in time: each send offers all that the earlier ones left, and is
made before the message expires. -/
structure Fair (p : Parcel) : Prop where
  leads : p.accepted <+: p.message.data
  offers : ∀ i now s, p.sends[i]? = some (now, s) →
    s.offered = p.message.data.drop (acceptedBy (p.sends.take i)).length ∧
      p.message.isExpired now = false

/-- All octets were accepted. An empty message is accepted too, by the send that takes none of it. -/
def Through (p : Parcel) : Prop :=
  p.accepted = p.message.data ∧ ∃ s ∈ p.sends, s.2.answer.isOk = true

/-- Accepted whole, or found expired at `now`. -/
def Done (p : Parcel) (now : Instant) : Prop := p.Through ∨ p.message.isExpired now = true

@[simp] theorem accepted_sentOnce (p : Parcel) (now : Instant) (s : Send) :
    (p.sentOnce now s).accepted = p.accepted ++ s.accepted := by
  simp [accepted, acceptedBy, sentOnce]

theorem fair_ofMessage (m : Outgoing) : (ofMessage m).Fair :=
  ⟨List.nil_prefix, by simp [ofMessage]⟩

@[simp] theorem rest_isExpired (p : Parcel) (now : Instant) :
    p.rest.isExpired now = p.message.isExpired now := rfl

theorem rest_unsent (p : Parcel) : p.rest.unsent = p.message.data.drop p.accepted.length := rfl

theorem Fair.accepted_append_unsent {p : Parcel} (h : p.Fair) :
    p.accepted ++ p.rest.unsent = p.message.data := by
  rw [rest_unsent]
  exact List.prefix_iff_eq_append.1 h.leads

/-- One more send of what is left, in time. -/
theorem Fair.sentOnce {p : Parcel} (h : p.Fair) {now : Instant}
    (hexp : p.message.isExpired now = false) (answer : Except IoError Nat) :
    (p.sentOnce now ⟨p.rest.unsent, answer⟩).Fair := by
  constructor
  · rw [accepted_sentOnce]
    show p.accepted ++ _ <+: p.message.data
    rw [← h.accepted_append_unsent, List.prefix_append_right_inj]
    cases answer with
    | ok n => exact List.take_prefix n p.rest.unsent
    | error e => exact List.nil_prefix
  · intro i now' s hs
    rcases Nat.lt_trichotomy i p.sends.length with hi | rfl | hi
    · simp only [Parcel.sentOnce, List.getElem?_append_left hi] at hs
      rw [Parcel.sentOnce, List.take_append_of_le_length (Nat.le_of_lt hi)]
      exact h.offers i now' s hs
    · simp only [Parcel.sentOnce, List.getElem?_concat_length, Option.some.injEq,
        Prod.mk.injEq] at hs
      obtain ⟨rfl, rfl⟩ := hs
      simp only [Parcel.sentOnce, List.take_left']
      exact ⟨rfl, hexp⟩
    · have hlen : (p.sentOnce now ⟨p.rest.unsent, answer⟩).sends.length ≤ i := by
        simp only [Parcel.sentOnce, List.length_append, List.length_singleton]
        omega
      simp [List.getElem?_eq_none hlen] at hs

/-- A short send takes just the octets it answers. -/
theorem accepted_length_of_short {p : Parcel} {n : Nat}
    (hn : p.accepted.length + n < p.message.data.length) :
    (Send.mk p.rest.unsent (.ok n)).accepted.length = n := by
  simp only [Send.accepted, rest_unsent, List.length_take, List.length_drop]
  omega

theorem rest_sentOnce_error (p : Parcel) (now : Instant) (e : IoError) :
    (p.sentOnce now ⟨p.rest.unsent, .error e⟩).rest = p.rest := by
  simp only [rest, accepted_sentOnce, Send.accepted, List.append_nil]
  rfl

theorem rest_sentOnce_short {p : Parcel} (now : Instant) {n : Nat}
    (hn : p.accepted.length + n < p.message.data.length) :
    (p.sentOnce now ⟨p.rest.unsent, .ok n⟩).rest = { p.rest with sent := p.rest.sent + n } := by
  have hlen := accepted_length_of_short hn
  simp only [rest, accepted_sentOnce, List.length_append] at hlen ⊢
  rw [hlen]
  rfl

theorem not_through_of_error {p : Parcel} (h : ¬p.Through) (now : Instant) (e : IoError) :
    ¬(p.sentOnce now ⟨p.rest.unsent, .error e⟩).Through := by
  rintro ⟨hall, s, hs, hok⟩
  rw [accepted_sentOnce] at hall
  simp only [Parcel.sentOnce, List.mem_append, List.mem_singleton] at hs
  rcases hs with hs | rfl
  · exact h ⟨by simpa [Send.accepted, Parcel.sentOnce] using hall, s, hs, hok⟩
  · cases hok

theorem not_through_of_short {p : Parcel} (now : Instant) {n : Nat}
    (hn : p.accepted.length + n < p.message.data.length) :
    ¬(p.sentOnce now ⟨p.rest.unsent, .ok n⟩).Through := by
  rintro ⟨hall, -⟩
  have hlen := congrArg List.length hall
  rw [accepted_sentOnce, List.length_append, accepted_length_of_short hn] at hlen
  simp only [sentOnce] at hlen
  omega

/-- A send that is not short takes all that is left. -/
theorem through_of_whole {p : Parcel} (h : p.Fair) (now : Instant) {n : Nat}
    (hn : ¬p.accepted.length + n < p.message.data.length) :
    (p.sentOnce now ⟨p.rest.unsent, .ok n⟩).Through := by
  have hlen : p.rest.unsent.length ≤ n := by
    simp only [rest_unsent, List.length_drop]
    omega
  refine ⟨?_, (now, ⟨p.rest.unsent, .ok n⟩), by simp [sentOnce], rfl⟩
  rw [accepted_sentOnce]
  simp only [Send.accepted]
  rw [List.take_of_length_le hlen, h.accepted_append_unsent]
  rfl

end Parcel

/-! ## One flush -/

/-- Parcels that may wait: each is fair and not yet through, and only the first was ever sent. -/
structure Waiting (ps : List Parcel) : Prop where
  fair : ∀ p ∈ ps, p.Fair
  unfinished : ∀ p ∈ ps, ¬p.Through
  fresh : ∀ p ∈ ps.tail, p.sends = []

namespace Waiting

theorem nil : Waiting [] := ⟨by simp, by simp, by simp⟩

theorem tail {p : Parcel} {ps : List Parcel} (h : Waiting (p :: ps)) : Waiting ps :=
  ⟨fun q hq => h.fair q (List.mem_cons_of_mem p hq),
    fun q hq => h.unfinished q (List.mem_cons_of_mem p hq),
    fun q hq => h.fresh q (List.mem_of_mem_tail hq)⟩

theorem sends_tail {p : Parcel} {ps : List Parcel} (h : Waiting (p :: ps)) :
    ps.flatMap Parcel.sends = [] := by
  simpa [List.flatMap_eq_nil_iff] using h.fresh

/-- What was accepted of the parcels and what is left of them are all of them. -/
theorem pending {ps : List Parcel} (h : Waiting ps) :
    ps.flatMap Parcel.accepted ++ (ps.map Parcel.rest).flatMap Outgoing.unsent =
      ps.flatMap fun p => p.message.data := by
  cases ps with
  | nil => rfl
  | cons p ps =>
    have hnone : ∀ q ∈ ps, q.accepted = [] := by
      intro q hq
      simp [Parcel.accepted, acceptedBy, h.fresh q hq]
    have haccepted : ps.flatMap Parcel.accepted = [] := List.flatMap_eq_nil_iff.2 hnone
    have hunsent : (ps.map Parcel.rest).flatMap Outgoing.unsent =
        ps.flatMap fun q => q.message.data := by
      rw [List.flatMap_map]
      refine List.flatMap_congr fun q hq => ?_
      simp [Parcel.rest_unsent, hnone q hq]
    simp only [List.map_cons, List.flatMap_cons, haccepted, hunsent, List.append_nil,
      ← List.append_assoc, (h.fair p (by simp)).accepted_append_unsent]

/-- The first parcel may be any that is fair and not through. -/
theorem replace {p q : Parcel} {ps : List Parcel} (h : Waiting (p :: ps)) (hfair : q.Fair)
    (hopen : ¬q.Through) : Waiting (q :: ps) :=
  ⟨by simpa [hfair] using h.tail.fair, by simpa [hopen] using h.tail.unfinished, h.fresh⟩

/-- A message that was just written waits behind the others. -/
theorem snoc {ps : List Parcel} (h : Waiting ps) (m : Outgoing) :
    Waiting (ps ++ [.ofMessage m]) := by
  have hopen : ¬(Parcel.ofMessage m).Through := by simp [Parcel.Through, Parcel.ofMessage]
  refine ⟨?_, ?_, ?_⟩
  · simpa [or_imp, forall_and, Parcel.fair_ofMessage] using h.fair
  · simpa [or_imp, forall_and, hopen] using h.unfinished
  · cases ps with
    | nil => simp
    | cons p ps => simpa [or_imp, forall_and, Parcel.ofMessage] using h.fresh

end Waiting

/-- What a flush at `now` makes of the parcels that waited: those gone are done, the others wait on,
and the sends made are theirs. -/
structure Flushed (now : Instant) (before : List Parcel) (made : List Send)
    (gone waiting : List Parcel) : Prop where
  messages : (gone ++ waiting).map Parcel.message = before.map Parcel.message
  sends : (gone ++ waiting).flatMap Parcel.sends =
    before.flatMap Parcel.sends ++ made.map (now, ·)
  fair : ∀ p ∈ gone, p.Fair
  done : ∀ p ∈ gone, p.Done now
  waits : Waiting waiting

namespace Flushed

variable {now : Instant} {p : Parcel} {ps gone waiting : List Parcel} {made : List Send}

/-- Nothing leaves. -/
theorem none (h : Waiting ps) : Flushed now ps [] [] ps := ⟨rfl, by simp, by simp, by simp, h⟩

/-- The first parcel leaves expired. -/
theorem expired (h : Waiting (p :: ps)) (hexp : p.message.isExpired now = true)
    (later : Flushed now ps made gone waiting) :
    Flushed now (p :: ps) made (p :: gone) waiting where
  messages := by simpa using later.messages
  sends := by simpa [h.sends_tail] using later.sends
  fair := by simpa [h.fair p] using later.fair
  done := by simpa [Parcel.Done, hexp] using later.done
  waits := later.waits

/-- The first parcel leaves with a send of it. -/
theorem whole {s : Send} (h : Waiting (p :: ps)) (hfair : (p.sentOnce now s).Fair)
    (hall : (p.sentOnce now s).Through)
    (later : Flushed now ps made gone waiting) :
    Flushed now (p :: ps) (s :: made) (p.sentOnce now s :: gone) waiting where
  messages := by simpa [Parcel.sentOnce] using later.messages
  sends := by simpa [Parcel.sentOnce, h.sends_tail] using later.sends
  fair := by simpa [hfair] using later.fair
  done := by simpa [Parcel.Done, hall] using later.done
  waits := later.waits

/-- The first parcel waits on after one more send. -/
theorem held {s : Send} (h : Waiting (p :: ps)) (hfair : (p.sentOnce now s).Fair)
    (hopen : ¬(p.sentOnce now s).Through) :
    Flushed now (p :: ps) [s] [] (p.sentOnce now s :: ps) where
  messages := by simp [Parcel.sentOnce]
  sends := by simp [Parcel.sentOnce, h.sends_tail]
  fair := by simp
  done := by simp
  waits := h.replace hfair hopen

end Flushed

/-- A flush follows the parcels: those it drops are done, and each send it makes is one of theirs. -/
theorem flushed_flush {σ : Type} [Sockets σ] {d : Descriptor} (now : Instant) :
    ∀ (ps : List Parcel) (t : Tap σ d), Waiting ps →
      ∃ made gone waiting, Flushed now ps made gone waiting ∧
        (flush d now (ps.map Parcel.rest) t).queue = waiting.map Parcel.rest ∧
        (flush d now (ps.map Parcel.rest) t).world.sends = t.sends ++ made
  | [], t, h => ⟨[], [], [], .none h, rfl, by simp [flush]⟩
  | p :: ps, t, h => by
    by_cases hexp : p.message.isExpired now
    · obtain ⟨made, gone, waiting, hf, hq, hs⟩ := flushed_flush now ps t h.tail
      refine ⟨made, p :: gone, waiting, .expired h hexp hf, ?_⟩
      rw [List.map_cons, flush_expired (by simpa using hexp)]
      exact ⟨hq, hs⟩
    have hlive : p.rest.isExpired now = false := by simpa using hexp
    have hfair := (h.fair p (by simp)).sentOnce hlive
    rcases hw : Sockets.send d p.rest.unsent t.world with ⟨e | n, w⟩
    · have hsend : Sockets.send d p.rest.unsent t =
          (.error e, ⟨w, t.receives, t.sends ++ [⟨p.rest.unsent, .error e⟩]⟩) := by
        simp [Tap.send_eq, hw]
      refine ⟨_, [], _, .held h (hfair (.error e)) ?_, ?_⟩
      · exact Parcel.not_through_of_error (h.unfinished p (by simp)) now e
      · rw [List.map_cons, flush_error hlive hsend, List.map_cons, Parcel.rest_sentOnce_error]
        exact ⟨rfl, rfl⟩
    have hsend : Sockets.send d p.rest.unsent t =
        (.ok n, ⟨w, t.receives, t.sends ++ [⟨p.rest.unsent, .ok n⟩]⟩) := by
      simp [Tap.send_eq, hw]
    by_cases hshort : p.accepted.length + n < p.message.data.length
    · refine ⟨_, [], _, .held h (hfair (.ok n)) (Parcel.not_through_of_short now hshort), ?_⟩
      rw [List.map_cons, flush_short hlive hsend hshort, List.map_cons,
        Parcel.rest_sentOnce_short now hshort]
      exact ⟨rfl, rfl⟩
    · obtain ⟨made, gone, waiting, hf, hq, hs⟩ :=
        flushed_flush now ps ⟨w, t.receives, t.sends ++ [⟨p.rest.unsent, .ok n⟩]⟩ h.tail
      have hall := Parcel.through_of_whole (h.fair p (by simp)) now hshort
      refine ⟨_, _, waiting, .whole h (hfair (.ok n)) hall hf, ?_⟩
      rw [List.map_cons, flush_whole hlive hsend hshort]
      exact ⟨hq, by simpa using hs⟩

/-! ## A line -/

/-- A connection, the world of its socket, and what came to pass on it so far. -/
structure Line (σ : Type) where
  connection : Connection
  world : σ
  /-- The messages written, earliest first. -/
  written : List Outgoing
  /-- The sends made, each with the time of its flush. -/
  sends : List (Instant × Send)
  /-- Of each message that left the queue, the time of the flush it left with. -/
  left : List Instant

namespace Line

variable {σ : Type}

/-- What can happen to a line. -/
inductive Act (σ : Type)
  | enqueue (data : Bytes) (expires : Option Instant)
  | write (now : Instant)
  /-- The world goes on without the connection. -/
  | change (w : σ)

def opened (h : Handle) (w : σ) : Line σ := ⟨Connection.ofHandle h, w, [], [], []⟩

/-- The octets the socket took, in order. -/
def accepted (l : Line σ) : Bytes := acceptedBy l.sends

/-- The octets still to be sent, in order. -/
def unsent (l : Line σ) : Bytes := l.connection.outgoing.flatMap Outgoing.unsent

/-- The line's messages are the parcels `gone` and, behind them, `waiting`: every send is of one of
them, those gone are done, and those waiting are what is queued. -/
structure Accounts (l : Line σ) (gone waiting : List Parcel) : Prop where
  messages : (gone ++ waiting).map Parcel.message = l.written
  sends : (gone ++ waiting).flatMap Parcel.sends = l.sends
  fair : ∀ p ∈ gone, p.Fair
  done : List.Forall₂ Parcel.Done gone l.left
  waits : Waiting waiting
  queue : l.connection.outgoing = waiting.map Parcel.rest

namespace Accounts

variable {l : Line σ} {gone waiting : List Parcel}

theorem opened (handle : Handle) (w : σ) : (Line.opened handle w).Accounts [] [] :=
  ⟨rfl, rfl, by simp, .nil, .nil, rfl⟩

/-- The octets accepted are one prefix after the other. -/
theorem accepted (h : l.Accounts gone waiting) :
    l.accepted = (gone ++ waiting).flatMap Parcel.accepted := by
  simp only [Line.accepted, acceptedBy, ← h.sends, List.flatMap_assoc]
  rfl

theorem whole_of_gone (h : l.Accounts gone waiting) {p : Parcel} (hp : p ∈ gone)
    (hexp : p.message.expires = none) : p.accepted = p.message.data := by
  obtain ⟨i, hi, rfl⟩ := List.getElem_of_mem hp
  rcases h.done.get hi (h.done.length_eq ▸ hi) with hdone | hdone
  · exact hdone.1
  · simp [Outgoing.isExpired, hexp] at hdone

/-- With no expiries, what was accepted and what is queued are all that was written. -/
theorem nothing_lost (h : l.Accounts gone waiting) (hexp : ∀ m ∈ l.written, m.expires = none) :
    l.accepted ++ l.unsent = l.written.flatMap Outgoing.data := by
  have hgone : gone.flatMap Parcel.accepted = gone.flatMap fun p => p.message.data := by
    refine List.flatMap_congr fun p hp => h.whole_of_gone hp (hexp _ ?_)
    rw [← h.messages]
    exact List.mem_map_of_mem (List.mem_append_left waiting hp)
  rw [h.accepted, unsent, h.queue, List.flatMap_append, hgone, List.append_assoc, h.waits.pending,
    ← List.flatMap_append, ← h.messages, List.flatMap_map]

end Accounts

variable [Sockets σ]

/-- A flush of the connection to `d`. The record of its sends comes from the same flush over a tap. -/
def flushed (d : Descriptor) (l : Line σ) (now : Instant) : Line σ :=
  let done := flush d now l.connection.outgoing l.world
  let heard := (flush d now l.connection.outgoing (Tap.on d l.world)).world.sends
  { l with
    connection := { l.connection with outgoing := done.queue }
    world := done.world
    sends := l.sends ++ heard.map (now, ·)
    left := l.left ++ List.replicate (l.connection.outgoing.length - done.queue.length) now }

def act (d : Descriptor) (l : Line σ) : Act σ → Line σ
  | .enqueue data expires =>
    let m := Outgoing.new data expires
    { l with connection := l.connection.enqueue m, written := l.written ++ [m] }
  | .write now => l.flushed d now
  | .change w => { l with world := w }

def run (d : Descriptor) (acts : List (Act σ)) (l : Line σ) : Line σ := acts.foldl (act d) l

namespace Accounts

variable {l : Line σ} {gone waiting : List Parcel}

theorem enqueue (h : l.Accounts gone waiting) (d : Descriptor) (data : Bytes)
    (expires : Option Instant) :
    (l.act d (.enqueue data expires)).Accounts gone
      (waiting ++ [.ofMessage (.new data expires)]) where
  messages := by simp [act, ← h.messages, Parcel.ofMessage]
  sends := by simp [act, ← h.sends, Parcel.ofMessage]
  fair := h.fair
  done := h.done
  waits := h.waits.snoc _
  queue := by
    simp [act, Connection.enqueue, h.queue, Parcel.rest, Parcel.ofMessage, Outgoing.new,
      Parcel.accepted, acceptedBy]

/-- What leaves with a flush leaves from the front. -/
theorem flushed (h : l.Accounts gone waiting) (d : Descriptor) (now : Instant) :
    ∃ more later, (l.flushed d now).Accounts (gone ++ more) later := by
  obtain ⟨made, more, later, hf, hq, hs⟩ := flushed_flush now waiting (Tap.on d l.world) h.waits
  rw [← h.queue] at hq hs
  have hmade : (flush d now l.connection.outgoing (Tap.on d l.world)).world.sends = made := hs
  have hqueue : (flush d now l.connection.outgoing l.world).queue = later.map Parcel.rest := by
    rw [← hq]
    exact congrArg Flush.queue (flush_tap d now _ (Tap.on d l.world))
  have hcount : l.connection.outgoing.length -
      (flush d now l.connection.outgoing l.world).queue.length = more.length := by
    have := congrArg List.length hf.messages
    simp only [List.map_append, List.length_append, List.length_map] at this
    rw [hqueue, h.queue, List.length_map, List.length_map]
    omega
  refine ⟨more, later, ?_, ?_, ?_, ?_, hf.waits, hqueue⟩
  · rw [List.append_assoc, List.map_append, hf.messages, ← List.map_append]
    exact h.messages
  · show _ = l.sends ++ _
    rw [List.append_assoc, List.flatMap_append, hf.sends, hmade, ← List.append_assoc,
      ← List.flatMap_append, h.sends]
  · intro p hp
    rcases List.mem_append.1 hp with hold | hnew
    · exact h.fair p hold
    · exact hf.fair p hnew
  · show List.Forall₂ Parcel.Done (gone ++ more) (l.left ++ List.replicate _ now)
    rw [hcount]
    refine List.rel_append h.done (List.forall₂_iff_zip.2 ⟨by simp, ?_⟩)
    intro p time hp
    obtain ⟨hmore, htime⟩ := List.of_mem_zip hp
    rw [List.eq_of_mem_replicate htime]
    exact hf.done p hmore

theorem act (h : l.Accounts gone waiting) (d : Descriptor) (a : Act σ) :
    ∃ gone waiting, (l.act d a).Accounts gone waiting := by
  cases a with
  | enqueue data expires => exact ⟨gone, _, h.enqueue d data expires⟩
  | write now =>
    obtain ⟨more, later, hflushed⟩ := h.flushed d now
    exact ⟨gone ++ more, later, hflushed⟩
  | change w => exact ⟨gone, waiting, h.messages, h.sends, h.fair, h.done, h.waits, h.queue⟩

theorem run (d : Descriptor) (acts : List (Act σ)) {l : Line σ} {gone waiting : List Parcel}
    (h : l.Accounts gone waiting) : ∃ gone waiting, (l.run d acts).Accounts gone waiting := by
  induction acts generalizing l gone waiting with
  | nil => exact ⟨gone, waiting, h⟩
  | cons a rest ih =>
    obtain ⟨_, _, hnext⟩ := h.act d a
    exact ih hnext

end Accounts

/-- **Every message written is accounted for**, whatever the socket answers. -/
theorem sends_what_was_written (d : Descriptor) (handle : Handle) (w : σ) (acts : List (Act σ)) :
    ∃ gone waiting, ((opened handle w).run d acts).Accounts gone waiting ∧
      ((opened handle w).run d acts).accepted = (gone ++ waiting).flatMap Parcel.accepted ∧
      (∀ p ∈ gone, p.message.expires = none → p.accepted = p.message.data) ∧
      ((∀ m ∈ ((opened handle w).run d acts).written, m.expires = none) →
        ((opened handle w).run d acts).accepted ++ ((opened handle w).run d acts).unsent =
          ((opened handle w).run d acts).written.flatMap Outgoing.data) := by
  obtain ⟨gone, waiting, h⟩ := (Accounts.opened handle w).run d acts
  exact ⟨gone, waiting, h, h.accepted, fun p hp hexp => h.whole_of_gone hp hexp, h.nothing_lost⟩

end Line

end NetReactor
