import NetReactor.Proofs.Frame.Chunking
import NetReactor.Proofs.Frame.Cut
import NetReactor.Proofs.Transport.Tap
import NetReactor.Simulation.Pair

/-!
# What a stream's reader delivers

A transport is read again and again while octets arrive in whatever pieces, up to the first call that
fails. **The packets are the frames of the octets received, each stripped at its front, before the
first malformed header**; reading fails with that header if one was reached, and otherwise only because
a receive ended the stream or failed. No receive is ever offered an empty room, so an empty receive is
always the peer's end of the stream.

`readStream` is followed receive by receive: between two of them the assembler is ready, so it has room,
and what it holds parses as the octets received so far.
-/

namespace NetReactor

namespace Receive

/-- The octets that a receive brought. -/
def octets (x : Receive) : Bytes :=
  match x.answer with
  | .ok data => data
  | .error _ => []

/-- What a receive ends reading with, if it does: the end of the stream, or an error that is not
transient. -/
def failure (x : Receive) : Option Failure :=
  match x.answer with
  | .ok [] => some (.lost Status.endOfStream)
  | .ok _ => none
  | .error e => e.fatal?

end Receive

/-- The octets that receives brought, in order. -/
def octetsOf (xs : List Receive) : Bytes := xs.flatMap Receive.octets

/-- Why reading ends with some receives: no receive ends it, or the last one alone does. -/
inductive Ends : List Receive → Option Failure → Prop
  | goesOn {xs : List Receive} (h : ∀ x ∈ xs, x.failure = none) : Ends xs none
  | last {xs : List Receive} (h : ∀ x ∈ xs, x.failure = none) {x : Receive} {e : Failure}
      (hx : x.failure = some e) : Ends (xs ++ [x]) (some e)

namespace Ends

theorem one (x : Receive) : Ends [x] x.failure := by
  cases hx : x.failure with
  | none => exact .goesOn (by simpa using hx)
  | some e =>
    have hlast : Ends ([] ++ [x]) (some e) := .last (by simp) hx
    exact hlast

/-- Receives that end nothing may come before. -/
theorem append {xs ys : List Receive} {v : Option Failure} (hxs : ∀ x ∈ xs, x.failure = none)
    (h : Ends ys v) : Ends (xs ++ ys) v := by
  cases h with
  | goesOn hys =>
    refine .goesOn fun x hx => ?_
    rcases List.mem_append.1 hx with hx | hx
    · exact hxs x hx
    · exact hys x hx
  | @last ys hys x e hx =>
    rw [← List.append_assoc]
    refine .last (fun y hy => ?_) hx
    rcases List.mem_append.1 hy with hy | hy
    · exact hxs y hy
    · exact hys y hy

/-- Only an empty receive ends the stream. -/
theorem exists_empty {xs : List Receive} (h : Ends xs (some (.lost Status.endOfStream))) :
    ∃ x, xs.getLast? = some x ∧ x.answer = .ok [] := by
  obtain @⟨xs, _⟩ | @⟨xs, -, ⟨room, answer⟩, _, hx⟩ := h
  refine ⟨_, List.getLast?_concat, ?_⟩
  match answer with
  | .ok [] => rfl
  | .ok (b :: tail) => simp [Receive.failure] at hx
  | .error e =>
    simp only [Receive.failure, IoError.fatal?] at hx
    split at hx <;> simp at hx

theorem quiet {xs : List Receive} (h : Ends xs none) : ∀ x ∈ xs, x.failure = none := by
  cases h with
  | goesOn hxs => exact hxs

end Ends

/-- A socket that never answers with more octets than there is room for. -/
def Sockets.Bounded (σ : Type) [Sockets σ] (d : Descriptor) : Prop :=
  ∀ (limit : Nat) (w w' : σ) (data : Bytes),
    Sockets.receive d limit w = (.ok data, w') → data.length ≤ limit

theorem read_of_stream {σ : Type} [Sockets σ] {t : Transport} (htcp : t.handle.mask.isUdp = false)
    (f : Framing) (w : σ) :
    t.read f w = Transport.readStream f t.descriptor Transport.readsPerTurn t.assembler w := by
  simp [Transport.read, htcp]

/-- What reads of a stream made of the octets that were pending and of those that came: an assembler
and packets that agree with the reference parse, and a failure that is the parse's refusal or else the
last receive's. -/
structure Reads {σ : Type} (f : Framing) (c : Nat) (pending : Bytes) (receives : List Receive)
    (refusal verdict : Option Failure) (got : Transport.Intake σ) : Prop where
  rooms : ∀ x ∈ receives, 0 < x.room
  ends : Ends receives verdict
  outcome : (Receipt.mk got.assembler got.packets refusal).outcome =
    f.parse c (pending ++ octetsOf receives)
  capacity : got.assembler.capacity = c
  failure : got.failure = refusal.or verdict

variable {f : Framing} {c : Nat}

namespace Reads

variable {a : Assembler} {σ : Type} {w : σ}

theorem ready (hc : 1 ≤ c) {pending : Bytes} {xs : List Receive} {v : Option Failure}
    {got : Transport.Intake σ} (h : Reads f c pending xs none v got) : got.assembler.Ready f c :=
  .of_outcome hc (r := ⟨got.assembler, got.packets, none⟩) rfl h.outcome h.capacity

/-- Receives that brought no octets. -/
theorem empty (ha : a.Ready f c) {xs : List Receive} {v : Option Failure} (hends : Ends xs v)
    (hrooms : ∀ x ∈ xs, 0 < x.room) (hnone : octetsOf xs = []) :
    Reads f c a.pending xs none v ⟨a, #[], v, w⟩ where
  rooms := hrooms
  ends := hends
  outcome := by
    rw [hnone, List.append_nil, Assembler.pending, Framing.parse_of_open ha.isOpen]
    rfl
  capacity := ha.capacity
  failure := rfl

/-- One receive of octets, all of which are committed. -/
theorem committed (hf : f.PrefixStable) (ha : a.Ready f c) {room : Nat} {data : Bytes}
    (hroom : 0 < room) (hdata : data ≠ []) (hfit : a.filled + data.length ≤ c) {r : Receipt}
    (hr : (a.write data).commit f data.length = r) :
    Reads f c a.pending [⟨room, .ok data⟩] r.failure none
      ⟨r.assembler, r.packets, r.failure, w⟩ where
  rooms := by simpa using hroom
  ends := by
    obtain ⟨b, tail, rfl⟩ := List.exists_cons_of_ne_nil hdata
    exact .one _
  outcome := by
    rw [← hr]
    simpa [octetsOf, Receive.octets] using (ha.outcome_commit hf hfit).1
  capacity := hr ▸ (ha.outcome_commit hf hfit).2
  failure := by simp

/-- Reading goes on behind what the reads before left open. -/
theorem append (hf : f.PrefixStable) {σ₁ σ₂ : Type} {pending : Bytes} {xs ys : List Receive}
    {refusal verdict : Option Failure} {before : Transport.Intake σ₁} {later : Transport.Intake σ₂}
    (h : Reads f c pending xs none none before)
    (h' : Reads f c before.assembler.pending ys refusal verdict later) :
    Reads f c pending (xs ++ ys) refusal verdict
      ⟨later.assembler, before.packets ++ later.packets, later.failure, w⟩ where
  rooms := by
    intro x hx
    rcases List.mem_append.1 hx with hx | hx
    · exact h.rooms x hx
    · exact h'.rooms x hx
  ends := h'.ends.append h.ends.quiet
  outcome := by
    have hsplit : pending ++ octetsOf (xs ++ ys) = pending ++ octetsOf xs ++ octetsOf ys := by
      simp [octetsOf]
    rw [hsplit, Framing.parse_append hf, ← h.outcome]
    show _ = (f.parse c (before.assembler.pending ++ octetsOf ys)).after before.packets.toList
    rw [← h'.outcome]
    simp [Receipt.outcome, Parsed.after]
  capacity := h'.capacity
  failure := h'.failure

end Reads

variable {σ : Type} [Sockets σ] {d : Descriptor}

/-- **Reading a stream parses what is received behind what is still open.** -/
theorem reads_readStream (hf : f.PrefixStable) (hc : 1 ≤ c) (hb : Sockets.Bounded σ d) :
    ∀ (turns : Nat) (a : Assembler) (t : Tap σ d), a.Ready f c → ∃ receives refusal verdict,
      (Transport.readStream f d turns a t).world.receives = t.receives ++ receives ∧
        receives.length ≤ turns ∧
        Reads f c a.pending receives refusal verdict (Transport.readStream f d turns a t)
  | 0, a, t, ha =>
    ⟨[], none, none, by simp [Transport.readStream], Nat.le_refl 0,
      .empty ha (.goesOn (by simp)) (by simp) rfl⟩
  | turns + 1, a, t, ha => by
    have hlt := ha.filled_lt hc
    have hcap := ha.capacity
    have hroom : 0 < a.spare := by
      simp only [Assembler.spare]
      omega
    rcases hw : Sockets.receive d a.spare t.world with ⟨answer, w⟩
    have hrec : Sockets.receive d a.spare t =
        (answer, ⟨w, t.receives ++ [⟨a.spare, answer⟩], t.sends⟩) := by
      simp [Tap.receive_eq, hw]
    cases answer with
    | error e =>
      refine ⟨[⟨a.spare, .error e⟩], none, e.fatal?, ?_, by simp, ?_⟩ <;> rw [readStream_error hrec]
      exact .empty ha (.one ⟨a.spare, .error e⟩) (by simpa using hroom) rfl
    | ok data =>
      by_cases hdata : data = []
      · subst hdata
        refine ⟨[⟨a.spare, .ok []⟩], none, some (.lost Status.endOfStream), ?_, by simp, ?_⟩ <;>
          rw [readStream_end hrec]
        exact .empty ha (.one ⟨a.spare, .ok []⟩) (by simpa using hroom) rfl
      have hbound : data.length ≤ a.spare := hb _ _ _ _ hw
      have hfit : a.filled + data.length ≤ c := by
        simp only [Assembler.spare] at hbound
        omega
      rcases hr : (a.write data).commit f data.length with ⟨a', packets, _ | refusal⟩
      · have hone := Reads.committed (w := w) hf ha hroom hdata hfit hr
        obtain ⟨receives, refusal, verdict, hheard, hlen, hreads⟩ :=
          reads_readStream hf hc hb turns a' ⟨w, t.receives ++ [⟨a.spare, .ok data⟩], t.sends⟩
            (hone.ready hc)
        refine ⟨⟨a.spare, .ok data⟩ :: receives, refusal, verdict, ?_, by simpa using hlen, ?_⟩ <;>
          rw [readStream_more hdata hrec hr]
        · simpa using hheard
        · exact .append hf hone hreads
      · refine ⟨[⟨a.spare, .ok data⟩], some refusal, none, ?_, by simp, ?_⟩ <;>
          rw [readStream_refused hdata hrec hr]
        exact .committed hf ha hroom hdata hfit hr

/-! ## A pair of sockets never answers with too many octets -/

namespace Simulation.Pair

theorem length_takePieces : ∀ (limit : Nat) (ps : List Piece), (takePieces limit ps).1.length ≤ limit
  | _, [] => Nat.zero_le _
  | limit, p :: rest => by
    simp only [takePieces]
    split
    · rename_i hfit
      have hrest := length_takePieces (limit - p.data.length) rest
      simp only [List.length_append]
      omega
    · exact List.length_take_le limit p.data

theorem length_receiveNothing {s : Side} {p p' : Pair} {data : Bytes}
    (h : receiveNothing s p = (.ok data, p')) : data = [] := by
  simp only [receiveNothing] at h
  split at h
  · simp at h
  · split at h
    · simp only [Prod.mk.injEq, Except.ok.injEq] at h
      exact h.1.symm
    · simp at h

theorem bounded (d : Descriptor) : Sockets.Bounded Pair d := by
  intro limit p p' data h
  change p.receive .near limit = _ at h
  simp only [receive] at h
  split at h
  · simp [length_receiveNothing h]
  · simp only [Prod.mk.injEq, Except.ok.injEq] at h
    rw [← h.1]
    exact length_takePieces limit _
  · simp [length_receiveNothing h]
  · simp only [Prod.mk.injEq, Except.ok.injEq] at h
    rw [← h.1]
    exact List.length_take_le limit _

end Simulation.Pair

/-! ## A transport that is read until reading fails -/

/-- A transport, the world of its socket, and what reading it brought so far. -/
structure Reading (σ : Type) where
  transport : Transport
  world : σ
  /-- The receives of each call, earliest call first. -/
  calls : List (List Receive)
  packets : Array Bytes
  failure : Option Failure

namespace Reading

variable {σ : Type}

/-- What can happen while a transport is read. -/
inductive Act (σ : Type)
  | read
  /-- The world goes on without the transport. -/
  | change (w : σ)

/-- Nothing was received yet. -/
def opened (t : Transport) (w : σ) : Reading σ := ⟨{ t with assembler := .new }, w, [], #[], none⟩

def receives (r : Reading σ) : List Receive := r.calls.flatten

/-- The octets received, in order. -/
def stream (r : Reading σ) : Bytes := octetsOf r.receives

/-- What holds of a stream's transport while it is read. -/
structure Sound (f : Framing) (d : Descriptor) (r : Reading σ) : Prop where
  descriptor : r.transport.descriptor = d
  stream : r.transport.handle.mask.isUdp = false
  turns : ∀ call ∈ r.calls, call.length ≤ Transport.readsPerTurn
  reads : ∃ refusal verdict, Reads f receiveRoom [] r.receives refusal verdict
    ⟨r.transport.assembler, r.packets, r.failure, r.world⟩

theorem Sound.opened {f : Framing} {t : Transport} (htcp : t.handle.mask.isUdp = false) (w : σ) :
    (Reading.opened t w).Sound f t.descriptor where
  descriptor := rfl
  stream := htcp
  turns := by simp [Reading.opened]
  reads := by
    have hready : Assembler.new.Ready f receiveRoom := .withCapacity (by decide)
    have hreads : Reads f receiveRoom Assembler.new.pending [] none none ⟨.new, #[], none, w⟩ :=
      .empty hready (.goesOn (by simp)) (by simp) rfl
    rw [Assembler.new, Assembler.pending_withCapacity] at hreads
    exact ⟨none, none, hreads⟩

/-- What reading a stream in layout `p` comes to: how often it receives and with how much room, what it
delivers of the frames that stand in the octets received, and why it fails. -/
structure Delivers (p : LengthField) (r : Reading σ) : Prop where
  turns : ∀ call ∈ r.calls, call.length ≤ 16
  rooms : ∀ x ∈ r.receives, 0 < x.room
  /-- Reading fails with the end of the stream only if the last receive was answered with nothing. -/
  ended : r.failure = some (.lost Status.endOfStream) →
    ∃ x, r.receives.getLast? = some x ∧ x.answer = .ok []
  delivered : ∃ frames rest verdict, p.Cut r.stream frames rest ∧ Ends r.receives verdict ∧
    r.packets.toList = frames.map (List.drop p.strip.toNat) ∧
    (p.IsMalformed rest → r.failure = some (.invalidPacket (-1) p.maxFrame.toNat)) ∧
    (p.IsPart rest → r.failure = verdict)

variable [Sockets σ]

/-- One call of `read`. The record of its receives comes from the same call over a tap. -/
def readOnce (f : Framing) (r : Reading σ) : Reading σ :=
  let got := r.transport.read f r.world
  let heard := (r.transport.read f (Tap.on r.transport.descriptor r.world)).world.receives
  ⟨{ r.transport with assembler := got.assembler }, got.world, r.calls ++ [heard],
    r.packets ++ got.packets, got.failure⟩

/-- Nothing is read any more once reading failed. -/
def act (f : Framing) (r : Reading σ) : Act σ → Reading σ
  | .read => if r.failure.isSome then r else r.readOnce f
  | .change w => { r with world := w }

def run (f : Framing) (acts : List (Act σ)) (r : Reading σ) : Reading σ := acts.foldl (act f) r

variable {d : Descriptor} {f : Framing} {r : Reading σ}

theorem Sound.readOnce (hf : f.PrefixStable) (hb : Sockets.Bounded σ d) (h : r.Sound f d)
    (hopen : r.failure = none) : (r.readOnce f).Sound f d := by
  obtain ⟨refusal, verdict, hbefore⟩ := h.reads
  obtain ⟨rfl, rfl⟩ : refusal = none ∧ verdict = none := by
    simpa [hopen] using hbefore.failure.symm
  have hdesc := h.descriptor
  subst hdesc
  obtain ⟨receives, refusal, verdict, hheard, hlen, hreads⟩ :=
    reads_readStream hf (by decide) hb Transport.readsPerTurn r.transport.assembler
      (Tap.on r.transport.descriptor r.world) (hbefore.ready (by decide))
  have hgot : r.transport.read f r.world = _ :=
    (read_of_stream h.stream f r.world).trans (readStream_tap f _ _ _ (Tap.on r.transport.descriptor r.world))
  have hcalls : (r.readOnce f).calls = r.calls ++ [receives] := by
    simp only [Reading.readOnce, read_of_stream h.stream, hheard]
    rfl
  refine ⟨rfl, h.stream, ?_, refusal, verdict, ?_⟩
  · rw [hcalls]
    simpa [or_imp, forall_and] using ⟨h.turns, hlen⟩
  · have hall : (r.readOnce f).receives = r.receives ++ receives := by simp [Reading.receives, hcalls]
    rw [hall]
    simp only [Reading.readOnce, hgot]
    exact hbefore.append hf hreads

theorem Sound.act (hf : f.PrefixStable) (hb : Sockets.Bounded σ d) (h : r.Sound f d) (a : Act σ) :
    (r.act f a).Sound f d := by
  cases a with
  | change w =>
    obtain ⟨refusal, verdict, hreads⟩ := h.reads
    exact ⟨h.descriptor, h.stream, h.turns, refusal, verdict,
      ⟨hreads.rooms, hreads.ends, hreads.outcome, hreads.capacity, hreads.failure⟩⟩
  | read =>
    simp only [Reading.act]
    split
    · exact h
    · rename_i hopen
      exact h.readOnce hf hb (by simpa using hopen)

theorem Sound.run (hf : f.PrefixStable) (hb : Sockets.Bounded σ d) (acts : List (Act σ))
    {r : Reading σ} (h : r.Sound f d) : (r.run f acts).Sound f d := by
  induction acts generalizing r with
  | nil => exact h
  | cons a rest ih => exact ih (h.act hf hb a)

/-- **The packets are the stripped frames of the octets received before the first malformed header**,
and reading fails with that header, or as the last receive ends it. -/
theorem reads_frames_of_stream {p : LengthField} (hp : p.isValid) (hoff : 0 ≤ p.offset)
    {t : Transport} (htcp : t.handle.mask.isUdp = false) (hb : Sockets.Bounded σ t.descriptor) (w : σ)
    (acts : List (Act σ)) : ((opened t w).run ⟨p, none⟩ acts).Delivers p := by
  have hsound := LengthField.sound_of_isValid hp hoff
  have hr := (Sound.opened (f := ⟨p, none⟩) htcp w).run (Framing.prefixStable_of_layout hoff) hb acts
  generalize (opened t w).run ⟨p, none⟩ acts = r at hr
  obtain ⟨refusal, verdict, hreads⟩ := hr.reads
  obtain ⟨frames, rest, hcut, hpackets, hrefused, hwaiting⟩ :=
    LengthField.exists_cut hsound hoff hsound.header_lt r.stream
  have hout := hreads.outcome
  have hfail := hreads.failure
  have hends := hreads.ends
  rw [List.nil_append] at hout
  change _ = Framing.parse ⟨p, none⟩ receiveRoom r.stream at hout
  rw [← hout] at hpackets hrefused hwaiting
  have hbad : p.IsMalformed rest → r.failure = some (.invalidPacket (-1) p.maxFrame.toNat) := by
    intro hrest
    have hstanding := hrefused hrest
    cases refusal with
    | none => simp [Receipt.outcome] at hstanding
    | some e =>
      simp only [Receipt.outcome, Standing.refused.injEq] at hstanding
      simpa [hstanding] using hfail
  have hpart : p.IsPart rest → r.failure = verdict := by
    intro hrest
    obtain ⟨_, _, _, hstanding⟩ := hwaiting hrest
    cases refusal with
    | none => simpa using hfail
    | some e => simp [Receipt.outcome] at hstanding
  refine ⟨hr.turns, hreads.rooms, fun hend => ?_,
    frames, rest, verdict, hcut, hends, hpackets, hbad, hpart⟩
  rcases hcut.ends with hrest | hrest
  · simp [hbad hrest] at hend
  · rw [hpart hrest] at hend
    exact Ends.exists_empty (hend ▸ hends)

/-- A frame and a half arrive on one end of a pair, and after a first call the rest and the end. -/
theorem reads_frames_of_pair :
    let t : Transport := ⟨{ (default : Handle) with mask := .tcpClient }, 3, .new, .read⟩
    let begun : Simulation.Pair := ⟨.stream, ⟨[.ofData .stream [0, 0, 0, 5, 9, 0]], false, false, none⟩, .new⟩
    let ended : Simulation.Pair := ⟨.stream, ⟨[.ofData .stream [0, 0, 4]], true, false, none⟩, .new⟩
    LengthField.standard.isValid ∧ 0 ≤ LengthField.standard.offset ∧ t.handle.mask.isUdp = false ∧
      Sockets.Bounded Simulation.Pair t.descriptor ∧
      ((opened t begun).run ⟨.standard, none⟩ [.read, .change ended, .read]).Delivers .standard :=
  ⟨by decide, by decide, by decide, Simulation.Pair.bounded 3,
    reads_frames_of_stream (by decide) (by decide) (by decide) (Simulation.Pair.bounded 3) _ _⟩

end Reading

end NetReactor
