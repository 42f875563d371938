import NetReactor.Options.Environment
import NetReactor.Proofs.Frame.Exactness
import NetReactor.Proofs.Frame.Unframed
import NetReactor.Service

/-!
# Options are always usable

Options start out as the standard ones or as what the environment says, pass through the builder and are
changed in a running service (`Options.Obtained`). **However they come about, their layout is valid and
no reconnect is after a delay of zero** (`usable_of_obtained`). What this is good for is the assembler:
a header in a valid layout is shorter than a buffer of the usual room, so that a full buffer always shows
a size. Hence without a decoder **no connection is refused for a header that does not fit, and none waits
for octets that it has no room for**, whatever it received before and however the layout was replaced in
the meantime.
-/

namespace NetReactor

/-! ## Where options come from -/

namespace Options

/-- A call of the builder. -/
inductive Build
  | connectTimeout (d : Duration)
  | sendTimeout (d : Option Duration)
  | reconnectTimeout (d : Option Duration)
  | lookupTtl (d : Duration)
  | deferEvents (on : Bool)
  | keepAlive (k : Option KeepAlive)
  | layout (p : LengthField)
  | frameDecoder (d : Option FrameDecoder)
  | resolver (r : Option ResolverId)
  | sameThread (on : Bool)

/-- The options that a call of the builder makes of others. -/
def build (o : Options) : Build → Options
  | .connectTimeout d => { o with connectTimeout := d }
  | .sendTimeout d => { o with sendTimeout := d }
  | .reconnectTimeout d => o.withReconnectTimeout d
  | .lookupTtl d => { o with lookupTtl := d }
  | .deferEvents on => { o with deferEvents := on }
  | .keepAlive k => { o with keepAlive := k }
  | .layout p => o.withLayout p
  | .frameDecoder d => o.withDecoder d
  | .resolver r => { o with resolver := r }
  | .sameThread on => { o with sameThread := on }

/-- What can be had in an environment: the standard options or the environment's own, built further, and
changed in any service that runs with them. -/
inductive Obtained (env : Environment) : Options → Prop
  | standard : Obtained env .standard
  | environment : Obtained env (.ofEnvironment env)
  | build {o : Options} (before : Obtained env o) (c : Build) : Obtained env (o.build c)
  | change {s : Service} (before : Obtained env s.options) (c : Change) :
      Obtained env (s.setOption c).options

/-- What holds of options however they come about. -/
structure Proper (o : Options) : Prop where
  layout : o.framing.layout.isValid
  reconnect : o.reconnectTimeout ≠ some .zero

/-- The standard layout with another maximum. -/
def bounded (m : UInt64) : LengthField := { LengthField.standard with maxFrame := m }

theorem isValid_maxFrame (env : Environment) : (bounded (maxFrame env)).isValid := by
  have hchosen (wanted : UInt64) : (bounded
      (if (bounded wanted).isValid then wanted else LengthField.defaultMaxFrame)).isValid := by
    by_cases hvalid : (bounded wanted).isValid
    · rwa [if_pos hvalid]
    · rw [if_neg hvalid]
      decide
  exact hchosen _

/-- A delay of zero switches reconnecting off. -/
theorem bind_nonzero?_ne_zero (d : Option Duration) : d.bind Duration.nonzero? ≠ some .zero := by
  intro h
  obtain ⟨d', -, hd'⟩ := Option.bind_eq_some_iff.1 h
  simp only [Duration.nonzero?] at hd'
  split at hd'
  · simp at hd'
  · rename_i hnonzero
    cases hd'
    exact hnonzero rfl

variable {o o' : Options}

theorem Proper.withLayout (h : o.Proper) (p : LengthField) : (o.withLayout p).Proper := by
  unfold Options.withLayout
  split
  · exact ⟨‹_›, h.reconnect⟩
  · exact h

theorem Proper.withReconnectTimeout (h : o.Proper) (d : Option Duration) :
    (o.withReconnectTimeout d).Proper :=
  ⟨h.layout, bind_nonzero?_ne_zero d⟩

theorem Proper.build (h : o.Proper) (c : Build) : (o.build c).Proper := by
  cases c with
  | reconnectTimeout d => exact h.withReconnectTimeout d
  | layout p => exact h.withLayout p
  | _ => exact ⟨h.layout, h.reconnect⟩

theorem Proper.revise (h : o.Proper) {c : Change} (hc : c.revise? o = some o') : o'.Proper := by
  cases c with
  | reconnectTimeout d => exact Option.some.inj hc ▸ h.withReconnectTimeout _
  | layout p =>
    simp only [Change.revise?] at hc
    split at hc
    · exact Option.some.inj hc ▸ h.withLayout p
    · simp at hc
  | _ => cases hc <;> exact ⟨h.layout, h.reconnect⟩

theorem Proper.setOption {s : Service} (h : s.options.Proper) (c : Change) :
    (s.setOption c).options.Proper := by
  unfold Service.setOption
  split
  all_goals try exact h
  split
  · rename_i o hrevise
    exact h.revise hrevise
  · exact h

/-- **Every call leaves options proper.** -/
theorem proper_of_obtained {env : Environment} (h : Obtained env o) : o.Proper := by
  induction h with
  | standard => exact ⟨by decide, by decide⟩
  | environment => exact ⟨isValid_maxFrame env, bind_nonzero?_ne_zero _⟩
  | build _ c ih => exact ih.build c
  | change _ c ih => exact ih.setOption c

end Options

/-! ## A full buffer shows a size -/

namespace LengthField

variable {p : LengthField}

/-- **What fills a buffer of the usual room holds a whole header.** -/
theorem frameSize_ne_none (hvalid : p.isValid) {buf : Bytes} (hfull : buf.length = receiveRoom) :
    Framing.frameSize ⟨p, none⟩ buf ≠ .ok none := by
  by_cases hoff : p.offset < 0
  · have hne : buf ≠ [] := by
      rintro rfl
      simp [receiveRoom] at hfull
    rw [frameSize_of_unframed hoff hne (Nat.le_of_eq hfull)]
    split <;> simp
  · have hsound := sound_of_isValid hvalid (Int32.not_lt.1 hoff)
    have hheader := hsound.header_lt
    rw [frameSize_eq hsound (Int32.not_lt.1 hoff), if_neg (by omega)]
    split <;> simp

end LengthField

/-- A frame that is refused for its size names a size. -/
theorem Framing.size_ne_zero_of_refused {f : Framing} {buf : Bytes} {n : Int} {m : Nat}
    (h : f.frameSize buf = .error (.invalidPacket n m)) : n ≠ 0 := by
  simp only [frameSize] at h
  split at h
  · cases h
  · split at h
    · cases h
      assumption
    · cases h

/-- The refusal of a header that even a full buffer does not hold. -/
def Failure.IsHeaderless (e : Failure) : Prop := ∃ m, e = .invalidPacket 0 m

/-- A receive is not refused for want of a size, and leaves room for the next one. -/
structure Receipt.Flows (r : Receipt) : Prop where
  refusal : ∀ e, r.failure = some e → ¬e.IsHeaderless
  room : r.failure = none → 0 < r.assembler.spare

namespace Assembler

variable {p : LengthField} {a : Assembler}

/-- A run over the unread octets may be refused for a size, but not for want of one. -/
theorem failure_scan (hvalid : p.isValid) {full : Bool} {m : Nat} {expected : Option Nat}
    {frame : Array UInt8} {packets : Array Bytes} {rest : Bytes} (hbegun : Begun m expected frame)
    (hfull : full = true → rest.length = receiveRoom) {e : Failure}
    (he : (scan ⟨p, none⟩ full expected frame packets rest).failure = some e) : ¬e.IsHeaderless := by
  induction hn : rest.length using Nat.strongRecOn generalizing full expected frame packets rest with
  | ind n ih =>
    by_cases hrest : rest = []
    · rw [hrest, scan] at he
      simp at he
    have hpos := List.length_pos_iff.2 hrest
    have hknown : ∀ x, frame.size < x →
        (scan ⟨p, none⟩ full (some x) frame packets rest).failure = some e → ¬e.IsHeaderless := by
      intro x hshort hx
      rw [scan_some hrest hshort] at hx
      split at hx
      · simp at hx
      · have hfresh : Begun m none #[] := rfl
        refine ih _ ?_ hfresh (by simp) hx rfl
        rw [List.length_drop]
        omega
    cases expected with
    | some x => exact hknown x hbegun.1 he
    | none =>
      obtain rfl : frame = #[] := hbegun
      cases hs : Framing.frameSize ⟨p, none⟩ rest with
      | ok size =>
        cases size with
        | some x =>
          rw [scan_of_frameSize hrest hs] at he
          exact hknown x (Framing.frameSize_pos hs) he
        | none =>
          obtain ⟨b, tail, rfl⟩ := List.exists_cons_of_ne_nil hrest
          cases full with
          | false =>
            rw [scan.eq_def] at he
            simp [hs] at he
          | true => exact absurd hs (LengthField.frameSize_ne_none hvalid (hfull rfl))
      | error refusal =>
        obtain ⟨b, tail, rfl⟩ := List.exists_cons_of_ne_nil hrest
        rw [scan.eq_def] at he
        simp only [hs, Option.some.injEq] at he
        subst he
        rintro ⟨m, rfl⟩
        exact Framing.size_ne_zero_of_refused hs rfl

theorem Settled.flows_commit (ha : a.Settled) (hcap : a.capacity = receiveRoom) (hvalid : p.isValid)
    (n : Nat) : (a.commit ⟨p, none⟩ n).Flows := by
  rw [← commitBy_steady ⟨p, none⟩ 0 n a]
  constructor
  · intro e he
    rw [commitBy_steady] at he
    obtain ⟨m, hbegun⟩ := ha.begun
    obtain ⟨buffer, filled, frame, expected⟩ := a
    obtain ⟨stop, hstop⟩ : ∃ stop, min (filled + n) buffer.size = stop := ⟨_, rfl⟩
    have hlen : (buffer.take stop).toList.length = stop := by
      rw [toList_take, List.length_take, Array.length_toList]
      omega
    have hscan : (scan ⟨p, none⟩ (decide (stop = buffer.size)) expected frame #[]
        (buffer.take stop).toList).failure = some e := by
      simp only [commit, hstop] at he
      split at he
      · rename_i refusal hrefusal
        exact hrefusal.trans he
      · simp at he
    refine failure_scan hvalid hbegun (fun hfull => ?_) hscan
    rw [hlen, of_decide_eq_true hfull]
    exact hcap
  · intro hok
    refine (ha.commitBy hok).spare_pos ?_
    rw [capacity_commitBy, hcap]
    decide

/-- **In a valid layout every receive flows**, in one piece or in many. -/
theorem Settled.flows_feed (ha : a.Settled) (hcap : a.capacity = receiveRoom) (hvalid : p.isValid)
    (data : Bytes) : (a.feed ⟨p, none⟩ data).Flows := by
  induction hn : data.length using Nat.strongRecOn generalizing data a with
  | ind n ih =>
    have hpos : 0 < a.spare := ha.spare_pos (by rw [hcap]; decide)
    by_cases hdata : data = []
    · rw [hdata, feed]
      exact ⟨by simp, fun _ => hpos⟩
    have hcap' := (a.capacity_write (data.take a.spare)).trans hcap
    have hflows := (ha.write (data.take a.spare)).flows_commit hcap' hvalid (data.take a.spare).length
    have hsettled := (ha.write (data.take a.spare)).commitBy (w := .steady ⟨p, none⟩) (k := 0)
      (n := (data.take a.spare).length)
    have hroom := (capacity_commitBy (.steady ⟨p, none⟩) 0 (data.take a.spare).length
      (a.write (data.take a.spare))).trans hcap'
    rw [commitBy_steady] at hsettled hroom
    rw [feed_of_spare hdata hpos]
    generalize (a.write (data.take a.spare)).commit ⟨p, none⟩ (data.take a.spare).length = r
      at hflows hsettled hroom
    obtain ⟨a', packets, failure⟩ := r
    cases failure with
    | some e => exact hflows
    | none =>
      have hlt : (data.drop a.spare).length < n := by
        have := List.length_pos_iff.2 hdata
        rw [List.length_drop]
        omega
      obtain ⟨hrefusal, hleft⟩ := ih _ hlt (hsettled rfl) hroom _ rfl
      exact ⟨hrefusal, hleft⟩

/-- An assembler of the usual room is one of 65536 octets. -/
theorem reached_new : Reached 65536 Assembler.new := by
  have hroom : (65536 : UInt64).toNat = receiveRoom := rfl
  rw [Assembler.new, ← hroom]
  exact .new

end Assembler

/-! ## What options are good for -/

namespace Options

/-- Options that a connection without a decoder can always go on with: whatever calls its assembler went
through, each with a framing of its own, the next receive flows. -/
structure Usable (o : Options) : Prop extends o.Proper where
  commit : o.framing.decoder = none → ∀ a, Assembler.Reached 65536 a → ∀ n, (a.commit o.framing n).Flows
  feed : o.framing.decoder = none → ∀ a, Assembler.Reached 65536 a → ∀ data, (a.feed o.framing data).Flows

/-- **Options are usable, wherever they come from.** -/
theorem usable_of_obtained {env : Environment} {o : Options} (h : Obtained env o) : o.Usable := by
  have hproper := proper_of_obtained h
  obtain ⟨⟨p, decoder⟩, hframing⟩ : ∃ f, o.framing = f := ⟨_, rfl⟩
  have hvalid : p.isValid := by
    have := hproper.layout
    rwa [hframing] at this
  refine { hproper with commit := ?_, feed := ?_ }
  all_goals
    rw [hframing]
    rintro rfl a ha
    obtain ⟨hsettled, hcap⟩ := Assembler.settled_of_reached ha
  · exact hsettled.flows_commit hcap hvalid
  · exact hsettled.flows_feed hcap hvalid

open Assembler in
/-- A variable that asks for no frames at all, a layout that is refused and one with the longest header
there is, taken over while two octets of another header wait. -/
theorem usable_across_layouts :
    let env : Environment := fun name => if name = "SIO_MAX_FRAME_LENGTH" then some "0" else none
    let built := ((Options.ofEnvironment env).build (.layout ⟨10, 0, 9, 0, 0⟩)).build
      (.reconnectTimeout (some .zero))
    let long : LengthField := ⟨70000, 65531, 4, 0, 0⟩
    let o := ((Service.ofOptions built).setOption (.layout long)).options
    let first := Assembler.new.feed ⟨.standard, none⟩ [0, 9]
    built.framing.layout = .standard ∧ o.framing.layout = long ∧ Obtained env o ∧
      first.outcome = ⟨[], .waiting none [] [0, 9]⟩ ∧ Reached 65536 first.assembler ∧ o.Usable := by
  intro env built long o first
  have hbuilt : Obtained env built := .build (.build .environment _) _
  have ho : Obtained env o := .change hbuilt _
  have hfirst : first.outcome = ⟨[], .waiting none [] [0, 9]⟩ := by
    have hstable : Framing.PrefixStable ⟨.standard, none⟩ := Framing.prefixStable_of_layout (by decide)
    have hready : Assembler.new.Ready ⟨.standard, none⟩ receiveRoom := .withCapacity (by decide)
    have hempty : Assembler.new.pending = [] := pending_withCapacity receiveRoom
    have hshort : Framing.frameSize ⟨.standard, none⟩ [0, 9] = .ok none := by decide +kernel
    rw [(hready.outcome_feed hstable (by decide) [0, 9]).1, hempty]
    exact Framing.parse_of_open (.header (by decide) fun _ => hshort)
  have hwell : first.failure = none := by
    cases hfailure : first.failure with
    | none => rfl
    | some e => simp [Receipt.outcome, hfailure] at hfirst
  have ha : Reached 65536 first.assembler := by
    have hfed := feedBy_steady ⟨.standard, none⟩ 0 [0, 9] Assembler.new
    have hwell' : (Assembler.new.feedBy (.steady ⟨.standard, none⟩) 0 [0, 9]).1.failure = none := by
      rwa [hfed]
    have hreached := reached_new.feed _ hwell'
    rwa [hfed] at hreached
  exact ⟨by decide +kernel, by decide +kernel, ho, hfirst, ha, usable_of_obtained ho⟩

end Options

end NetReactor
