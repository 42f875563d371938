import NetReactor.Readiness

/-!
# Watched descriptors

Which descriptors a loop waits on, each under a token and with an interest. **A descriptor is watched
at most once**: registering it again replaces its token and interest. A wait asks the system for each
one's bits and reports those that show any; readiness is a level, so what stays ready is reported
again.
-/

namespace NetReactor

/-- One watched descriptor. -/
structure Registration (τ : Type) where
  descriptor : Descriptor
  token : τ
  interest : Interest
deriving DecidableEq, Repr

/-- The watched descriptors. -/
abbrev Watch (τ : Type) := List (Registration τ)

namespace Watch

variable {τ : Type}

/-- Stops watching a descriptor; one that is not watched changes nothing. -/
def deregister (w : Watch τ) (d : Descriptor) : Watch τ := w.filter (·.descriptor ≠ d)

/-- Watches a descriptor, in place of how it was watched before. -/
def register (w : Watch τ) (d : Descriptor) (token : τ) (interest : Interest) : Watch τ :=
  deregister w d ++ [⟨d, token, interest⟩]

/-- What a wait reports, where `bits` are the system's answers for a descriptor and the bits asked
for. -/
def ready (w : Watch τ) (bits : Descriptor → PollBits → PollBits) : List (Readiness τ) :=
  w.filterMap fun r =>
    let shown := bits r.descriptor r.interest.bits
    if shown = 0 then none else some (.ofBits r.token shown)

end Watch

end NetReactor
