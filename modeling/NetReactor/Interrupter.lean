import NetReactor.Readiness

/-!
# Interrupters

A descriptor that other threads make readable to end the loop's wait. **Any number of interrupts
before a reset count as one**, and a reset tells whether there was any.
-/

namespace NetReactor

structure Interrupter where
  pending : Bool
deriving DecidableEq, Repr, Inhabited

namespace Interrupter

def new : Interrupter := ⟨false⟩

def interrupt (_ : Interrupter) : Interrupter := ⟨true⟩

/-- Whether anything was pending; nothing is afterwards. -/
def reset (i : Interrupter) : Bool × Interrupter := (i.pending, ⟨false⟩)

/-- Readable while an interrupt is pending, and always writable. -/
def bits (i : Interrupter) : PollBits :=
  (if i.pending then PollBits.input else 0) ||| .output

end Interrupter

end NetReactor
