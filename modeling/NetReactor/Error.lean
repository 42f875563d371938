import NetReactor.Status

/-!
# Failures

Two layers. `IoError` is what a socket operation reports: an error number, a bare kind, or a kind with
a message of its own. `Failure` is why a connection or a call failed: a frame whose length is refused,
a lost peer, or an input/output error. **A failure's status is what the lost event carries.**
-/

namespace NetReactor

/-- The kinds of error that carry no error number. -/
inductive IoKind
  | notFound
  | wouldBlock
  | interrupted
  | timedOut
  | invalidData
  | invalidInput
  | connectionRefused
  | other
deriving DecidableEq, Repr

namespace IoKind

def text : IoKind → String
  | notFound => "entity not found"
  | wouldBlock => "operation would block"
  | interrupted => "operation interrupted"
  | timedOut => "timed out"
  | invalidData => "invalid data"
  | invalidInput => "invalid input parameter"
  | connectionRefused => "connection refused"
  | other => "other error"

end IoKind

/-- What a socket operation reports when it does not succeed. -/
inductive IoError
  | os (code : Int)
  | kind (k : IoKind)
  | custom (k : IoKind) (message : String)
deriving DecidableEq, Repr

namespace IoError

def text : IoError → String
  | os code => OsError.text code
  | kind k => k.text
  | custom _ message => message

/-- The error number, or `unknown` where there is none. -/
def status : IoError → Status
  | os code => code
  | _ => Status.unknown

/-- Whether the operation is worth trying again when the descriptor is ready. -/
def isTransient : IoError → Bool
  | os code =>
    code = OsError.wouldBlock || code = OsError.interrupted ||
      code = OsError.inProgress || code = OsError.alreadyInProgress
  | kind k | custom k _ => k = .wouldBlock || k = .interrupted

end IoError

/-- Why a connection was lost or a call failed. -/
inductive Failure
  /-- The decoder refused a length (`max` is the largest frame allowed). -/
  | invalidPacket (length : Int) (max : Nat)
  | lost (status : Status)
  | io (error : IoError)
deriving DecidableEq, Repr

namespace Failure

def message : Failure → String
  | invalidPacket length max =>
    "invalid packet: decoded length " ++ toString length ++ " (max " ++ toString max ++ ")"
  | lost status => "connection lost: " ++ Status.describe status
  | io error => "io: " ++ error.text

def status : Failure → Status
  | invalidPacket _ _ => Status.invalidPacket
  | lost status => status
  | io error => error.status

/-- Only an input/output error wraps another one. -/
def hasSource : Failure → Bool
  | io _ => true
  | _ => false

end Failure

/-- The failure an error means for its connection, unless it only asks to try again. -/
def IoError.fatal? (e : IoError) : Option Failure := if e.isTransient then none else some (.io e)

end NetReactor
