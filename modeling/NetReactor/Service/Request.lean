import NetReactor.Service

/-!
# Requests and callbacks

Every call an application can make on a service, as a value, and what it answers. A callback is a
**script**: it makes calls one after the other, may look at each answer before the next, and comes to
an end.
-/

namespace NetReactor

inductive Request
  | openChannel (channel : Nat) (mask : ChannelMask)
  | closeChannel (channel : Nat)
  | closeTransport (h : Handle)
  | reopen (h : Handle)
  | write (h : Handle) (data : Bytes)
  | schedule (delay : Duration) (again : Bool) (timer : Nat)
  | cancelTimer (h : Timer.Handle)
  | removeTimer (h : Timer.Handle)
  | setOption (c : Change)
  | stop

/-- What a request answers: nothing, whether it found its timer, or a new timer's handle. -/
inductive Reply
  | done
  | found (b : Bool)
  | timer (h : Timer.Handle)
deriving DecidableEq, Repr

namespace Service

/-- Records a call on the timers. -/
def recordCall (s : Service) (c : Timer.Call) : Service := { s with timerCalls := c :: s.timerCalls }

/-- Carries a request out at `now`. -/
def perform (s : Service) (now : Instant) : Request → Reply × Service
  | .openChannel channel mask => (.done, s.openChannel channel mask)
  | .closeChannel channel => (.done, s.closeChannel channel)
  | .closeTransport h => (.done, s.closeTransport h)
  | .reopen h => (.done, s.reopen h)
  | .write h data => (.done, s.write now h data)
  | .schedule delay again timer =>
    let (h, s) := s.schedule now delay again (.user timer)
    (.timer h, s.recordCall (.scheduled h))
  | .cancelTimer h =>
    let (b, s) := s.cancelTimer now h
    (.found b, s.recordCall (.cancelled h))
  | .removeTimer h =>
    let (b, s) := s.removeTimer h
    (.found b, s.recordCall (.removed h))
  | .setOption c => (.done, s.setOption c)
  | .stop => (.done, s.stop)

end Service

/-- What a callback does, in the world `σ`. -/
inductive Script (σ : Type)
  | done (world : σ)
  | call (world : σ) (request : Request) (next : Reply → σ → Script σ)

/-- Makes requests one after the other, whatever they answer. -/
def Script.ofRequests {σ : Type} : List Request → σ → Script σ
  | [], w => .done w
  | r :: rest, w => .call w r fun _ w => ofRequests rest w

/-- The application: what its callbacks do. -/
class Application (σ : Type) where
  onEvent : (callback : Nat) → Event → σ → Script σ
  onTimer : (timer : Nat) → (cancelled : Bool) → σ → Script σ

end NetReactor
