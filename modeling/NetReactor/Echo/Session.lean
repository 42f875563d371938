import NetReactor.Echo.Application
import NetReactor.Reactor.Turn

/-!
# A session of the echo command

One channel on one loop, from the start of the service to its stop. A step of it is a turn of the loop,
after which waiting events are dispatched, so many at most.
-/

namespace NetReactor.Echo

abbrev Session (c : Command) (σ : Type) : Type := Reactor (Running c σ)

namespace Session

variable {c : Command} {σ : Type} [Host σ]

/-- How many events are dispatched at once. -/
def batch : Nat := 128

/-- The service is started, and its channel is asked to open. -/
def start (c : Command) (o : Options) (w : σ) : Session c σ :=
  .new (((Service.ofOptions o).start 0 1).openChannel 0 c.mask) w [c.endpoint]

def dispatch (max : Nat) (s : Session c σ) : Session c σ :=
  let (_, service, w) := s.service.dispatch max s.world
  { s with service := service, world := w }

/-- The lookups that have ended are collected, the loop takes a turn, and events are dispatched. -/
def step (collect : σ → List Resolution × σ) (s : Session c σ) : Session c σ :=
  let (arrived, w) := collect s.world
  let service := arrived.foldl (fun x a => x.post (.resolved a)) s.service
  dispatch batch (Reactor.turn { s with service := service, world := (w : Running c σ) })

/-- Whether there is nothing more to do. -/
def hasEnded (s : Session c σ) : Bool :=
  !s.service.running || c.hasEnded (s.service.delivered.toList.map (·.2))

/-- The service is stopped, and all that still waits is dispatched. -/
def stop (s : Session c σ) : Session c σ :=
  let s : Session c σ := Reactor.teardown { s with service := s.service.stop }
  dispatch s.service.events.length s

end Session

end NetReactor.Echo
