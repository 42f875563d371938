import NetReactor.Frame.Framing
import NetReactor.Instant

/-!
# Service options

What a service is run with. A timeout of zero means "off" for reconnecting, and **a layout that is not
valid is never taken over**, so the framing of every set of options is usable.
-/

namespace NetReactor

/-- Probing of idle connections. -/
structure KeepAlive where
  idle : Duration
  interval : Duration
  probes : Nat
deriving DecidableEq, Repr

namespace KeepAlive

def standard : KeepAlive := ⟨.ofSecs 7200, .ofSecs 75, 10⟩

def text (k : KeepAlive) : String :=
  Text.record "KeepAlive" [
    ("idle", k.idle.text), ("interval", k.interval.text), ("probes", toString k.probes)]

end KeepAlive

/-- A resolver of the user's own, by the number it is known under. -/
abbrev ResolverId := Nat

structure Options where
  connectTimeout : Duration
  sendTimeout : Option Duration
  reconnectTimeout : Option Duration
  /-- How long looked-up addresses stay good. -/
  lookupTtl : Duration
  /-- Whether events wait to be dispatched, or go to the callback at once. -/
  deferEvents : Bool
  keepAlive : Option KeepAlive
  framing : Framing
  /-- `none` is the system's resolver. -/
  resolver : Option ResolverId
  /-- Whether the loop runs on the thread that starts it. -/
  sameThread : Bool

namespace Options

def standard : Options where
  connectTimeout := .ofMillis 5000
  sendTimeout := none
  reconnectTimeout := none
  lookupTtl := .ofSecs 600
  deferEvents := true
  keepAlive := none
  framing := ⟨.standard, none⟩
  resolver := none
  sameThread := false

instance : Inhabited Options := ⟨standard⟩

def withReconnectTimeout (o : Options) (d : Option Duration) : Options :=
  { o with reconnectTimeout := d.bind Duration.nonzero? }

def withLayout (o : Options) (p : LengthField) : Options :=
  if p.isValid then { o with framing := { o.framing with layout := p } } else o

def withDecoder (o : Options) (d : Option FrameDecoder) : Options :=
  { o with framing := { o.framing with decoder := d } }

/-- When data queued at `now` expires, if it does at all. -/
def sendDeadline (o : Options) (now : Instant) : Option Instant := o.sendTimeout.bind now.add?

def text (o : Options) : String :=
  Text.record "ServiceOptions" [
    ("connect_timeout", o.connectTimeout.text),
    ("send_timeout", Text.optional (o.sendTimeout.map Duration.text)),
    ("reconnect_timeout", Text.optional (o.reconnectTimeout.map Duration.text)),
    ("dns_cache_ttl", o.lookupTtl.text),
    ("defer_event", Text.flag o.deferEvents),
    ("keepalive", Text.optional (o.keepAlive.map KeepAlive.text)),
    ("framing", o.framing.text),
    ("custom_resolver", Text.flag o.resolver.isSome),
    ("no_new_thread", Text.flag o.sameThread)]

end Options

end NetReactor
