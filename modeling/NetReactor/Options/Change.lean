import NetReactor.Options

/-!
# Changes to a running service

One run-time option each. The service-wide ones change the shared options and **apply to operations
started afterwards**; the others address one channel, the event callback, or the log file.
-/

namespace NetReactor

inductive Change
  | connectTimeout (d : Duration)
  | sendTimeout (d : Option Duration)
  | reconnectTimeout (d : Duration)
  | lookupTtl (d : Duration)
  | deferEvents (on : Bool)
  | keepAlive (k : Option KeepAlive)
  | layout (p : LengthField)
  | eventCallback (callback : Nat)
  | frameDecoder (d : Option FrameDecoder)
  | resolver (r : Option ResolverId)
  | localPort (channel : Nat) (port : UInt16)
  | remoteHost (channel : Nat) (host : String)
  | remotePort (channel : Nat) (port : UInt16)
  | remoteEndpoint (channel : Nat) (host : String) (port : UInt16)
  | sameThread (on : Bool)
  | logFile (path : String)

namespace Change

/-- The service-wide options after the change; `none` where it is none of them, or is refused. -/
def revise? (o : Options) : Change → Option Options
  | connectTimeout d => some { o with connectTimeout := d }
  | sendTimeout d => some { o with sendTimeout := d }
  | reconnectTimeout d => some (o.withReconnectTimeout (some d))
  | lookupTtl d => some { o with lookupTtl := d }
  | deferEvents on => some { o with deferEvents := on }
  | keepAlive k => some { o with keepAlive := k }
  | layout p => if p.isValid then some (o.withLayout p) else none
  | frameDecoder d => some (o.withDecoder d)
  | resolver r => some { o with resolver := r }
  | sameThread on => some { o with sameThread := on }
  | _ => none

def name : Change → String
  | connectTimeout _ => "connect_timeout"
  | sendTimeout _ => "send_timeout"
  | reconnectTimeout _ => "reconnect_timeout"
  | lookupTtl _ => "dns_cache_timeout"
  | deferEvents _ => "defer_event"
  | keepAlive _ => "tcp_keepalive"
  | layout _ => "length_field_params"
  | eventCallback _ => "event_callback"
  | frameDecoder _ => "frame_decoder"
  | resolver _ => "resolver"
  | localPort .. => "channel_local_port"
  | remoteHost .. => "channel_remote_host"
  | remotePort .. => "channel_remote_port"
  | remoteEndpoint .. => "channel_remote_endpoint"
  | sameThread _ => "no_new_thread"
  | logFile _ => "log_file"

def text : Change → String
  | connectTimeout d => Text.wrapped "ConnectTimeout" d.text
  | sendTimeout d => Text.wrapped "SendTimeout" (Text.optional (d.map Duration.text))
  | reconnectTimeout d => Text.wrapped "ReconnectTimeout" d.text
  | lookupTtl d => Text.wrapped "DnsCacheTimeout" d.text
  | deferEvents on => Text.wrapped "DeferEvent" (Text.flag on)
  | keepAlive k => Text.wrapped "TcpKeepAlive" (Text.optional (k.map KeepAlive.text))
  | layout p => Text.wrapped "LengthFieldParams" p.text
  | localPort ch port => Text.wrapped "ChannelLocalPort" (toString ch ++ ", " ++ toString port.toNat)
  | remoteHost ch host => Text.wrapped "ChannelRemoteHost" (toString ch ++ ", " ++ host)
  | remotePort ch port => Text.wrapped "ChannelRemotePort" (toString ch ++ ", " ++ toString port.toNat)
  | remoteEndpoint ch host port =>
    Text.wrapped "ChannelRemoteEndpoint" (toString ch ++ ", " ++ host ++ ":" ++ toString port.toNat)
  | sameThread on => Text.wrapped "NoNewThread" (Text.flag on)
  | logFile path => Text.wrapped "LogFile" path
  | c => c.name

end Change

end NetReactor
