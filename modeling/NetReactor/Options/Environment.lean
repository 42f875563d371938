import NetReactor.Options
import NetReactor.Options.Setting

/-!
# Options from the environment

Each variable overrides one standard option; an unreadable value leaves the standard one. **A maximum
frame length that makes the layout invalid falls back to the standard maximum.**
-/

namespace NetReactor.Options

/-- The names of the variables. -/
def variableNames : List String :=
  ["SIO_MAX_FRAME_LENGTH", "SIO_CONNECT_TIMEOUT_MS", "SIO_SEND_TIMEOUT_MS",
    "SIO_RECONNECT_TIMEOUT_MS", "SIO_DNS_CACHE_TTL_SECS", "SIO_DEFER_EVENT", "SIO_NO_NEW_THREAD"]

def maxFrame (env : Environment) : UInt64 :=
  let wanted := ((env "SIO_MAX_FRAME_LENGTH").natural?.map UInt64.ofNat).getD LengthField.defaultMaxFrame
  if ({ LengthField.standard with maxFrame := wanted } : LengthField).isValid then wanted
  else LengthField.defaultMaxFrame

def ofEnvironment (env : Environment) : Options where
  connectTimeout := (env "SIO_CONNECT_TIMEOUT_MS").millis?.getD standard.connectTimeout
  sendTimeout := (env "SIO_SEND_TIMEOUT_MS").millis?
  reconnectTimeout := (env "SIO_RECONNECT_TIMEOUT_MS").millis?.bind Duration.nonzero?
  lookupTtl := (env "SIO_DNS_CACHE_TTL_SECS").secs?.getD standard.lookupTtl
  deferEvents := (env "SIO_DEFER_EVENT").switch standard.deferEvents
  keepAlive := none
  framing := ⟨{ LengthField.standard with maxFrame := maxFrame env }, none⟩
  resolver := none
  sameThread := (env "SIO_NO_NEW_THREAD").switch standard.sameThread

end NetReactor.Options
