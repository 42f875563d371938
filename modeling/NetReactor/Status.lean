import NetReactor.OsError

/-!
# Status codes

The outcome carried by every event. Zero is success, a positive status is the operating system's own
error number, and the negative ones below are the service's own.
-/

namespace NetReactor

abbrev Status := Int

namespace Status

def ok : Status := 0
def unknown : Status := -1
/-- The peer ended the stream. -/
def endOfStream : Status := -20
/-- This side closed. -/
def closedHere : Status := -24
def noAddress : Status := -25
def lookupFailed : Status := -26
def invalidPacket : Status := -27
def sendTimeout : Status := -28
def connectTimeout : Status := -29

def describe (s : Status) : String :=
  if s = ok then "no error"
  else if s = unknown then "unknown error"
  else if s = endOfStream then "end of stream"
  else if s = closedHere then "shutdown by localhost"
  else if s = noAddress then "no available address to connect"
  else if s = lookupFailed then "resolve host failed"
  else if s = invalidPacket then "invalid packet"
  else if s = sendTimeout then "send timeout"
  else if s = connectTimeout then "connect timeout"
  else if 0 < s then OsError.text s
  else "error " ++ toString s

end Status

end NetReactor
