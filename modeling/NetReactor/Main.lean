import NetReactor.Echo.Session
import NetReactor.Options.Environment
import NetReactor.Simulation.Isolated

/-!
# The command line

Runs the echo command on a host that reaches no address: a client is told at once that its connect
failed, and a server waits for ever. **An unknown mode is answered with the usage and exit code 2.**
-/

namespace NetReactor.Echo

/-- The variables that options are read from. -/
def readEnvironment : IO Environment := do
  let vars ← Options.variableNames.mapM fun name => return (name, ← IO.getEnv name)
  return fun name => (vars.lookup name).join

/-- Takes steps until the session has ended. -/
partial def Session.finish {c : Command} (s : Session c Simulation.Isolated) : IO Unit := do
  if s.hasEnded then return
  IO.sleep 1
  Session.finish (s.step Simulation.Isolated.collect)

end NetReactor.Echo

open NetReactor in
def main (args : List String) : IO UInt32 := do
  match Echo.Command.ofArgs args with
  | .error mode =>
    IO.eprint (Echo.Command.usage mode)
    return 2
  | .ok c =>
    let options := Options.ofEnvironment (← Echo.readEnvironment)
    Echo.Session.finish (Echo.Session.start c options Simulation.Isolated.new)
    return 0
