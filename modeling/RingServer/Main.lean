import RingServer.CommandLine

/-!
Entry point. The kernel behind the queues is the library's own, and no client reaches it: a server
that has started leaves its log lines, and the program ends there.
-/
open RingServer

def readEnvironment : IO Environment := do
  let values ← CommandLine.variableNames.mapM fun name => do return (name, ← IO.getEnv name)
  return fun name =>
    match (values.lookup name).join with
    | some s => .text s
    | none => .unset

def main (args : List String) : IO UInt32 := do
  let outcome := CommandLine.run Kernel.Host.isolated args (← readEnvironment)
  outcome.stderr.forM IO.eprintln
  return outcome.code.getD 0
