import ClusterSync.CommandLine.Program
import ClusterSync.Json.Writer
import ClusterSync.Policy.Definition

/-!
# Running the program

The outer layer: reads arguments and environment, and writes what the program comes to.
-/

namespace ClusterSync

/-- The variables that the program looks at. -/
def knownVariables : List String :=
  ["LOG_LEVEL", "LOG_FORMAT", "CONTROLLERS", "NODE_WORKERS", "UNP_WORKERS", "MAX_RETRIES",
    "BACKOFF_START_MS", "BACKOFF_MAX_MS", "CACHE_SYNC_TIMEOUT_SECS", "STORE_BACKEND",
    "ETCD_ENDPOINTS", "ETCDCTL_ENDPOINTS", "ETCD_DIAL_TIMEOUT_MS", "METRICS_PORT",
    "SERVER_STARTUP_TIMEOUT_SECS", "SERVER_POLL_INTERVAL_MS", "RUST_LOG"]

/-- A log event as a line. -/
def logLine (format : CommandLine.LogFormat) (e : LogEvent) : String :=
  match format with
  | .text => e.level.label ++ " " ++ e.message
  | .json => (Json.object [("level", .str e.level.label), ("message", .str e.message)]).render

/-- Writes what a program comes to, and gives its exit code. -/
def writeResult (r : CommandLine.Result) : IO UInt32 := do
  match r.output with
  | .text text => IO.print text
  | .log format events =>
    for e in events do
      IO.println (logLine format e)
  match r.exit? with
  | none => return 0
  | some (code, message?) =>
    if let some message := message? then
      IO.eprintln message
    return code.toUInt32

/-- Writes the file with the definition of policies. -/
def writeDefinition : IO Unit := IO.print NetworkPolicy.definitionFile

end ClusterSync

open ClusterSync in
def main (arguments : List String) : IO UInt32 := do
  let values ← knownVariables.mapM fun key => do return (key, ← IO.getEnv key)
  let env : Environment := fun key => (values.lookup key).join
  writeResult (CommandLine.run arguments env {})
