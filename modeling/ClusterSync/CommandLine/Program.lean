import ClusterSync.CommandLine.Arguments
import ClusterSync.CommandLine.Help
import ClusterSync.Startup.Basic
import ClusterSync.Supervisor.Basic
import ClusterSync.Telemetry.LogFilter

/-!
# The program

From arguments and environment to what is written and how the program ends. A program whose
controllers have started runs until a signal comes; all others end by themselves.
-/

namespace ClusterSync.CommandLine

/-- How log events are written: as JSON lines or as lines of text. -/
inductive LogFormat
  | json | text
  deriving DecidableEq, Repr

/-- What a program writes: a text of its own, or a log. -/
inductive Output
  | text (text : String)
  | log (format : LogFormat) (events : List LogEvent)
  deriving DecidableEq, Repr

/-- How many lines a log event takes as text: a line break in its message begins another one. -/
def lineCount (e : LogEvent) : Nat := 1 + e.message.toList.count '\n'

/-- What comes of a program: its output, and the exit code with the message if it ends by
itself. -/
structure Result where
  output : Output
  exit? : Option (Nat × Option String)
  deriving DecidableEq, Repr

/-- What arguments come to that ask for no run. -/
def Ending.result : Ending → Result
  | .help long => ⟨.text (helpText long), some (0, none)⟩
  | .version => ⟨.text versionText, some (0, none)⟩
  | .usage message => ⟨.text "", some (2, some ("error: " ++ message))⟩

/-- The format that the settings ask for. -/
def logFormat (s : Settings) : LogFormat := if Text.lower s.logFormat = "text" then .text else .json

/-- The filter that the environment sets, or else the one for the level of the settings. -/
def logFilter (env : Environment) (s : Settings) : LogFilter :=
  ((env "RUST_LOG").bind LogFilter.ofString?).getD (.ofLevel s.logLevel)

/-- Runs the program with settings: it starts up, and then its supervisor starts. -/
def runWith (env : Environment) (around : Surroundings) (s : Settings) : Result :=
  let write (notices : List Notice) : Output :=
    let admitted := notices.filter fun n => (logFilter env s).admits n.origin n.event
    if admitted = [] then .text "" else .log (logFormat s) (admitted.map Notice.event)
  let failed (message : String) : Option (Nat × Option String) :=
    some (1, some ("Error: " ++ message))
  match Startup.run around s (.ofEnvironment env) with
  | (.error e, notices) => ⟨write notices, failed e.message⟩
  | (.ok _, notices) =>
    let supervisor := Supervisor.start s 0
    let notices := notices ++ supervisor.journal.log.map Origin.supervisor.notice
    match supervisor.stage with
    | .refused message => ⟨write notices, failed message⟩
    | _ => ⟨write notices, none⟩

/-- Runs the program. -/
def run (arguments : List String) (env : Environment) (around : Surroundings) : Result :=
  match parse arguments with
  | .error ending => ending.result
  | .ok overrides => runWith env around ((Settings.ofEnvironment env).override overrides)

end ClusterSync.CommandLine
