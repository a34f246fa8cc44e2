import ClusterSync.Telemetry.Event
import ClusterSync.Text.Quoted

/-!
# Trouble with the watch

How an error of the watch is reported. What the error is about is told from its text: missing
permissions and a missing resource type are errors, an expired version and everything else are
warnings, since the watch goes on by itself.
-/

namespace ClusterSync.WatchTrouble

/-- The text of an error that the cluster answers. What the answer says stands in it in quotes. -/
def text (code : Nat) (message reason : String) : String :=
  s!"{Text.quoted message} {Text.quoted reason} {code}"

/-- Whether characters stand somewhere in a text, one after the other. -/
def occurs (part : List Char) : List Char → Bool
  | [] => part.isEmpty
  | c :: cs => part.isPrefixOf (c :: cs) || occurs part cs

def mentions (text part : String) : Bool := occurs part.toList text.toList

def mentionsAny (text : String) (parts : List String) : Bool := parts.any (mentions text)

/-- The report of an error of a kind's watch. -/
def report (kind text : String) : LogEvent :=
  let notFound := mentionsAny text ["ObjectNotFound", "404", "not found"]
  let unauthorized := mentionsAny text ["401", "Unauthorized"] && !notFound
  let expired := mentionsAny text ["410", "too old resource version", "Expired", "Gone"]
  if unauthorized then
    ⟨.error, "Watch authentication failed (401 Unauthorized), check the controller's RBAC",
      [("kind", kind), ("error", text)]⟩
  else if expired then
    ⟨.warn, "Watch resource version expired, re-listing", [("kind", kind), ("error_type", "410")]⟩
  else if notFound then
    ⟨.error, "Watched resource type not found (404), is the CRD installed?",
      [("kind", kind), ("error", text)]⟩
  else
    ⟨.warn, "Watch stream error, retrying with backoff", [("kind", kind), ("error", text)]⟩

end ClusterSync.WatchTrouble
