import ClusterSync.Controller.Lifecycle

/-!
# Roll call

Whether all controllers got to run. They are asked one after the other, each as soon as it is
settled how its start went; a controller that has gone without a word counts as one that does not
run. The roll call goes on to the end even if the outcome is certain before.
-/

namespace ClusterSync

/-- What a controller shows of itself: its state, and whether it is gone, so that the state will
not change any more. -/
structure Showing where
  state : ControllerState
  gone : Bool
  deriving DecidableEq, Repr

/-- A roll call: how many controllers have answered and whether all of them run. -/
structure RollCall where
  answered : Nat
  allRunning : Bool
  deriving DecidableEq, Repr

namespace RollCall

def initial : RollCall := ⟨0, true⟩

/-- What is reported of a controller that does not run. -/
def notRunning : LogEvent := .warn "Controller did not reach Running"

/-- What is reported of a controller that is gone without a word. -/
def silent : LogEvent := .warn "Controller exited before reporting its state"

/-- A controller's answer: whether it runs and, if it does not, the report of that. There is none
as long as its start is not settled. -/
def answer? (s : Showing) : Option (Bool × List LogEvent) :=
  if s.state = .running then some (true, [])
  else if s.state.isSettled then some (false, [notRunning])
  else if s.gone then some (false, [silent])
  else none

/-- Takes the next answer, if there is one. -/
def next? (r : RollCall) (showings : List Showing) : Option (RollCall × List LogEvent) := do
  let s ← showings[r.answered]?
  let (running, events) ← answer? s
  return (⟨r.answered + 1, r.allRunning && running⟩, events)

/-- The outcome, once all have answered. -/
def outcome? (r : RollCall) (showings : List Showing) : Option Bool :=
  if showings.length ≤ r.answered then some r.allRunning else none

/-- Takes all the answers that there are, at most `n` of them. -/
def takeAnswers (showings : List Showing) : Nat → RollCall → RollCall × List LogEvent
  | 0, r => (r, [])
  | n + 1, r =>
    match r.next? showings with
    | none => (r, [])
    | some (r, events) =>
      let (r, more) := takeAnswers showings n r
      (r, events ++ more)

/-- Takes all the answers that there are. -/
def proceed (r : RollCall) (showings : List Showing) : RollCall × List LogEvent :=
  takeAnswers showings (showings.length - r.answered) r

end RollCall

end ClusterSync
