import ClusterSync.Supervisor.RollCall

/-!
# Rehearsing a roll call

A roll call of controllers that show whatever they are told to.
-/

namespace ClusterSync.Rehearsal

structure Assembly where
  showings : List Showing
  roll : RollCall
  log : List LogEvent

namespace Assembly

/-- Takes the answers that there are. -/
def proceed (a : Assembly) : Assembly :=
  let (roll, events) := a.roll.proceed a.showings
  { a with roll, log := a.log ++ events }

/-- A roll call that has just begun. -/
def start (states : List ControllerState) : Assembly :=
  proceed ⟨states.map (⟨·, false⟩), .initial, []⟩

/-- A controller shows another state. -/
def enter (a : Assembly) (i : Nat) (state : ControllerState) : Assembly :=
  { a with showings := a.showings.modify i fun s => { s with state } }.proceed

/-- A controller goes. -/
def leave (a : Assembly) (i : Nat) : Assembly :=
  { a with showings := a.showings.modify i fun s => { s with gone := true } }.proceed

/-- The outcome, if there is one. -/
def outcome? (a : Assembly) : Option Bool := a.roll.outcome? a.showings

end Assembly

end ClusterSync.Rehearsal
