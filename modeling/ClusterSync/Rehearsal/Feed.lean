import ClusterSync.Supervisor.Basic

/-!
# A cluster that follows a script

What the cluster sends to the watch of one kind, and when. Each request for a list is answered by
the next phase of the script: not at all, with an error, or with objects and the news that follow
them one second apart. After the news of a phase that is not the last, the watch is told that its
version has expired and asks again.
-/

namespace ClusterSync.Rehearsal

/-- What a watch hears. -/
inductive News
  | event (e : WatchEvent)
  /-- Something that changes nothing. -/
  | bookmark
  /-- An error, by its text. -/
  | trouble (text : String)

/-- What a script plans for one request for a list. -/
inductive Phase
  | silence
  | refusal (text : String)
  | listing (objects : List WatchedObject) (news : List News)

/-- What comes next. -/
inductive Outlook
  /-- The watch asks for a list; the phases that are left answer. -/
  | asking (phases : List Phase)
  /-- The news that follow a list, and the phases after them. -/
  | telling (news : List News) (later : List Phase)

structure Feed where
  outlook : Outlook
  /-- The instant at which it comes. -/
  due : Nat

namespace Feed

/-- The time between two pieces of news, and the time for which a watch pauses after an error. -/
def interval : Nat := (Duration.ofSecs 1).nanos

/-- A feed that answers its first request at once. -/
def start (now : Nat) (phases : List Phase) : Feed := ⟨.asking phases, now⟩

/-- What the watch is told when its version has expired. -/
def expired : News := .trouble "410 Expired"

/-- What a list amounts to. -/
def listed (objects : List WatchedObject) : List News :=
  .event .listBegins :: objects.map (.event ∘ .listed) ++ [.event .listEnds]

/-- What the watch hears when the feed is due, and what comes after that; none if nothing comes any
more. -/
def next? (f : Feed) : Option (List News × Feed) :=
  let after (pauses : Nat) (outlook : Outlook) : Feed := ⟨outlook, f.due + pauses * interval⟩
  match f.outlook with
  | .asking [] | .asking (.silence :: _) => none
  | .asking (.refusal text :: later) =>
    some ([.trouble text], after 1 (.asking (if later.isEmpty then [.refusal text] else later)))
  | .asking (.listing objects news :: later) => some (listed objects, after 1 (.telling news later))
  | .telling [] [] => none
  | .telling [] later => some ([expired], after 1 (.asking later))
  | .telling (.trouble text :: news) later => some ([.trouble text], after 2 (.telling news later))
  | .telling (n :: news) later => some ([n], after 1 (.telling news later))

end Feed

end ClusterSync.Rehearsal
