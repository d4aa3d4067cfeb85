import Dialogue.Template

/-!
# Sessions

A session is one running dialogue: the graph it is on, the node it has reached, its template, the
actor it is held with, and the line that waits for the player. The host learns of a session through
notices, in the order in which they are given.
-/

namespace Dialogue

/-! ### Actors and lines -/

/-- The one that a dialogue is held with. -/
structure Actor where
  id : String
  displayName : Option String
deriving DecidableEq, Inhabited

/-- The name shown for an actor: its display name, or else its id. -/
def Actor.name (a : Actor) : String := a.displayName.getD a.id

/-- An option shown to the player. -/
structure PresentedOption where
  port : PortIndex
  label : String
deriving DecidableEq, Inhabited

/-- A rendered line with the options that the player has. -/
structure Presentation where
  node : Guid
  text : String
  options : List PresentedOption
  actorName : Option String
deriving DecidableEq, Inhabited

/-- Whether a port is one of the options. -/
def Presentation.offers (p : Presentation) (port : PortIndex) : Bool :=
  p.options.any fun o => o.port = port

/-- A graph with the actor who speaks it. -/
structure Server where
  graph : GraphId
  actor : Option Actor
deriving DecidableEq, Inhabited

/-! ### States and failures -/

/-- Where a session stands. -/
inductive SessionState where
  /-- There is no session. -/
  | idle
  /-- The session is moving on. -/
  | active
  /-- The session waits for the player. -/
  | awaitingInput
  /-- The session is over. -/
  | ended
deriving DecidableEq, Inhabited, Repr

/-- Why a session was not started, or had to end. -/
inductive SessionError where
  /-- Another session is running. -/
  | rejected
  /-- The graph is not registered. -/
  | graphNotRegistered (graph : GraphId)
  /-- A branch asks for a name that is no truth value of its graph. -/
  | unknownCondition (node : Guid) (flag : String)
  /-- Too many nodes were passed without a pause. -/
  | autoAdvanceLimit (limit : Nat)
deriving DecidableEq

def SessionError.message : SessionError → String
  | rejected => "a dialogue session is already running"
  | graphNotRegistered graph => "graph " ++ graph.text ++ " is not registered with the runtime"
  | unknownCondition node flag =>
    "condition node " ++ node.text ++ " checks '" ++ flag ++
      "', which is not a bool property of its graph"
  | autoAdvanceLimit limit =>
    "more than " ++ toString limit ++ " nodes advanced without pausing for input"

/-- A session failure as it is shown to a developer. -/
def SessionError.debugText : SessionError → String
  | rejected => "SessionRejected"
  | graphNotRegistered graph => "GraphNotRegistered(GraphId(" ++ graph.text ++ "))"
  | unknownCondition node flag =>
    "UnknownConditionVariable \x7b node: " ++ node.debugText ++ ", variable: " ++
      Text.quoted flag ++ " \x7d"
  | autoAdvanceLimit limit => "AutoAdvanceLimit \x7b limit: " ++ toString limit ++ " \x7d"

/-- A running dialogue. -/
structure Session where
  graph : GraphId
  cursor : Guid
  state : SessionState
  template : Template
  actor : Option Actor
  presentation : Option Presentation
deriving DecidableEq, Inhabited

/-- A session that stands at the start of a graph. -/
def Session.start (g : Graph) (actor : Option Actor) : Session :=
  ⟨g.id, g.entryGuid, .active, .ofGraph g, actor, none⟩

/-! ### What is recorded -/

/-- What the host is told. -/
inductive Notice where
  /-- Remember the viewpoint. -/
  | snapshot
  | started (graph : GraphId)
  | presented (line : Presentation)
  | focused (target : FocusTarget) (actor : Option Actor)
  | failed (error : SessionError)
  /-- Go back to the remembered viewpoint. -/
  | restored
  | ended (graph : GraphId)
deriving DecidableEq

/-- What came of one access to a property: the value read, or nothing for a write. -/
abbrev Outcome := Except PropertyError (Option PropertyValue)

/-- An entry of the journal. -/
inductive Entry where
  /-- The host was told something. -/
  | told (notice : Notice)
  /-- A session entered a node. -/
  | entered (node : Guid)
  /-- A value was written to a property of a graph. -/
  | wrote (owner : GraphId) (name : String) (value : PropertyValue)
  /-- A listener handled an event. -/
  | handled (listener : String) (event : String) (report : List Outcome)

/-- What has happened, the latest first. -/
abbrev Journal := List Entry

end Dialogue
