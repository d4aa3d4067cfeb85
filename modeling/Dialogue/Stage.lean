import Dialogue.Config
import Dialogue.Graph.Links
import Dialogue.Listener

/-!
# The stage

A stage owns the blackboard, the listeners and the one running session. A session moves from node to
node: it follows the link on the chosen port, acts on the node it comes to, and goes on by itself
through events, changes of viewpoint and branches until a line waits for the player, the dialogue
ends, or something is wrong. All that happens goes into the journal.
-/

namespace Dialogue

/-- The settings, the registered graphs and listeners, the running session, and the journal. -/
structure Stage where
  config : Config
  blackboard : Blackboard
  registry : Registry
  session : Option Session
  journal : Journal

namespace Stage

/-- A stage on which nothing has happened. -/
def new (config : Config) : Stage := ⟨config, .empty, .empty, none, []⟩

/-! ### Looking -/

def state (st : Stage) : SessionState :=
  match st.session with
  | none => .idle
  | some s => s.state

def isRunning (st : Stage) : Bool := st.session.isSome

def activeGraph? (st : Stage) : Option GraphId := st.session.map Session.graph

/-- The node that the session has reached. -/
def currentNode? (st : Stage) : Option Guid := st.session.map Session.cursor

/-- The line that waits for the player. -/
def presentation? (st : Stage) : Option Presentation := st.session.bind Session.presentation

/-! ### Telling the host -/

def record (st : Stage) (e : Entry) : Stage := { st with journal := e :: st.journal }

def tell (st : Stage) (n : Notice) : Stage := st.record (.told n)

/-- Turns the viewpoint, if the settings ask for it and the actor, if meant, is there. -/
def focus (st : Stage) (actor : Option Actor) (target : FocusTarget) : Stage :=
  if !st.config.focusOnActor then st
  else if target = .actor ∧ actor = none then st
  else st.tell (.focused target actor)

def shownName (config : Config) (actor : Option Actor) : Option String :=
  if config.displayActorNames then actor.map Actor.name else none

/-! ### Moving on -/

/-- What acting on a node comes to. -/
inductive Verdict where
  /-- Go on through a port. -/
  | advance (port : PortIndex)
  /-- Wait for the player. -/
  | pause
  /-- The dialogue is over. -/
  | finish
  /-- The session cannot go on. -/
  | fail (error : SessionError)
deriving DecidableEq

def present (st : Stage) (s : Session) (n : Node) (options : List PresentedOption) :
    Stage × Session × Verdict :=
  let line : Presentation := ⟨n.guid, s.template.render n.text, options, shownName st.config s.actor⟩
  (st.tell (.presented line),
    { s with presentation := some line, state := .awaitingInput }, .pause)

/-- Tells an event to the listeners, whose writes reach the session's template. -/
def dispatch (st : Stage) (s : Session) (event : String) : Stage × Session :=
  let scope := st.registry.dispatch event ⟨st.blackboard, some (s.graph, s.template), st.journal⟩
  ({ st with blackboard := scope.blackboard, journal := scope.journal },
    { s with template := (scope.active.map Prod.snd).getD s.template })

/-- Acts on the node that a session has come to. -/
def act (st : Stage) (s : Session) (n : Node) : Stage × Session × Verdict :=
  match n.kind with
  | .exit => (st, s, .finish)
  | .entry => (st, s, .advance 0)
  | .event name =>
    let (st, s) := st.dispatch s name
    (st, s, .advance 0)
  | .focus target => (st.focus s.actor target, s, .advance 0)
  | .condition flag =>
    match s.template.check flag with
    | .true => (st, s, .advance portTrue)
    | .false => (st, s, .advance portFalse)
    | .unknown => (st, s, .fail (.unknownCondition n.guid flag))
  | .basic target =>
    let st := match target with
      | some target => st.focus s.actor target
      | none => st
    st.present s n [⟨0, st.config.continueLabel⟩]
  | .choice choices => st.present s n (choices.entries.map fun e => ⟨e.1, e.2⟩)

/-- The node that a port of the session's node leads to. -/
def ahead? (st : Stage) (s : Session) (port : PortIndex) : Option Node :=
  (st.blackboard.graph? s.graph).bind fun g => g.next? s.cursor port

/-- Follows a port to a node and acts on it. Where nothing is connected the dialogue is over. -/
def step (st : Stage) (s : Session) (port : PortIndex) : Stage × Session × Verdict :=
  match st.ahead? s port with
  | none => (st, s, .finish)
  | some n => (st.record (.entered n.guid)).act { s with cursor := n.guid } n

/-! ### Ending -/

/-- Ends a session: the host restores its viewpoint, if the settings ask for it, and learns that
the session is over. -/
def close (st : Stage) (s : Session) : Stage :=
  let st := if st.config.restoreViewpointOnExit then st.tell .restored else st
  { st.tell (.ended s.graph) with session := none }

/-- Ends a session because of a failure that the host is told first. -/
def abort (st : Stage) (s : Session) (e : SessionError) : Stage := (st.tell (.failed e)).close s

/-! ### Running -/

/-- Moves a session on until it pauses, ends or fails. It may pass `budget` more nodes; `limit` is
the number that it could pass at first. -/
def advance (limit : Nat) (budget : Nat) (st : Stage) (s : Session) (port : PortIndex) :
    Except SessionError SessionState × Stage :=
  match st.step s port with
  | (st, s, .pause) => (.ok .awaitingInput, { st with session := some s })
  | (st, s, .finish) => (.ok .ended, st.close s)
  | (st, s, .fail e) => (.error e, st.abort s e)
  | (st, s, .advance port) =>
    match budget with
    | 0 => (.error (.autoAdvanceLimit limit), st.abort s (.autoAdvanceLimit limit))
    | budget + 1 => advance limit budget st s port

/-- Moves a session on within the limit of the settings. -/
def resume (st : Stage) (s : Session) (port : PortIndex) :
    Except SessionError SessionState × Stage :=
  st.advance st.config.maxAutoAdvance st.config.maxAutoAdvance { s with state := .active } port

/-! ### Sessions -/

/-- Starts a session on a registered graph and runs it to its first pause. -/
def start (st : Stage) (id : GraphId) (actor : Option Actor) :
    Except SessionError SessionState × Stage :=
  match st.session with
  | some _ => (.error .rejected, st)
  | none =>
    match st.blackboard.graph? id with
    | none => (.error (.graphNotRegistered id), st)
    | some g => ((st.tell .snapshot).tell (.started id)).resume (Session.start g actor) 0

def serve (st : Stage) (server : Server) : Except SessionError SessionState × Stage :=
  st.start server.graph server.actor

/-- Takes the player's choice of a port. A port that is not offered changes nothing. -/
def select (st : Stage) (port : PortIndex) : Except SessionError SessionState × Stage :=
  match st.session with
  | none => (.ok .idle, st)
  | some s =>
    if s.state ≠ .awaitingInput then (.ok s.state, st)
    else if s.presentation.any fun p => !p.offers port then (.ok .awaitingInput, st)
    else st.resume { s with presentation := none } port

def stop (st : Stage) : Stage :=
  match st.session with
  | none => st
  | some s => st.close s

/-! ### Graphs, listeners and properties -/

/-- Registers a graph. Strict settings refuse one whose links are not in order. -/
def register (st : Stage) (g : Graph) : Except GraphError GraphId × Stage :=
  let accept := (.ok g.id, { st with blackboard := st.blackboard.register g })
  if st.config.strictLinks then
    match g.validate with
    | .error e => (.error e, st)
    | .ok () => accept
  else accept

/-- Takes a graph off the blackboard. A session on it is ended first. -/
def unregister (st : Stage) (id : GraphId) : Option Graph × Stage :=
  let st := if st.activeGraph? = some id then st.stop else st
  let (g, b) := st.blackboard.unregister id
  (g, { st with blackboard := b })

/-- Registers a listener, and tells whether it was new. -/
def listen (st : Stage) (l : Listener) : Bool × Stage :=
  let (isNew, r) := st.registry.register l
  (isNew, { st with registry := r })

/-- Removes a listener, and tells whether it was there. -/
def unlisten (st : Stage) (key : String) : Bool × Stage :=
  let (wasThere, r) := st.registry.deregister key
  (wasThere, { st with registry := r })

/-- The properties, with the template of the session. -/
def scope (st : Stage) : Scope :=
  ⟨st.blackboard, st.session.map fun s => (s.graph, s.template), st.journal⟩

/-- The stage after its scope was worked on. -/
def withScope (st : Stage) (sc : Scope) : Stage :=
  { st with
    blackboard := sc.blackboard
    journal := sc.journal
    session := st.session.map fun s =>
      { s with template := (sc.active.map Prod.snd).getD s.template } }

def perform {α : Type} (st : Stage) (p : Script α) : α × Stage :=
  let (a, sc) := p.run st.scope
  (a, st.withScope sc)

def set (st : Stage) (name : String) (v : PropertyValue) : Except PropertyError Unit × Stage :=
  st.perform (.set name v .done)

end Stage

end Dialogue
