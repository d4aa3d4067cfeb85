import Dialogue.Scope

/-!
# Listeners

Every registered listener hears every event, in the order of registration; one that waits for a
certain event does nothing at others. What a listener reports is remembered with the event, for its
own later use and that of others. Listeners are told apart by their key, and the registry holds each
key at most once.
-/

namespace Dialogue

/-- One who reacts to events by reading and writing properties. -/
structure Listener where
  key : String
  /-- The only event that the listener reacts to, if it is particular. -/
  only : Option String
  handler : String → Script (List Outcome)

/-- Whether a listener reacts to an event. -/
def Listener.hears (l : Listener) (event : String) : Bool :=
  match l.only with
  | none => true
  | some name => event = name

/-- The registered listeners, in order. -/
structure Registry where
  listeners : List Listener

namespace Registry

def empty : Registry := ⟨[]⟩

/-- Whether a listener with a key is registered. -/
def contains (r : Registry) (key : String) : Bool := r.listeners.any fun l => l.key = key

/-- Registers a listener after the others, and tells whether it was new. -/
def register (r : Registry) (l : Listener) : Bool × Registry :=
  if r.contains l.key then (false, r) else (true, ⟨r.listeners ++ [l]⟩)

/-- Removes a listener, and tells whether it was there. -/
def deregister (r : Registry) (key : String) : Bool × Registry :=
  (r.contains key, ⟨r.listeners.filter fun l => l.key ≠ key⟩)

/-- A registry as it is shown to a developer. -/
def debugText (r : Registry) : String :=
  "EventDispatcher \x7b listeners: " ++ toString r.listeners.length ++ " \x7d"

def handle (event : String) (s : Scope) (l : Listener) : Scope :=
  if l.hears event then
    let (report, s) := (l.handler event).run s
    { s with journal := .handled l.key event report :: s.journal }
  else s

/-- Tells an event to every listener in order. -/
def dispatch (r : Registry) (event : String) (s : Scope) : Scope :=
  r.listeners.foldl (handle event) s

end Registry

end Dialogue
