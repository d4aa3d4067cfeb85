import Dialogue.Guid
import Dialogue.Choices
import Dialogue.Binary.Single

/-!
# Nodes

A node is one step of a dialogue. Its kind says what happens there: the start, a line with one
continuation, a line with options, a branch on a truth value, a change of viewpoint, an event for
listeners, or the end. Its position only serves the editor.
-/

namespace Dialogue

/-- Where a node is drawn in the editor. -/
structure Position where
  x : Binary.Single
  y : Binary.Single
deriving DecidableEq, Inhabited

def Position.origin : Position := ⟨.zero, .zero⟩

/-- Whom the viewpoint turns to. -/
inductive FocusTarget where
  | player
  | actor
deriving DecidableEq, Inhabited, Repr

/-- What a node does. -/
inductive NodeKind where
  /-- The start of a dialogue. -/
  | entry
  /-- A line with one continuation. -/
  | basic (focus : Option FocusTarget)
  /-- A line with options. -/
  | choice (choices : Choices)
  /-- A branch on a truth value. -/
  | condition (flag : String)
  /-- A change of viewpoint. -/
  | focus (target : FocusTarget)
  /-- An event told to every listener. -/
  | event (name : String)
  /-- The end of a dialogue. -/
  | exit
deriving DecidableEq, Inhabited

def NodeKind.name : NodeKind → String
  | entry => "entry"
  | basic _ => "basic"
  | choice _ => "choice"
  | condition _ => "condition"
  | focus _ => "focus"
  | event _ => "event"
  | exit => "exit"

/-- A step of a dialogue. -/
structure Node where
  guid : Guid
  position : Position
  text : String
  kind : NodeKind
deriving DecidableEq, Inhabited

namespace Node

def ofKind (guid : Guid) (text : String) (kind : NodeKind) : Node := ⟨guid, .origin, text, kind⟩

def isEntry (n : Node) : Bool :=
  match n.kind with
  | .entry => true
  | _ => false

/-- Gives a basic node a focus; other nodes stay as they are. -/
def withFocus (n : Node) (target : FocusTarget) : Node :=
  match n.kind with
  | .basic _ => { n with kind := .basic (some target) }
  | _ => n

end Node

/-- The output of a branch whose variable is true. -/
def portTrue : PortIndex := 0

/-- The output of a branch whose variable is false. -/
def portFalse : PortIndex := 1

end Dialogue
