import Dialogue.Json.Codec
import Dialogue.Node
import Dialogue.Property
import Dialogue.Graph.Error

/-!
# JSON forms of nodes and properties

Guids and ids are texts, a position is a pair of coordinates, options are an object whose names are
the ports in decimal, and kinds of nodes and values are enumerations.
-/

namespace Dialogue

open Json

instance : Codec Guid where
  encode g := encode g.text
  decode? v := (decode? v).map Guid.mk

instance : Codec GraphId where
  encode id := encode id.text
  decode? v := (decode? v).bind GraphId.ofText?

instance : Codec Position where
  encode p := .array [encode p.x, encode p.y]
  decode?
    | .array [x, y] => do some ⟨← decode? x, ← decode? y⟩
    | _ => none

/-! ### Options -/

/-- The port that the name of a member writes: a numeral of thirty-two bits without escapes. -/
def portOfName? (name : Literal) : Option PortIndex :=
  ((Literal.unescaped? name).bind Numeral.ofText?).bind fun n => decode? (.number n)

def nameOfPort (port : PortIndex) : Literal := (Numeral.ofInt port.toNat).text.map .plain

/-- The option that a member of an object writes. -/
def optionOfMember? (m : Literal × Value) : Option (PortIndex × String) := do
  some (← portOfName? m.1, ← decode? m.2)

instance : Codec Choices where
  encode cs := .object (cs.entries.map fun e => (nameOfPort e.1, encode e.2))
  decode?
    | .object members => (members.mapM optionOfMember?).map Choices.ofList
    | _ => none

/-! ### Nodes -/

instance : Codec FocusTarget where
  encode
    | .player => .text "Player"
    | .actor => .text "Actor"
  decode? := Value.bareCase? [("Player", .player), ("Actor", .actor)]

/-- The kind of node that a case and its content stand for. -/
def nodeKindOfCase? (name : String) (payload : Option Value) : Option NodeKind :=
  match name with
  | "Entry" => if Value.isBare payload then some .entry else none
  | "Exit" => if Value.isBare payload then some .exit else none
  | "Basic" => do
    let fs ← (← payload).fields? ["focus"]
    some (.basic (← fs.optional "focus"))
  | "Choice" => do
    let fs ← (← payload).fields? ["choices"]
    some (.choice (← fs.required "choices"))
  | "Condition" => do
    let fs ← (← payload).fields? ["variable"]
    some (.condition (← fs.required "variable"))
  | "Focus" => do
    let fs ← (← payload).fields? ["target"]
    some (.focus (← fs.required "target"))
  | "Event" => do
    let fs ← (← payload).fields? ["event_name"]
    some (.event (← fs.required "event_name"))
  | _ => none

instance : Codec NodeKind where
  encode
    | .entry => .text "Entry"
    | .basic focus => .case "Basic" (.record [("focus", encode focus)])
    | .choice choices => .case "Choice" (.record [("choices", encode choices)])
    | .condition flag => .case "Condition" (.record [("variable", encode flag)])
    | .focus target => .case "Focus" (.record [("target", encode target)])
    | .event name => .case "Event" (.record [("event_name", encode name)])
    | .exit => .text "Exit"
  decode? v := v.case?.bind fun c => nodeKindOfCase? c.1 c.2

instance : Codec Node where
  encode n := .record [("guid", encode n.guid), ("position", encode n.position),
    ("text", encode n.text), ("kind", encode n.kind)]
  decode? v := do
    let fs ← v.fields? ["guid", "position", "text", "kind"]
    some ⟨← fs.required "guid", ← fs.required "position", ← fs.required "text",
      ← fs.required "kind"⟩

instance : Codec Link where
  encode l := .record [("outNodeGuid", encode l.outNode), ("inNodeGuid", encode l.inNode),
    ("portIndex", encode l.port)]
  decode? v := do
    let fs ← v.fields? ["outNodeGuid", "inNodeGuid", "portIndex"]
    some ⟨← fs.required "outNodeGuid", ← fs.required "inNodeGuid", ← fs.required "portIndex"⟩

/-! ### Properties -/

instance : Codec PropertyKind where
  encode
    | .int => .text "Int"
    | .string => .text "String"
    | .bool => .text "Bool"
  decode? := Value.bareCase? [("Int", .int), ("String", .string), ("Bool", .bool)]

/-- The property value that a case and its content stand for. -/
def propertyValueOfCase? (name : String) (payload : Option Value) : Option PropertyValue :=
  match name with
  | "Int" => do some (.int (← decode? (← payload)))
  | "String" => do some (.string (← decode? (← payload)))
  | "Bool" => do some (.bool (← decode? (← payload)))
  | _ => none

instance : Codec PropertyValue where
  encode
    | .int i => .case "Int" (encode i)
    | .string s => .case "String" (encode s)
    | .bool b => .case "Bool" (encode b)
  decode? v := v.case?.bind fun c => propertyValueOfCase? c.1 c.2

instance : Codec Property where
  encode p := .record [("guid", encode p.guid), ("name", encode p.name), ("value", encode p.value)]
  decode? v := do
    let fs ← v.fields? ["guid", "name", "value"]
    some ⟨← fs.required "guid", ← fs.required "name", ← fs.required "value"⟩

end Dialogue
