import Dialogue.Graph.Basic

/-!
# Documents

A document is the saved form of a graph: one list of records for each kind of node, one list of
properties for each type, and every focus as a number. `Graph.ofDocument` builds the graph and
reports the first record at fault; `Document.ofGraph` groups a graph into a document.
-/

namespace Dialogue

/-! ### Records -/

/-- A saved line with one continuation. Its focus is 0 for none, 1 for the player, 2 for the actor. -/
structure BasicRecord where
  guid : Guid
  text : String
  position : Position
  focusChoice : Int32
deriving DecidableEq

/-- A saved line with options. -/
structure ChoiceRecord where
  guid : Guid
  text : String
  position : Position
  choices : Choices
deriving DecidableEq

/-- A saved branch. -/
structure ConditionRecord where
  guid : Guid
  text : String
  position : Position
  variableName : String
deriving DecidableEq

/-- A saved change of viewpoint. Its focus is 0 for the player and 1 for the actor. -/
structure FocusRecord where
  guid : Guid
  text : String
  position : Position
  focusChoice : Int32
deriving DecidableEq

/-- A saved event. -/
structure EventRecord where
  guid : Guid
  text : String
  position : Position
  eventName : String
deriving DecidableEq

/-- A saved end. It has no text. -/
structure ExitRecord where
  guid : Guid
  position : Position
deriving DecidableEq

/-- A saved property of one type. -/
structure PropertyRecord (α : Type) where
  guid : Guid
  propertyName : String
  value : α
deriving DecidableEq

/-- The saved form of a graph. -/
structure Document where
  entryGuid : Guid
  entryPosition : Position
  basicNodes : List BasicRecord
  choiceNodes : List ChoiceRecord
  conditionNodes : List ConditionRecord
  focusNodes : List FocusRecord
  eventNodes : List EventRecord
  exitNodes : List ExitRecord
  links : List Link
  intProperties : List (PropertyRecord Int32)
  stringProperties : List (PropertyRecord String)
  boolProperties : List (PropertyRecord Bool)
deriving DecidableEq

/-! ### Focus numbers -/

/-- The focus of a line that a number stands for. -/
def FocusTarget.ofLineChoice? (choice : Int32) : Option (Option FocusTarget) :=
  if choice = 0 then some none
  else if choice = 1 then some (some .player)
  else if choice = 2 then some (some .actor)
  else none

def FocusTarget.lineChoice : Option FocusTarget → Int32
  | none => 0
  | some .player => 1
  | some .actor => 2

/-- The viewpoint that a number stands for. -/
def FocusTarget.ofChoice? (choice : Int32) : Option FocusTarget :=
  if choice = 0 then some .player
  else if choice = 1 then some .actor
  else none

def FocusTarget.choice : FocusTarget → Int32
  | .player => 0
  | .actor => 1

/-! ### From records to nodes and properties -/

/-- The node of a record, or the fault of its focus number. -/
def BasicRecord.node (r : BasicRecord) : Except GraphError Node :=
  match FocusTarget.ofLineChoice? r.focusChoice with
  | some focus => .ok ⟨r.guid, r.position, r.text, .basic focus⟩
  | none => .error (.invalidFocusChoice r.guid r.focusChoice)

def ChoiceRecord.node (r : ChoiceRecord) : Except GraphError Node :=
  .ok ⟨r.guid, r.position, r.text, .choice r.choices⟩

def ConditionRecord.node (r : ConditionRecord) : Except GraphError Node :=
  .ok ⟨r.guid, r.position, r.text, .condition r.variableName⟩

/-- The node of a record, or the fault of its focus number. -/
def FocusRecord.node (r : FocusRecord) : Except GraphError Node :=
  match FocusTarget.ofChoice? r.focusChoice with
  | some target => .ok ⟨r.guid, r.position, r.text, .focus target⟩
  | none => .error (.invalidFocusChoice r.guid r.focusChoice)

def EventRecord.node (r : EventRecord) : Except GraphError Node :=
  .ok ⟨r.guid, r.position, r.text, .event r.eventName⟩

def ExitRecord.node (r : ExitRecord) : Except GraphError Node :=
  .ok ⟨r.guid, r.position, "", .exit⟩

def PropertyRecord.property {α : Type} (ofValue : α → PropertyValue) (r : PropertyRecord α) :
    Property :=
  ⟨r.guid, r.propertyName, ofValue r.value⟩

namespace Document

/-- The nodes of a document, or the faults of records, in the order they are inserted. -/
def nodes (d : Document) : List (Except GraphError Node) :=
  d.basicNodes.map BasicRecord.node ++ d.choiceNodes.map ChoiceRecord.node ++
    d.conditionNodes.map ConditionRecord.node ++ d.focusNodes.map FocusRecord.node ++
    d.eventNodes.map EventRecord.node ++ d.exitNodes.map ExitRecord.node

/-- The properties of a document: integers, then texts, then truth values. -/
def properties (d : Document) : List Property :=
  d.intProperties.map (PropertyRecord.property .int) ++
    d.stringProperties.map (PropertyRecord.property .string) ++
    d.boolProperties.map (PropertyRecord.property .bool)

end Document

/-- Inserts nodes in order, up to the first fault of a record or of an insertion. -/
def Graph.insertNodes (g : Graph) : List (Except GraphError Node) → Except GraphError Graph
  | [] => .ok g
  | .error e :: _ => .error e
  | .ok n :: ns =>
    match g.insertNode n with
    | .error e => .error e
    | .ok g' => g'.insertNodes ns

/-- The graph of a document, under a given id. -/
def Graph.ofDocument (id : GraphId) (d : Document) : Except GraphError Graph :=
  if d.entryGuid.text = "" then .error .missingEntry
  else
    match ((Graph.new id d.entryGuid).withEntryPosition d.entryPosition).insertNodes d.nodes with
    | .error e => .error e
    | .ok g => .ok { g with links := d.links, properties := d.properties }

/-! ### From nodes and properties to records -/

namespace Node

def basicRecord? (n : Node) : Option BasicRecord :=
  match n.kind with
  | .basic focus => some ⟨n.guid, n.text, n.position, FocusTarget.lineChoice focus⟩
  | _ => none

def choiceRecord? (n : Node) : Option ChoiceRecord :=
  match n.kind with
  | .choice choices => some ⟨n.guid, n.text, n.position, choices⟩
  | _ => none

def conditionRecord? (n : Node) : Option ConditionRecord :=
  match n.kind with
  | .condition flag => some ⟨n.guid, n.text, n.position, flag⟩
  | _ => none

/-- The record of a change of viewpoint. -/
def focusRecord? (n : Node) : Option FocusRecord :=
  match n.kind with
  | .focus target => some ⟨n.guid, n.text, n.position, target.choice⟩
  | _ => none

def eventRecord? (n : Node) : Option EventRecord :=
  match n.kind with
  | .event name => some ⟨n.guid, n.text, n.position, name⟩
  | _ => none

def exitRecord? (n : Node) : Option ExitRecord :=
  match n.kind with
  | .exit => some ⟨n.guid, n.position⟩
  | _ => none

end Node

/-- The record of a property whose value has the type. -/
def Property.record? {α : Type} (toValue? : PropertyValue → Option α) (p : Property) :
    Option (PropertyRecord α) :=
  (toValue? p.value).map fun v => ⟨p.guid, p.name, v⟩

/-- The document of a graph: its nodes grouped by kind and its properties by type, each group in
order. -/
def Document.ofGraph (g : Graph) : Document where
  entryGuid := g.entryGuid
  entryPosition := g.entryPosition
  basicNodes := g.nodes.filterMap Node.basicRecord?
  choiceNodes := g.nodes.filterMap Node.choiceRecord?
  conditionNodes := g.nodes.filterMap Node.conditionRecord?
  focusNodes := g.nodes.filterMap Node.focusRecord?
  eventNodes := g.nodes.filterMap Node.eventRecord?
  exitNodes := g.nodes.filterMap Node.exitRecord?
  links := g.links
  intProperties := g.properties.filterMap (Property.record? PropertyValue.int?)
  stringProperties := g.properties.filterMap (Property.record? PropertyValue.string?)
  boolProperties := g.properties.filterMap (Property.record? PropertyValue.bool?)

end Dialogue
