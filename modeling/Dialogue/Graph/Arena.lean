import Dialogue.Interchange.Document

/-!
# Graphs in an arena

While a graph is built all its nodes are kept in one table, the start among them, with an index from
guids to places in the table, so that a node is found without a search. Looking up a node trusts the
index: a guid that has to have a place and has none, and a place at which there is no node, are
faults. `Arena.graph` is the graph that an arena holds.
-/

namespace Dialogue

/-- The text of a graph, indented or compact. -/
def Graph.text (g : Graph) (indented : Bool) : String :=
  if indented then g.prettyText else g.compactText

/-- A graph that is laid out for access by guid. -/
structure Arena where
  id : GraphId
  entryGuid : Guid
  /-- Every node, in the order of insertion. -/
  nodes : List Node
  /-- The places of guids among the nodes; the first entry of a guid counts. -/
  index : List (Guid × Nat)
  links : List Link
  properties : List Property
deriving DecidableEq, Inhabited

namespace Arena

/-- An access that trusts the index in vain. -/
inductive Fault where
  /-- The index has no place for a guid. -/
  | unindexed (guid : Guid)
  /-- There is no node at a place. -/
  | outOfRange (place : Nat)
deriving DecidableEq

/-! ### Looking -/

def nodeCount (a : Arena) : Nat := a.nodes.length

/-- The place that the index has for a guid. -/
def place? (a : Arena) (guid : Guid) : Option Nat := a.index.lookup guid

def contains (a : Arena) (guid : Guid) : Bool := (a.place? guid).isSome

def nodeAt (a : Arena) (place : Nat) : Except Fault Node :=
  match a.nodes[place]? with
  | some n => .ok n
  | none => .error (.outOfRange place)

/-- The node of a guid, if the index has a place for it. -/
def node (a : Arena) (guid : Guid) : Except Fault (Option Node) :=
  match a.place? guid with
  | some place => (a.nodeAt place).map some
  | none => .ok none

/-- The place of the start, which always has to have one. -/
def entryPlace (a : Arena) : Except Fault Nat :=
  match a.place? a.entryGuid with
  | some place => .ok place
  | none => .error (.unindexed a.entryGuid)

def entry (a : Arena) : Except Fault Node := a.entryPlace.bind a.nodeAt

/-- The graph that an arena holds. -/
def graph (a : Arena) : Except Fault Graph :=
  a.entry.map fun e => ⟨a.id, a.entryGuid, e.position, a.nodes.tail, a.links, a.properties⟩

/-! ### Building -/

/-- A start alone, at the first place. -/
def new (id : GraphId) (entryGuid : Guid) : Arena where
  id := id
  entryGuid := entryGuid
  nodes := [.ofKind entryGuid "" .entry]
  index := [(entryGuid, 0)]
  links := []
  properties := []

def withEntryPosition (a : Arena) (p : Position) : Except Fault Arena :=
  a.entryPlace.bind fun place => (a.nodeAt place).map fun n =>
    { a with nodes := a.nodes.set place { n with position := p } }

/-- Adds a node at the end of the table, and its place to the index. A second start is refused
first, then a guid that has a place. -/
def insertNode (a : Arena) (n : Node) : Except GraphError Unit × Arena :=
  if n.isEntry then (.error (.multipleEntries n.guid), a)
  else if a.contains n.guid then (.error (.duplicateGuid n.guid), a)
  else (.ok (), { a with index := (n.guid, a.nodes.length) :: a.index, nodes := a.nodes ++ [n] })

/-- Adds a node, or leaves the arena as it is when the node is refused. -/
def withNode (a : Arena) (n : Node) : Arena := (a.insertNode n).2

def addLink (a : Arena) (l : Link) : Arena := { a with links := a.links ++ [l] }

def addProperty (a : Arena) (p : Property) : Arena := { a with properties := a.properties ++ [p] }

/-- Writes another property over the one at a place. -/
def setPropertyAt (a : Arena) (i : Nat) (p : Property) : Arena :=
  { a with properties := a.properties.set i p }

/-- Gives the property at a place a new value, of any kind. -/
def setValueAt (a : Arena) (i : Nat) (v : PropertyValue) : Arena :=
  { a with properties := a.properties.modify i fun p => { p with value := v } }

/-! ### Loading -/

/-- Inserts nodes in order, up to the first fault of a record or of an insertion. -/
def insertNodes (a : Arena) : List (Except GraphError Node) → Except GraphError Arena
  | [] => .ok a
  | .error e :: _ => .error e
  | .ok n :: ns =>
    match a.insertNode n with
    | (.error e, _) => .error e
    | (.ok (), a) => a.insertNodes ns

/-- The arena of a document, under a given id. -/
def ofDocument (id : GraphId) (d : Document) : Except Fault (Except GraphError Arena) :=
  if d.entryGuid.text = "" then .ok (.error .missingEntry)
  else
    ((new id d.entryGuid).withEntryPosition d.entryPosition).map fun a =>
      (a.insertNodes d.nodes).map fun a => d.properties.foldl addProperty (d.links.foldl addLink a)

/-- The arena that a text holds, under a given id. -/
def ofText (id : GraphId) (s : String) : Except Fault (Except GraphError Arena) :=
  match (Json.Codec.ofText? s : Option Document) with
  | none => .ok (.error .malformed)
  | some d => ofDocument id d

/-- What comes of writing an arena as a text and loading it again. -/
def reloaded (a : Arena) (indented : Bool) (id : GraphId) :
    Except Fault (Except GraphError Arena) :=
  a.graph.bind fun g => ofText id (g.text indented)

end Arena

end Dialogue
