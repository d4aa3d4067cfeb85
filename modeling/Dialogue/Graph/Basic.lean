import Dialogue.Graph.Error
import Dialogue.Property

/-!
# Graphs

A graph has one start, further nodes in the order they were inserted, links, and declared
properties. Nodes are found by guid. `Graph.WellFormed` is the law that building keeps: no two
nodes share a guid, and no node but the start is a start.
-/

namespace Dialogue

/-- One dialogue. The start is kept apart from the other nodes. -/
structure Graph where
  id : GraphId
  entryGuid : Guid
  entryPosition : Position
  body : List Node
  links : List Link
  properties : List Property
deriving DecidableEq, Inhabited

namespace Graph

/-! ### Looking -/

def entry (g : Graph) : Node := ⟨g.entryGuid, g.entryPosition, "", .entry⟩

/-- Every node, the start first, then in the order of insertion. -/
def nodes (g : Graph) : List Node := g.entry :: g.body

def nodeCount (g : Graph) : Nat := g.nodes.length

def node? (g : Graph) (guid : Guid) : Option Node := g.nodes.find? fun n => n.guid = guid

def contains (g : Graph) (guid : Guid) : Bool := g.nodes.any fun n => n.guid = guid

/-- The place of a guid among the nodes. -/
def index? (g : Graph) (guid : Guid) : Option Nat := g.nodes.findIdx? fun n => n.guid = guid

/-- The links that leave a node, in the order of declaration. -/
def outgoing (g : Graph) (guid : Guid) : List Link := g.links.filter fun l => l.outNode = guid

def story (g : Graph) : List (String × PropertyValue) := g.properties.map fun p => (p.name, p.value)

/-- The guids of the nodes are distinct, and the start is the only start. -/
structure WellFormed (g : Graph) : Prop where
  distinct : (g.nodes.map Node.guid).Nodup
  oneEntry : ∀ n ∈ g.body, n.isEntry = false

/-! ### Building -/

def new (id : GraphId) (entryGuid : Guid) : Graph := ⟨id, entryGuid, .origin, [], [], []⟩

def withEntryPosition (g : Graph) (p : Position) : Graph := { g with entryPosition := p }

/-- Adds a node after the others. A second start is refused first, then a guid in use. -/
def insertNode (g : Graph) (n : Node) : Except GraphError Graph :=
  if n.isEntry then .error (.multipleEntries n.guid)
  else if g.contains n.guid then .error (.duplicateGuid n.guid)
  else .ok { g with body := g.body ++ [n] }

/-- Adds a node, or leaves the graph as it is when the node is refused. -/
def withNode (g : Graph) (n : Node) : Graph :=
  match g.insertNode n with
  | .ok g' => g'
  | .error _ => g

def addLink (g : Graph) (l : Link) : Graph := { g with links := g.links ++ [l] }

/-- Declares a property after the others. -/
def addProperty (g : Graph) (p : Property) : Graph := { g with properties := g.properties ++ [p] }

/-- Gives the property at a place a new value, of any kind. -/
def setValueAt (g : Graph) (i : Nat) (v : PropertyValue) : Graph :=
  { g with properties := g.properties.modify i fun p => { p with value := v } }

end Graph

end Dialogue
