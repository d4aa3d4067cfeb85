import Dialogue.Graph.Basic

/-!
# The blackboard

The blackboard holds the registered graphs in order. A property is found by its name alone, over
all of them, and only a name that exactly one property has can be read or written. A write keeps
the kind of the property.
-/

namespace Dialogue

/-- The registered graphs, in the order of registration. -/
structure Blackboard where
  graphs : List Graph
deriving DecidableEq, Inhabited

/-- The graph with the properties of a name set to a value. -/
def Graph.setNamed (g : Graph) (name : String) (v : PropertyValue) : Graph :=
  { g with properties := g.properties.map fun p => if p.name = name then { p with value := v } else p }

namespace Blackboard

/-! ### Registration -/

def empty : Blackboard := ⟨[]⟩

def graph? (b : Blackboard) (id : GraphId) : Option Graph := b.graphs.find? fun g => g.id = id

/-- Whether a graph with an id is registered. -/
def contains (b : Blackboard) (id : GraphId) : Bool := b.graphs.any fun g => g.id = id

/-- Registers a graph after the others; a graph whose id is registered changes nothing. -/
def register (b : Blackboard) (g : Graph) : Blackboard :=
  if b.contains g.id then b else ⟨b.graphs ++ [g]⟩

/-- Takes the graph with an id off the blackboard. -/
def unregister (b : Blackboard) (id : GraphId) : Option Graph × Blackboard :=
  match b.graph? id with
  | some g => (some g, ⟨b.graphs.eraseP fun g => g.id = id⟩)
  | none => (none, b)

/-! ### Properties -/

/-- The properties with a name over all graphs, each with the id of its graph. -/
def named (b : Blackboard) (name : String) : List (GraphId × Property) :=
  b.graphs.flatMap fun g => (g.properties.filter fun p => p.name = name).map fun p => (g.id, p)

/-- The one property with a name, and the graph that owns it. -/
def resolve (b : Blackboard) (name : String) : Except PropertyError (GraphId × Property) :=
  match b.named name with
  | [] => .error (.notFound name)
  | [p] => .ok p
  | ps => .error (.ambiguous name ps.length)

def get (b : Blackboard) (name : String) : Except PropertyError PropertyValue :=
  match b.resolve name with
  | .ok p => .ok p.2.value
  | .error e => .error e

def getInt (b : Blackboard) (name : String) : Except PropertyError Int32 :=
  match b.get name with
  | .ok v => v.expectInt name
  | .error e => .error e

def getString (b : Blackboard) (name : String) : Except PropertyError String :=
  match b.get name with
  | .ok v => v.expectString name
  | .error e => .error e

def getBool (b : Blackboard) (name : String) : Except PropertyError Bool :=
  match b.get name with
  | .ok v => v.expectBool name
  | .error e => .error e

/-- Writes a value under a name; the answer is the owner of the property and the new blackboard. -/
def set (b : Blackboard) (name : String) (v : PropertyValue) :
    Except PropertyError (GraphId × Blackboard) :=
  match b.resolve name with
  | .ok p =>
    if p.2.kind = v.kind then .ok (p.1, ⟨b.graphs.map fun g => g.setNamed name v⟩)
    else .error (.typeMismatch name p.2.kind v.kind)
  | .error e => .error e

end Blackboard

end Dialogue
