import Dialogue.Node

/-!
# What can be wrong with a graph

Failures of loading, building and checking a graph, and their wording.
-/

namespace Dialogue

/-- A directed edge from an output port of one node to another node. -/
structure Link where
  outNode : Guid
  inNode : Guid
  port : PortIndex
deriving DecidableEq, Inhabited

/-- Why a graph is refused. -/
inductive GraphError where
  /-- The text is no document of a graph. -/
  | malformed
  /-- The file cannot be read as text. -/
  | unreadable
  /-- The document names no start. -/
  | missingEntry
  /-- A node would be a second start. -/
  | multipleEntries (node : Guid)
  /-- Two nodes share a guid. -/
  | duplicateGuid (node : Guid)
  /-- An end of a link is no node of the graph. -/
  | danglingLink (link : Link)
  /-- A port has two links. -/
  | duplicatePort (node : Guid) (port : PortIndex)
  /-- The number of a focus stands for none. -/
  | invalidFocusChoice (node : Guid) (choice : Int32)
deriving DecidableEq

def GraphError.message : GraphError → String
  | malformed => "graph text is not a graph document"
  | unreadable => "graph file cannot be read"
  | missingEntry => "graph has no entry node guid"
  | multipleEntries node => "node " ++ node.text ++ " would be a second entry node"
  | duplicateGuid node => "node guid " ++ node.text ++ " is used more than once"
  | danglingLink link =>
    "link " ++ link.outNode.text ++ " -> " ++ link.inNode.text ++ " (port " ++
      toString link.port.toNat ++ ") references a node that does not exist"
  | duplicatePort node port =>
    "node " ++ node.text ++ " has more than one link on port " ++ toString port.toNat
  | invalidFocusChoice node choice =>
    "node " ++ node.text ++ " has invalid focus choice " ++ toString choice.toInt

/-- A graph failure as it is shown to a developer. -/
def GraphError.debugText : GraphError → String
  | malformed => "Json(" ++ Text.quoted malformed.message ++ ")"
  | unreadable => "Io(" ++ Text.quoted unreadable.message ++ ")"
  | missingEntry => "MissingEntry"
  | multipleEntries node => "MultipleEntries(" ++ node.debugText ++ ")"
  | duplicateGuid node => "DuplicateGuid(" ++ node.debugText ++ ")"
  | danglingLink link =>
    "DanglingLink \x7b out_node: " ++ link.outNode.debugText ++ ", in_node: " ++
      link.inNode.debugText ++ ", port: " ++ toString link.port.toNat ++ " \x7d"
  | duplicatePort node port =>
    "DuplicatePortBinding \x7b node: " ++ node.debugText ++ ", port: " ++ toString port.toNat ++
      " \x7d"
  | invalidFocusChoice node choice =>
    "InvalidFocusChoice \x7b node: " ++ node.debugText ++ ", choice: " ++ toString choice.toInt ++
      " \x7d"

end Dialogue
