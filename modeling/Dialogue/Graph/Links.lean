import Dialogue.Graph.Basic

/-!
# Following and checking links

Following a port takes the first link declared on it and then looks for its target; a link to
nowhere leads nowhere. Checking goes through the links in order and reports the first one that has
a missing end or binds a port once more.
-/

namespace Dialogue.Graph

/-- The node that a port of a node leads to. -/
def next? (g : Graph) (current : Guid) (port : PortIndex) : Option Node :=
  ((g.outgoing current).find? fun l => l.port = port).bind fun l => g.node? l.inNode

/-- Whether both ends of a link are nodes. -/
def resolves (g : Graph) (l : Link) : Bool := g.contains l.outNode && g.contains l.inNode

/-- Checks links in order against the ports bound so far. -/
def checkLinks (g : Graph) (bound : List (Guid × PortIndex)) : List Link → Except GraphError Unit
  | [] => .ok ()
  | l :: ls =>
    if !g.resolves l then .error (.danglingLink l)
    else if (l.outNode, l.port) ∈ bound then .error (.duplicatePort l.outNode l.port)
    else checkLinks g ((l.outNode, l.port) :: bound) ls

/-- Checks that every link resolves and no port is bound twice. -/
def validate (g : Graph) : Except GraphError Unit := g.checkLinks [] g.links

end Dialogue.Graph
