import Dialogue.Interchange.Document
import Dialogue.Interchange.Settings
import Dialogue.Stage
import Dialogue.Text.Lower
import Dialogue.Text.Typed

/-!
# Playing in a terminal

A player runs one dialogue on a stage of its own. Lines and changes of viewpoint are shown as the
host is told of them; the player answers a prompt with the number of an option. What is typed and is
no such number is passed over, and the end of the input ends the dialogue. A check loads a graph,
counts what it holds, and validates its links. Beside the screen there is a log of how sessions go;
a failure that ends the program comes last in it.
-/

namespace Dialogue

/-! ### What is printed -/

/-- A piece of output. -/
inductive Output where
  /-- Shown on the screen. -/
  | shown (text : String)
  /-- Reported among the errors and in the log. -/
  | complaint (text : String)
deriving DecidableEq

/-- An entry of the log: how grave it is, a message, and named values. The names are set off in the
style of terminals, and the values stand as they are, even over several lines. -/
def Output.logged (level message : String) (values : List (String × String)) : Output :=
  .complaint (level ++ " " ++ message ++ String.join (values.map fun v =>
    " \x1b[3m" ++ v.1 ++ "\x1b[0m\x1b[2m=\x1b[0m" ++ v.2) ++ "\n")

/-- The report of a failure that ends the program. -/
def Output.fatal (failure : String) : Output := .complaint ("Error: " ++ failure ++ "\n")

/-- What is printed when the host is told something about a session that has reached a node. -/
def Notice.output (node : Guid) : Notice → List Output
  | .started graph => [.logged "INFO" "dialogue session started" [("graph", graph.text)]]
  | .presented p =>
    let speaker := match p.actorName with
      | some name => name ++ ": "
      | none => ""
    .shown ("\n" ++ speaker ++ p.text ++ "\n") ::
      p.options.map fun o => .shown ("  [" ++ toString o.port.toNat ++ "] " ++ o.label ++ "\n")
  | .focused .actor (some a) => [.shown ("(looking at " ++ a.name ++ ")\n")]
  | .focused _ _ => [.shown "(looking at you)\n"]
  | .failed e =>
    [.logged "ERROR" "dialogue session aborted" [("error", e.message)],
      .complaint ("dialogue aborted: " ++ e.message ++ "\n")]
  | .ended graph =>
    [.logged "INFO" "dialogue session ended" [("graph", graph.text), ("node", node.text)]]
  | _ => []

/-- What is printed for entries of the journal, the earliest first, from a node on. -/
def Entry.outputs : Guid → List Entry → List Output
  | _, [] => []
  | _, .entered node :: es => outputs node es
  | node, .told n :: es => n.output node ++ outputs node es
  | node, _ :: es => outputs node es

/-! ### The player -/

/-- A listener that counts spawned cubes and remembers that the spawner was met. -/
def spawner : Listener where
  key := "spawner"
  only := none
  handler event :=
    match event with
    | "spawn" => Action.scriptOf [.add "CUBE_COUNT" 1]
    | "met_spawner" => Action.scriptOf [.set "MET_SPAWNER" (.bool true)]
    | _ => .done []

/-- A dialogue being played. -/
inductive Player where
  /-- A prompt was shown, and a typed line is awaited. -/
  | waiting (stage : Stage)
  /-- The dialogue is over, as it should be or because of a failure. -/
  | finished (stage : Stage) (success : Bool)

namespace Player

def stage : Player → Stage
  | waiting st => st
  | finished st _ => st

/-- Whether a dialogue is over as it should be. -/
def succeeded : Player → Bool
  | waiting _ => false
  | finished _ success => success

/-- What is printed between two moments of a stage whose session had reached a node at first. -/
def printed (node : Guid) (before after : Stage) : List Output :=
  Entry.outputs node (after.journal.take (after.journal.length - before.journal.length)).reverse

def prompt : Output := .shown "> "

def farewell : Output := .shown "\n(dialogue over)\n"

/-- The node that the session of a stage has reached; a blank when there is none. -/
def reached (st : Stage) : Guid := st.currentNode?.getD ⟨""⟩

/-- The entry of the log for a choice that is not offered. -/
def unoffered (st : Stage) (port : PortIndex) : List Output :=
  match st.presentation? with
  | some p =>
    if p.offers port then []
    else
      [.logged "WARN" "selected port was not offered"
        [("node", p.node.text), ("port", toString port.toNat)]]
  | none => []

/-- The entry of the log for a session that is stopped. -/
def stopped (st : Stage) : List Output :=
  match st.session with
  | some s =>
    [.logged "INFO" "dialogue session stopped by host"
      [("graph", s.graph.text), ("node", s.cursor.text)]]
  | none => []

/-- How a dialogue goes on after a call to its session, which had reached a node before. -/
def after (node : Guid) (before : Stage) (answer : Except SessionError SessionState × Stage) :
    List Output × Player :=
  let out := printed node before answer.2
  match answer.1 with
  | .ok .awaitingInput => (out ++ [prompt], waiting answer.2)
  | .ok _ => (out ++ [farewell], finished answer.2 true)
  | .error e => (out ++ [.fatal ("Session(" ++ e.debugText ++ ")")], finished answer.2 false)

/-- Registers graphs in order, up to the first that is refused. -/
def registerAll (st : Stage) : List Graph → Except GraphError Stage
  | [] => .ok st
  | g :: gs =>
    match st.register g with
    | (.ok _, st) => registerAll st gs
    | (.error e, _) => .error e

/-- The actor with a display name. Its id is the name in lower case. -/
def actorNamed (name : String) : Actor := ⟨.ofList (Text.lower name.toList), some name⟩

/-- Starts a dialogue on a graph beside further graphs. -/
def start (config : Config) (graph : Graph) (extras : List Graph) (actor : String) :
    Except GraphError (List Output × Player) :=
  match registerAll (.new config) (graph :: extras) with
  | .error e => .error e
  | .ok st =>
    let st := (st.listen spawner).2
    .ok (after graph.entryGuid st (st.start graph.id (some (actorNamed actor))))

/-- Takes a typed line, or the end of the input. -/
def feed : Player → Option String → List Output × Player
  | finished st success, _ => ([], finished st success)
  | waiting st, none =>
    (stopped st ++ printed (reached st) st st.stop ++ [farewell], finished st.stop true)
  | waiting st, some line =>
    match Text.word32? (Text.trim line.toList) with
    | none => ([.shown "enter an option number\n", prompt], waiting st)
    | some port =>
      let (out, p) := after (reached st) st (st.select port)
      (unoffered st port ++ out, p)

/-- Takes typed lines in order, then the end of the input. -/
def feedAll (p : Player) : List String → List Output × Player
  | [] => p.feed none
  | line :: lines =>
    let (out, p) := p.feed (some line)
    let (rest, p) := p.feedAll lines
    (out ++ rest, p)

def play (config : Config) (graph : Graph) (extras : List Graph) (actor : String)
    (lines : List String) : Except GraphError (List Output × Player) :=
  match start config graph extras actor with
  | .error e => .error e
  | .ok (out, p) =>
    let (rest, p) := p.feedAll lines
    .ok (out ++ rest, p)

/-! ### Checks -/

/-- What a check of a graph prints, and whether the graph passes. -/
def check (path : String) (g : Graph) : List Output × Bool :=
  let summary := path ++ ": " ++ toString g.nodeCount ++ " nodes, " ++ toString g.links.length ++
    " links, " ++ toString g.properties.length ++ " properties\n"
  match g.validate with
  | .ok () => ([.shown summary, .shown "ok\n"], true)
  | .error e => ([.shown summary, .fatal e.debugText], false)

/-! ### Files -/

/-- Why the files of a command are refused. -/
inductive FileError where
  /-- The settings cannot be read. -/
  | settings (e : ConfigError)
  /-- A graph cannot be read. -/
  | graph (e : GraphError)
  /-- A graph is not accepted on the stage. -/
  | refused (e : GraphError)
deriving DecidableEq

def FileError.output : FileError → Output
  | settings e => .fatal e.debugText
  | graph e => .fatal e.debugText
  | refused e => .fatal ("Graph(" ++ e.debugText ++ ")")

/-- The bytes of a file, or nothing when it cannot be read. -/
abbrev Contents := Option ByteArray

/-- The settings of a command, which are the default ones unless a file is named. -/
def settings (file : Option Contents) : Except FileError Config :=
  match file with
  | none => .ok {}
  | some bytes => (Config.ofFile bytes).mapError .settings

/-- The graph of a file, under a numbered id. -/
def graphOf (number : Nat) (file : Contents) : Except FileError Graph :=
  (Graph.ofFile ⟨BitVec.ofNat 128 number⟩ file).mapError .graph

/-- The graphs of files, under ids numbered from one on. -/
def graphsOf (number : Nat) : List Contents → Except FileError (List Graph)
  | [] => .ok []
  | file :: files => do
    let g ← graphOf number file
    let gs ← graphsOf (number + 1) files
    .ok (g :: gs)

def startFiles (config : Option Contents) (graph : Contents) (extras : List Contents)
    (actor : String) : Except FileError (List Output × Player) := do
  let c ← settings config
  let g ← graphOf 1 graph
  let gs ← graphsOf 2 extras
  (start c g gs actor).mapError .refused

/-- Checks a graph from its file. The settings are read first, though a check does not use them. -/
def checkFiles (config : Option Contents) (path : String) (graph : Contents) :
    Except FileError (List Output × Bool) := do
  let _ ← settings config
  let g ← graphOf 1 graph
  .ok (check path g)

end Player

end Dialogue
