import Dialogue.Player

/-!
# The command line

`play GRAPH` plays a dialogue and `check GRAPH` checks one. Both take `--config FILE`; playing also
takes `--with FILE` for each further graph and `--actor NAME`.
-/

namespace Dialogue.CommandLine

/-- What a command line asks for. -/
structure Request where
  config : Option String := none
  graph : Option String := none
  extras : List String := []
  actor : String := "Stranger"

/-- The value of an option written in one word with its name. -/
def joined? (name word : String) : Option String :=
  let cs := (name ++ "=").toList
  if cs.isPrefixOf word.toList then some (String.ofList (word.toList.drop cs.length)) else none

/-- The request of the words after the command. -/
def Request.ofWords? (r : Request) : List String → Option Request
  | [] => some r
  | "--config" :: file :: ws => { r with config := some file }.ofWords? ws
  | "--with" :: file :: ws => { r with extras := r.extras ++ [file] }.ofWords? ws
  | "--actor" :: name :: ws => { r with actor := name }.ofWords? ws
  | w :: ws =>
    match joined? "--config" w, joined? "--with" w, joined? "--actor" w with
    | some file, _, _ => { r with config := some file }.ofWords? ws
    | none, some file, _ => { r with extras := r.extras ++ [file] }.ofWords? ws
    | none, none, some name => { r with actor := name }.ofWords? ws
    | none, none, none =>
      if w.startsWith "-" || r.graph.isSome then none
      else { r with graph := some w }.ofWords? ws

def contents (path : String) : IO Player.Contents := do
  try return some (← IO.FS.readBinFile path) catch _ => return none

def print (out : List Output) : IO Unit := do
  for o in out do
    match o with
    | .shown s => IO.print s
    | .complaint s => IO.eprint s
  (← IO.getStdout).flush

/-- Feeds typed lines to a player until the dialogue is over. -/
partial def converse (input : IO.FS.Stream) : Player → IO Bool
  | .finished _ success => return success
  | p => do
    let line ← input.getLine
    let (out, p) := p.feed (if line.isEmpty then none else some line)
    print out
    converse input p

def refuse (e : Player.FileError) : IO UInt32 := do
  print [e.output]
  return 1

def play (r : Request) (path : String) : IO UInt32 := do
  let config ← r.config.mapM contents
  match Player.startFiles config (← contents path) (← r.extras.mapM contents) r.actor with
  | .error e => refuse e
  | .ok (out, p) =>
    print out
    return if ← converse (← IO.getStdin) p then 0 else 1

def check (r : Request) (path : String) : IO UInt32 := do
  let config ← r.config.mapM contents
  match Player.checkFiles config path (← contents path) with
  | .error e => refuse e
  | .ok (out, success) =>
    print out
    return if success then 0 else 1

def usage : String :=
  "usage: dialogue-demo [--config FILE] play GRAPH [--with FILE]... [--actor NAME]\n" ++
    "       dialogue-demo [--config FILE] check GRAPH\n"

/-- Parts a command line into the command and the other words. An option before the command keeps
its value. -/
def command? : List String → Option (String × List String)
  | [] => none
  | "--config" :: file :: ws => (command? ws).map fun c => (c.1, "--config" :: file :: c.2)
  | w :: ws =>
    if w.startsWith "-" then (command? ws).map fun c => (c.1, w :: c.2) else some (w, ws)

end Dialogue.CommandLine

open Dialogue CommandLine in
def main (args : List String) : IO UInt32 := do
  let request := (command? args).bind fun c => (({} : Request).ofWords? c.2).map fun r => (c.1, r)
  match request with
  | some ("play", r) =>
    match r.graph with
    | some path => CommandLine.play r path
    | none => IO.eprint usage; return 2
  | some ("check", r) =>
    match r.graph with
    | some path => CommandLine.check r path
    | none => IO.eprint usage; return 2
  | _ => IO.eprint usage; return 2
