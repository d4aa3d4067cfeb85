import Dialogue.Toml.Scalar

/-!
# TOML tables

A table is made by its header, in passing by a longer header, or by a dotted key. What made it says
how it may be extended: a header may define a table that was only passed, once; a dotted key goes
through no table that a header or braces define, and puts its value only into a table that dotted
keys made, or right where it stands.
-/

namespace Dialogue.Toml

/-- What made a table. -/
inductive Origin where
  /-- Its own header or braces, or the start of the document. -/
  | defined
  /-- A longer header. -/
  | passed
  /-- A dotted key. -/
  | dotted
deriving DecidableEq

/-- What a key stands for. -/
inductive Item where
  | string (s : String)
  | scalar (s : Scalar)
  | array (items : List Item)
  /-- A table, within braces or made by headers. -/
  | table (braced : Bool) (origin : Origin) (entries : List (String × Item))
  /-- The tables made by one doubled header, the latest last. -/
  | tables (elements : List (List (String × Item)))

/-- The contents of a table. -/
abbrev Entries := List (String × Item)

namespace Entries

/-- The entries with an item under a key, in place of the one there or at the end. -/
def put (es : Entries) (key : String) (item : Item) : Entries :=
  if es.any fun e => e.1 = key then es.map fun e => if e.1 = key then (key, item) else e
  else es ++ [(key, item)]

/-- The entries after a change to the table that a path leads to. Tables on the way are made when
they are missing. A header goes on into the latest of several tables and through any table that is
not in braces; a dotted key goes through no defined table. -/
def within (braced byDots : Bool) (change : Origin → Entries → Option Entries) :
    List String → Origin → Entries → Option Entries
  | [], origin, es => change origin es
  | key :: path, _, es =>
    match es.lookup key with
    | none =>
      let origin := if byDots then .dotted else .passed
      (within braced byDots change path origin []).map fun sub =>
        es.put key (.table braced origin sub)
    | some (.table b origin sub) =>
      if b ≠ braced ∨ (byDots ∧ origin = .defined) then none
      else
        (within braced byDots change path origin sub).map fun sub =>
          es.put key (.table braced origin sub)
    | some (.tables elements) =>
      if braced then none
      else
        (within braced byDots change path .defined (elements.getLast?.getD [])).map fun sub =>
          es.put key (.tables (elements.dropLast ++ [sub]))
    | some _ => none

/-- The entries with an item under a dotted key, which must be new. -/
def assign (braced : Bool) (es : Entries) (key : List String × Item) : Option Entries :=
  match key.1.getLast? with
  | none => none
  | some last =>
    let path := key.1.dropLast
    within braced true
      (fun origin sub =>
        if (origin = .dotted ↔ path = []) then none
        else if sub.any fun e => e.1 = last then none
        else some (sub ++ [(last, key.2)]))
      path .defined es

/-- The entries with items under dotted keys, in order. -/
def assignAll (braced : Bool) (es : Entries) (keys : List (List String × Item)) : Option Entries :=
  keys.foldlM (assign braced) es

end Entries

/-! ### Documents -/

/-- A header: its path, and whether it is doubled. -/
structure Header where
  doubled : Bool
  path : List String

/-- A header with the assignments up to the next one. -/
structure Section where
  header : Header
  lines : List (List String × Item)

namespace Section

/-- The table that a section makes at the last key of its path: a new one, or one that was only
passed and is now defined. A doubled header adds a table to those already there. -/
def define (s : Section) (last : String) (es : Entries) : Option Entries :=
  if s.header.doubled then do
    let body ← Entries.assignAll false [] s.lines
    match es.lookup last with
    | none => some (es.put last (.tables [body]))
    | some (.tables elements) => some (es.put last (.tables (elements ++ [body])))
    | some _ => none
  else do
    let start ← match es.lookup last with
      | none => some []
      | some (.table false .passed sub) => some sub
      | some _ => none
    let body ← Entries.assignAll false start s.lines
    some (es.put last (.table false .defined body))

def addTo (root : Entries) (s : Section) : Option Entries :=
  match s.header.path.getLast? with
  | none => none
  | some last =>
    Entries.within false false (fun _ es => s.define last es) s.header.path.dropLast .defined root

end Section

end Dialogue.Toml
