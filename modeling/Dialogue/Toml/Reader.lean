import Dialogue.Toml.Text
import Dialogue.Toml.Table

/-!
# Reading TOML documents

A document is a sequence of lines: headers, assignments, comments and empty lines. The depth to
which arrays and braces may be nested is bounded, and values are read by recursion on what is left
of it; a sequence goes on as long as each part takes something from the text.
-/

namespace Dialogue.Toml

/-! ### Values -/

/-- The items of an array from the first one on, up to the closing bracket. -/
def items (value? : List Char → Option (Item × List Char)) (cs : List Char) :
    Option (List Item × List Char) :=
  match value? cs with
  | none => none
  | some (v, r) =>
    match dropBreaks r with
    | ']' :: r => some ([v], r)
    | ',' :: r =>
      match dropBreaks r with
      | ']' :: r => some ([v], r)
      | r => if _h : r.length < cs.length then (items value? r).map fun t => (v :: t.1, t.2) else none
    | _ => none
termination_by cs.length

/-- The value of an assignment, from its sign on, and the text after it. -/
def assigned? (value? : List Char → Option (Item × List Char)) :
    List Char → Option (Item × List Char)
  | '=' :: r => value? (dropBlanks r)
  | _ => none

/-- The assignments of a table in braces from the first one on, up to the closing brace. -/
def pairs (value? : List Char → Option (Item × List Char)) (cs : List Char) :
    Option (List (List String × Item) × List Char) :=
  match key? cs with
  | none => none
  | some (k, r) =>
    match assigned? value? r with
    | none => none
    | some (v, r) =>
      match dropBlanks r with
      | '\x7d' :: r => some ([(k, v)], r)
      | ',' :: r =>
        if _h : r.length < cs.length then (pairs value? r).map fun t => ((k, v) :: t.1, t.2) else none
      | _ => none
termination_by cs.length

/-- The value that a text starts with, and the text after it. The number is how deep it may nest. -/
def value? : Nat → List Char → Option (Item × List Char)
  | 0, '[' :: _ => none
  | 0, '\x7b' :: _ => none
  | depth + 1, '[' :: r =>
    match dropBreaks r with
    | ']' :: r => some (.array [], r)
    | r => (items (value? depth) r).map fun t => (.array t.1, t.2)
  | depth + 1, '\x7b' :: r =>
    match dropBlanks r with
    | '\x7d' :: r => some (.table true .defined [], r)
    | r => do
      let (keys, r) ← pairs (value? depth) r
      let es ← Entries.assignAll true [] keys
      some (.table true .defined es, r)
  | _, '"' :: r => (string? ('"' :: r)).map fun t => (.string t.1, t.2)
  | _, '\'' :: r => (string? ('\'' :: r)).map fun t => (.string t.1, t.2)
  | _, cs => (scalar? cs).map fun t => (.scalar t.1, t.2)

/-! ### Lines -/

/-- A line of a document that says something. -/
inductive Line where
  | header (h : Header)
  | assignment (key : List String) (item : Item)

/-- The line that a text starts with, unless it is empty, and the text after its end. -/
def line? (cs : List Char) : Option (Option Line × List Char) :=
  match dropBlanks cs with
  | '[' :: '[' :: r => do
    let (path, r) ← key? r
    match r with
    | ']' :: ']' :: r => (lineEnd? r).map fun r => (some (.header ⟨true, path⟩), r)
    | _ => none
  | '[' :: r => do
    let (path, r) ← key? r
    match r with
    | ']' :: r => (lineEnd? r).map fun r => (some (.header ⟨false, path⟩), r)
    | _ => none
  | r =>
    match lineEnd? r with
    | some r => some (none, r)
    | none => do
      let (key, r) ← key? r
      let (v, r) ← assigned? (value? (depthLimit - 1)) r
      (lineEnd? r).map fun r => (some (.assignment key v), r)

def lines (cs : List Char) : Option (List Line) :=
  if cs = [] then some []
  else
    match line? cs with
    | none => none
    | some (l, r) =>
      if _h : r.length < cs.length then
        (lines r).map fun ls => l.toList ++ ls
      else none
termination_by cs.length

/-- The assignments before the first header, and the sections of the headers. -/
def sections : List Line → List (List String × Item) × List Section
  | [] => ([], [])
  | .assignment key item :: ls =>
    let (first, rest) := sections ls
    ((key, item) :: first, rest)
  | .header h :: ls =>
    let (first, rest) := sections ls
    ([], ⟨h, first⟩ :: rest)

/-- The root table of a document, which a byte order mark may precede. -/
def parse (s : String) : Option Entries := do
  let cs := match s.toList with
    | '\ufeff' :: r => r
    | cs => cs
  let (first, rest) := sections (← lines cs)
  rest.foldlM Section.addTo (← Entries.assignAll false [] first)

end Dialogue.Toml
