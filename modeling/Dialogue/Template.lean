import Dialogue.Graph.Basic

/-!
# Templates

A line of dialogue may hold tokens: a brace, a run of characters that are not braces, and a closing
brace. `Segment.ofChars` cuts a text into tokens and single characters. A template knows the
displayed value of each property of one graph, puts it in place of the property's token, and
answers for the truth values. Of several properties with one name the first counts.
-/

namespace Dialogue

/-! ### Tokens of a line -/

/-- A part of a line: a token by its name, or a character that belongs to none. -/
inductive Segment where
  | plain (c : Char)
  | token (name : List Char)
deriving DecidableEq

namespace Segment

/-- Whether a character opens or closes a token. -/
def isBrace (c : Char) : Bool := c = '\x7b' || c = '\x7d'

/-- The name of the token whose opening brace came just before, and the text after the token. -/
def name? (cs : List Char) : Option (List Char × List Char) :=
  match cs.dropWhile fun c => !isBrace c with
  | '\x7d' :: rest => some (cs.takeWhile fun c => !isBrace c, rest)
  | _ => none

theorem length_lt_of_name? {cs : List Char} {t : List Char × List Char} (h : name? cs = some t) :
    t.2.length < cs.length := by
  unfold name? at h
  split at h
  · rename_i rest hd
    simp only [Option.some.injEq] at h
    subst h
    have := (List.dropWhile_suffix (fun c => !isBrace c) (l := cs)).length_le
    rw [hd, List.length_cons] at this
    exact this
  · simp at h

def ofChars : List Char → List Segment
  | [] => []
  | c :: cs =>
    if c = '\x7b' then
      match _h : name? cs with
      | some t => token t.1 :: ofChars t.2
      | none => plain c :: ofChars cs
    else plain c :: ofChars cs
termination_by cs => cs.length
decreasing_by
  · have := length_lt_of_name? _h; simp only [List.length_cons]; omega
  · simp
  · simp

/-- The text that a segment stands for. -/
def source : Segment → List Char
  | plain c => [c]
  | token name => '\x7b' :: (name ++ ['\x7d'])

end Segment

/-! ### Templates of graphs -/

/-- What a branch finds out about its variable. -/
inductive ConditionResult where
  | true
  | false
  /-- The graph declares no truth value of the name. -/
  | unknown
deriving DecidableEq, Inhabited, Repr

/-- Displayed texts and truth values by name; the first entry of a name counts. -/
structure Template where
  replacements : List (String × String)
  conditions : List (String × Bool)
deriving DecidableEq, Inhabited

namespace Template

def empty : Template := ⟨[], []⟩

/-- The template of a list of names and values. -/
def ofStory (story : List (String × PropertyValue)) : Template where
  replacements := story.map fun p => (p.1, p.2.display)
  conditions := story.filterMap fun p => p.2.bool?.map fun b => (p.1, b)

/-- The template of a graph's own properties. -/
def ofGraph (g : Graph) : Template := ofStory g.story

def replacement? (t : Template) (name : String) : Option String := t.replacements.lookup name

/-- The text that stands for a segment: the value of a known token, or the segment as it is. -/
def expand (t : Template) : Segment → List Char
  | .plain c => [c]
  | .token name =>
    match t.replacement? (String.ofList name) with
    | some text => text.toList
    | none => (Segment.token name).source

/-- A text with each known token replaced. Inserted texts are not looked at again. -/
def render (t : Template) (text : String) : String :=
  String.ofList ((Segment.ofChars text.toList).flatMap t.expand)

/-- The entries of a name in a list set to a new value. -/
def patch {α : Type} (name : String) (a : α) (entries : List (String × α)) : List (String × α) :=
  entries.map fun e => if e.1 = name then (e.1, a) else e

/-- Takes in a new value of a name. Names that the template does not know stay unknown. -/
def update (t : Template) (name : String) (v : PropertyValue) : Template where
  replacements := patch name v.display t.replacements
  conditions :=
    match v with
    | .bool b => patch name b t.conditions
    | _ => t.conditions

def check (t : Template) (name : String) : ConditionResult :=
  match t.conditions.lookup name with
  | some true => .true
  | some false => .false
  | none => .unknown

end Template

end Dialogue
