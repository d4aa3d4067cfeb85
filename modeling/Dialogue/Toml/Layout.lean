/-!
# Layout of TOML text

Blanks, line breaks and comments. A line ends with a line feed, which a carriage return may precede,
or with the text; no other control character than the tab may stand in a comment or a string.
-/

namespace Dialogue.Toml

def isBlank (c : Char) : Bool := c = ' ' || c = '\t'

/-- The characters that may stand for themselves in comments and strings. -/
def isPrintable (c : Char) : Bool := c = '\t' || (0x20 ≤ c.toNat && c.toNat ≠ 0x7F)

def dropBlanks (cs : List Char) : List Char := cs.dropWhile isBlank

def newLine? : List Char → Option (List Char)
  | '\n' :: r => some r
  | '\x0d' :: '\n' :: r => some r
  | _ => none

/-- The text after a comment, if there is one. -/
def dropComment : List Char → List Char
  | '#' :: r => r.dropWhile isPrintable
  | cs => cs

/-- The text after the rest of a line that holds no more than blanks and a comment. -/
def lineEnd? (cs : List Char) : Option (List Char) :=
  match dropComment (dropBlanks cs) with
  | [] => some []
  | r => newLine? r

/-- The text after any blanks, comments and line breaks. -/
def dropBreaks : List Char → List Char
  | [] => []
  | c :: cs =>
    if isBlank c || c = '\n' then dropBreaks cs
    else if c = '\x0d' then
      match cs with
      | '\n' :: r => dropBreaks r
      | _ => c :: cs
    else if c = '#' then dropBreaks (cs.dropWhile isPrintable)
    else c :: cs
termination_by cs => cs.length
decreasing_by
  · simp
  · simp only [List.length_cons]; omega
  · have := (List.dropWhile_suffix isPrintable (l := cs)).length_le
    simp only [List.length_cons]; omega

end Dialogue.Toml
