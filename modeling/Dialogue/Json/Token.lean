import Dialogue.Json.Value

/-!
# Tokens of JSON text

`Token.scan` cuts a text into tokens. White space separates them and is dropped. A run of letters,
digits, signs and points is one word, and a word is a token only when the whole of it is `null`,
`true`, `false` or a numeral: two words without anything between them would be two values in a row,
which no JSON text has.
-/

namespace Dialogue.Json

namespace Token

/-- The four characters of JSON white space. -/
def isSpace (c : Char) : Bool := c = ' ' || c = '\t' || c = '\n' || c = '\x0d'

/-- The characters that words are made of. -/
def isWordChar (c : Char) : Bool := c.isAlphanum || c = '-' || c = '+' || c = '.'

/-- The token of a bracket, a brace or a separator. -/
def ofMark? : Char → Option Token
  | '[' => some .openBracket
  | ']' => some .closeBracket
  | '\x7b' => some .openBrace
  | '\x7d' => some .closeBrace
  | ',' => some .comma
  | ':' => some .colon
  | _ => none

def ofWord? (w : List Char) : Option Token :=
  if w = ['n', 'u', 'l', 'l'] then some .null
  else if w = ['t', 'r', 'u', 'e'] then some (.bool true)
  else if w = ['f', 'a', 'l', 's', 'e'] then some (.bool false)
  else (Numeral.ofText? w).map .number

def text : Token → List Char
  | openBracket => ['[']
  | closeBracket => [']']
  | openBrace => ['\x7b']
  | closeBrace => ['\x7d']
  | comma => [',']
  | colon => [':']
  | null => ['n', 'u', 'l', 'l']
  | bool true => ['t', 'r', 'u', 'e']
  | bool false => ['f', 'a', 'l', 's', 'e']
  | number n => n.text
  | string l => Literal.quoted l

/-- The first token of a text that starts with none of white space, and the text after it. -/
def first? (c : Char) (cs : List Char) : Option (Token × List Char) :=
  if c = '"' then (Literal.scan cs).map fun t => (.string t.1, t.2)
  else
    match ofMark? c with
    | some t => some (t, cs)
    | none => (ofWord? (c :: cs.takeWhile isWordChar)).map fun t => (t, cs.dropWhile isWordChar)

theorem length_le_of_first? {c : Char} {cs : List Char} {t : Token × List Char}
    (h : first? c cs = some t) : t.2.length ≤ cs.length := by
  unfold first? at h
  split at h
  · obtain ⟨u, hu, rfl⟩ := Option.map_eq_some_iff.1 h
    exact Nat.le_of_lt (Literal.length_lt_of_scan hu)
  · split at h
    · simp only [Option.some.injEq] at h; subst h; exact Nat.le_refl _
    · obtain ⟨u, _, rfl⟩ := Option.map_eq_some_iff.1 h
      exact (List.dropWhile_suffix isWordChar).length_le

/-- The tokens of a text, onto those already found, the latest first. -/
def scanOnto (found : List Token) : List Char → Option (List Token)
  | [] => some found.reverse
  | c :: cs =>
    if isSpace c then scanOnto found cs
    else
      match _h : first? c cs with
      | none => none
      | some t => scanOnto (t.1 :: found) t.2
termination_by cs => cs.length
decreasing_by
  · simp
  · have := length_le_of_first? _h; simp only [List.length_cons]; omega

def scan (cs : List Char) : Option (List Token) := scanOnto [] cs

end Token

end Dialogue.Json
