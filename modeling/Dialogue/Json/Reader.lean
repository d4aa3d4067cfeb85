import Dialogue.Json.Token

/-!
# Reading JSON values

A reader goes through the tokens of a text once. Its state says what may come next and holds the
containers that are still open, the innermost first, so that the depth of a value costs no more
than its length. A text is a value when the last token leaves one value and no open container.
-/

namespace Dialogue.Json

/-- An open container: what it holds so far, the latest first. -/
inductive Frame where
  | array (items : List Value)
  /-- The name is that of the member whose value is being read. -/
  | object (members : List (Literal × Value)) (name : Literal)

/-- What the tokens read so far amount to. -/
inductive Reader where
  /-- A value must follow. -/
  | value (opened : List Frame)
  /-- An array was just opened. -/
  | firstItem (opened : List Frame)
  /-- An object was just opened. -/
  | firstName (opened : List Frame)
  /-- The name of a further member must follow. -/
  | nextName (members : List (Literal × Value)) (opened : List Frame)
  /-- A colon must follow a name. -/
  | colon (members : List (Literal × Value)) (name : Literal) (opened : List Frame)
  /-- A value was just completed. -/
  | done (v : Value) (opened : List Frame)

namespace Reader

def start (opened : List Frame) : Token → Option Reader
  | .openBracket => some (firstItem opened)
  | .openBrace => some (firstName opened)
  | .null => some (done .null opened)
  | .bool b => some (done (.bool b) opened)
  | .number n => some (done (.number n) opened)
  | .string l => some (done (.string l) opened)
  | _ => none

/-- The state after one more token; `none` when the token may not stand there. -/
def step : Reader → Token → Option Reader
  | value opened, t => start opened t
  | firstItem opened, .closeBracket => some (done (.array []) opened)
  | firstItem opened, t => start (.array [] :: opened) t
  | firstName opened, .closeBrace => some (done (.object []) opened)
  | firstName opened, .string name => some (colon [] name opened)
  | nextName members opened, .string name => some (colon members name opened)
  | colon members name opened, .colon => some (value (.object members name :: opened))
  | done v (.array items :: opened), .comma => some (value (.array (v :: items) :: opened))
  | done v (.array items :: opened), .closeBracket =>
    some (done (.array (v :: items).reverse) opened)
  | done v (.object members name :: opened), .comma => some (nextName ((name, v) :: members) opened)
  | done v (.object members name :: opened), .closeBrace =>
    some (done (.object ((name, v) :: members).reverse) opened)
  | _, _ => none

/-- The value that is complete when the text ends. -/
def finish? : Reader → Option Value
  | done v [] => some v
  | _ => none

end Reader

namespace Value

def ofTokens? (ts : List Token) : Option Value := (ts.foldlM Reader.step (.value [])).bind Reader.finish?

def parse (s : String) : Option Value := (Token.scan s.toList).bind ofTokens?

end Value

end Dialogue.Json
