import Dialogue.Json.Numeral
import Dialogue.Json.Literal

/-!
# JSON values

A value keeps its numbers and strings as they are written, and the members of an object in the
order written, repeated names included. Its tokens, read from left to right, are its written form
without white space.
-/

namespace Dialogue.Json

/-- A JSON value. -/
inductive Value where
  | null
  | bool (b : Bool)
  | number (n : Numeral)
  | string (l : Literal)
  | array (items : List Value)
  | object (members : List (Literal × Value))
deriving Inhabited

/-- The smallest parts of JSON text. -/
inductive Token where
  | openBracket
  | closeBracket
  | openBrace
  | closeBrace
  | comma
  | colon
  | null
  | bool (b : Bool)
  | number (n : Numeral)
  | string (l : Literal)
deriving DecidableEq

namespace Value

def int (i : Int) : Value := number (Numeral.ofInt i)

def text (s : String) : Value := string (Literal.ofText s)

/-- The value of a record: its named fields in order. -/
def record (fields : List (String × Value)) : Value :=
  object (fields.map fun f => (Literal.ofText f.1, f.2))

def list {α : Type} (f : α → Value) (xs : List α) : Value := array (xs.map f)

mutual

def tokens : Value → List Token
  | null => [.null]
  | bool b => [.bool b]
  | number n => [.number n]
  | string l => [.string l]
  | array [] => [.openBracket, .closeBracket]
  | array (v :: vs) => .openBracket :: tokens v ++ itemTokens vs
  | object [] => [.openBrace, .closeBrace]
  | object ((k, v) :: ms) => .openBrace :: .string k :: .colon :: tokens v ++ memberTokens ms

/-- The tokens of the later items of an array, and of its end. -/
def itemTokens : List Value → List Token
  | [] => [.closeBracket]
  | v :: vs => .comma :: tokens v ++ itemTokens vs

/-- The tokens of the later members of an object, and of its end. -/
def memberTokens : List (Literal × Value) → List Token
  | [] => [.closeBrace]
  | (k, v) :: ms => .comma :: .string k :: .colon :: tokens v ++ memberTokens ms

end

end Value

end Dialogue.Json
