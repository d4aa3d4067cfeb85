import Dialogue.Json.Token

/-!
# Writing JSON values

The compact form of a value is its tokens one after the other. The indented form has the same
tokens with white space before some of them: an item or member on a line of its own, two spaces
deeper than its container, one space after a colon, and nothing inside an empty container.
-/

namespace Dialogue.Json

/-- A token with the white space before it. -/
structure Spaced where
  space : List Char
  token : Token

namespace Spaced

/-- The token written out after its white space. -/
def text (s : Spaced) : List Char := s.space ++ s.token.text

end Spaced

namespace Value

def compact (v : Value) : String := String.ofList (v.tokens.flatMap Token.text)

def newLine (depth : Nat) : List Char := '\n' :: List.replicate (2 * depth) ' '

mutual

/-- The tokens of a value at a depth, with white space before the first and in between. -/
def spaced (depth : Nat) (space : List Char) : Value → List Spaced
  | null => [⟨space, .null⟩]
  | bool b => [⟨space, .bool b⟩]
  | number n => [⟨space, .number n⟩]
  | string l => [⟨space, .string l⟩]
  | array [] => [⟨space, .openBracket⟩, ⟨[], .closeBracket⟩]
  | array (v :: vs) =>
    ⟨space, .openBracket⟩ :: spaced (depth + 1) (newLine (depth + 1)) v ++ spacedItems depth vs
  | object [] => [⟨space, .openBrace⟩, ⟨[], .closeBrace⟩]
  | object ((k, v) :: ms) =>
    ⟨space, .openBrace⟩ :: ⟨newLine (depth + 1), .string k⟩ :: ⟨[], .colon⟩ ::
      spaced (depth + 1) [' '] v ++ spacedMembers depth ms

/-- The later items of an array at a depth, and its end. -/
def spacedItems (depth : Nat) : List Value → List Spaced
  | [] => [⟨newLine depth, .closeBracket⟩]
  | v :: vs => ⟨[], .comma⟩ :: spaced (depth + 1) (newLine (depth + 1)) v ++ spacedItems depth vs

/-- The later members of an object at a depth, and its end. -/
def spacedMembers (depth : Nat) : List (Literal × Value) → List Spaced
  | [] => [⟨newLine depth, .closeBrace⟩]
  | (k, v) :: ms =>
    ⟨[], .comma⟩ :: ⟨newLine (depth + 1), .string k⟩ :: ⟨[], .colon⟩ ::
      spaced (depth + 1) [' '] v ++ spacedMembers depth ms

end

def pretty (v : Value) : String := String.ofList ((v.spaced 0 []).flatMap Spaced.text)

end Value

end Dialogue.Json
