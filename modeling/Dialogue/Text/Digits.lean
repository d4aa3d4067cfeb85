/-!
# Digits

Positional notation. A decimal digit is a number below ten, a number has one shortest run of
digits, and a run of digits has a value; hexadecimal digits are read in either case and written in
lower case.
-/

namespace Dialogue

/-! ### Decimal digits -/

/-- A decimal digit. -/
abbrev Digit := Fin 10

namespace Digit

/-- The digit that an ASCII character denotes. -/
def ofChar? (c : Char) : Option Digit :=
  if h : 48 ≤ c.toNat ∧ c.toNat < 58 then some ⟨c.toNat - 48, by omega⟩ else none

def toChar (d : Digit) : Char := Char.ofNat (48 + d.val)

/-- The digits of a number, most significant first, without leading zeros. -/
def ofNat (n : Nat) : List Digit :=
  if h : n < 10 then [⟨n, h⟩] else ofNat (n / 10) ++ [⟨n % 10, Nat.mod_lt n (by decide)⟩]

/-- The number that a run of digits denotes. -/
def value (ds : List Digit) : Nat := ds.foldl (fun n d => 10 * n + d.val) 0

/-- The run of digits that a text starts with, and the text after it. -/
def span : List Char → List Digit × List Char
  | [] => ([], [])
  | c :: cs =>
    match ofChar? c with
    | some d => (d :: (span cs).1, (span cs).2)
    | none => ([], c :: cs)

def text (ds : List Digit) : List Char := ds.map toChar

/-- The digits that make up a whole text, if it holds nothing else. -/
def run? (cs : List Char) : Option (List Digit) := cs.mapM ofChar?

end Digit

/-! ### Hexadecimal digits -/

/-- A hexadecimal digit. -/
abbrev HexDigit := Fin 16

namespace HexDigit

/-- The hexadecimal digit that a character denotes, in either case. -/
def ofChar? (c : Char) : Option HexDigit :=
  if h : 48 ≤ c.toNat ∧ c.toNat < 58 then some ⟨c.toNat - 48, by omega⟩
  else if h : 97 ≤ c.toNat ∧ c.toNat < 103 then some ⟨c.toNat - 87, by omega⟩
  else if h : 65 ≤ c.toNat ∧ c.toNat < 71 then some ⟨c.toNat - 55, by omega⟩
  else none

/-- The character of a hexadecimal digit, in lower case. -/
def toChar (d : HexDigit) : Char :=
  if d.val < 10 then Char.ofNat (48 + d.val) else Char.ofNat (87 + d.val)

/-- The number that a run of hexadecimal digits denotes. -/
def value (ds : List HexDigit) : Nat := ds.foldl (fun n d => 16 * n + d.val) 0

/-- The last `width` hexadecimal digits of a number, most significant first. -/
def ofNat : (width : Nat) → Nat → List HexDigit
  | 0, _ => []
  | width + 1, n => ofNat width (n / 16) ++ [⟨n % 16, Nat.mod_lt n (by decide)⟩]

def text (ds : List HexDigit) : List Char := ds.map toChar

end HexDigit

end Dialogue
