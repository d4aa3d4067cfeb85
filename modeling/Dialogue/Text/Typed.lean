import Dialogue.Text.Digits

/-!
# Typed lines

The lines of a text, the characters that Unicode calls white space, the text left when they are
taken off both ends, and the reading of a text as a number of thirty-two bits.
-/

namespace Dialogue.Text

/-- The characters with the Unicode property `White_Space`. -/
def isBlank (c : Char) : Bool :=
  let n := c.toNat
  (9 ≤ n && n ≤ 13) || n == 0x20 || n == 0x85 || n == 0xA0 || n == 0x1680 ||
    (0x2000 ≤ n && n ≤ 0x200A) || n == 0x2028 || n == 0x2029 || n == 0x202F || n == 0x205F ||
    n == 0x3000

/-- A text without the blanks at its ends. -/
def trim (cs : List Char) : List Char :=
  ((cs.dropWhile isBlank).reverse.dropWhile isBlank).reverse

/-- The lines of a text. A line feed ends a line, together with a carriage return before it, and
what follows the last one is a line when it is not empty. -/
def lines (cs : List Char) : List (List Char) :=
  if cs = [] then []
  else
    let line := cs.takeWhile (· ≠ '\n')
    let isEnded := line.length < cs.length
    (if isEnded ∧ line.getLast? = some '\x0d' then line.dropLast else line) ::
      lines (cs.drop (line.length + 1))
termination_by cs.length
decreasing_by
  rename_i h
  have := List.length_pos_iff.2 h
  simp only [List.length_drop]
  omega

/-- The number that a text denotes when it is one or more digits, after an optional plus sign, and
the number fits in thirty-two bits. Leading zeros are allowed. -/
def word32? (cs : List Char) : Option UInt32 :=
  let body := match cs with
    | '+' :: r => r
    | r => r
  match Digit.run? body with
  | none | some [] => none
  | some ds => if Digit.value ds < 0x100000000 then some (UInt32.ofNat (Digit.value ds)) else none

end Dialogue.Text
