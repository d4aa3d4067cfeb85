import Dialogue.Text.Digits

/-!
# Quoted text

Failures are shown to a developer with the texts that they are about in quotes and on one line: the
quote, the backslash and the control characters are escaped, and all else stands for itself.
-/

namespace Dialogue.Text

/-- A character as it stands between quotes. -/
def escaped (c : Char) : List Char :=
  match c with
  | '"' => ['\\', '"']
  | '\\' => ['\\', '\\']
  | '\x00' => ['\\', '0']
  | '\t' => ['\\', 't']
  | '\n' => ['\\', 'n']
  | '\x0d' => ['\\', 'r']
  | c =>
    if c.toNat < 0x20 ∨ (0x7F ≤ c.toNat ∧ c.toNat < 0xA0) then
      let width := if c.toNat < 0x10 then 1 else 2
      '\\' :: 'u' :: '\x7b' :: (HexDigit.text (HexDigit.ofNat width c.toNat) ++ ['\x7d'])
    else [c]

def quoted (s : String) : String := String.ofList ('"' :: (s.toList.flatMap escaped ++ ['"']))

end Dialogue.Text
