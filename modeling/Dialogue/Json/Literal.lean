import Dialogue.Text.Digits

/-!
# String literals

A JSON string as it is written, piece by piece: a character that stands for itself, one written by
a short escape, or a code unit of sixteen bits in hexadecimal. A literal has a text when its
surrogate units come in pairs. A text is written with escapes for the quote, the backslash and the
control characters alone.
-/

namespace Dialogue.Json

/-- A piece of a string literal. -/
inductive Piece where
  /-- A character that stands for itself. -/
  | plain (c : Char)
  /-- A character written as a backslash and a letter. -/
  | short (c : Char)
  /-- A code unit written as a backslash, the letter `u` and four hexadecimal digits. -/
  | unit (a b c d : HexDigit)
deriving DecidableEq

/-- A string literal, without its quotes. -/
abbrev Literal := List Piece

namespace Piece

/-- The letter of each character that has a short escape when written. -/
def letter? (c : Char) : Option Char :=
  match c.toNat with
  | 0x22 => some '"'
  | 0x5C => some '\\'
  | 0x08 => some 'b'
  | 0x0C => some 'f'
  | 0x0A => some 'n'
  | 0x0D => some 'r'
  | 0x09 => some 't'
  | _ => none

/-- The character that an escape letter stands for. -/
def ofLetter? : Char → Option Char
  | '"' => some '"'
  | '\\' => some '\\'
  | '/' => some '/'
  | 'b' => some '\x08'
  | 'f' => some '\x0c'
  | 'n' => some '\n'
  | 'r' => some '\x0d'
  | 't' => some '\t'
  | _ => none

def ofChar (c : Char) : Piece :=
  if (letter? c).isSome then short c
  else if c.toNat < 0x20 then
    unit 0 0 ⟨c.toNat / 16 % 16, Nat.mod_lt _ (by decide)⟩ ⟨c.toNat % 16, Nat.mod_lt _ (by decide)⟩
  else plain c

def text : Piece → List Char
  | plain c => [c]
  | short c => ['\\', (letter? c).getD c]
  | unit a b c d => '\\' :: 'u' :: HexDigit.text [a, b, c, d]

end Piece

namespace Literal

/-! ### Reading -/

/-- The literal that a text starts with, up to its closing quote, and the text after the quote. A
control character may not stand for itself. -/
def scan : List Char → Option (Literal × List Char)
  | [] => none
  | '"' :: r => some ([], r)
  | '\\' :: 'u' :: a :: b :: c :: d :: r =>
    match HexDigit.ofChar? a, HexDigit.ofChar? b, HexDigit.ofChar? c, HexDigit.ofChar? d with
    | some a, some b, some c, some d => (scan r).map fun t => (.unit a b c d :: t.1, t.2)
    | _, _, _, _ => none
  | '\\' :: e :: r =>
    match Piece.ofLetter? e with
    | some c => (scan r).map fun t => (.short c :: t.1, t.2)
    | none => none
  | c :: r => if c = '\\' ∨ c.toNat < 0x20 then none else (scan r).map fun t => (.plain c :: t.1, t.2)

theorem length_lt_of_scan {cs : List Char} {t : Literal × List Char} (h : scan cs = some t) :
    t.2.length < cs.length := by
  fun_induction scan cs generalizing t with
  | case1 => simp at h
  | case2 => simp only [Option.some.injEq] at h; subst h; simp
  | case3 _ _ _ _ _ _ _ _ _ _ _ _ _ ih =>
    obtain ⟨u, hu, rfl⟩ := Option.map_eq_some_iff.1 h
    have := ih hu; simp only [List.length_cons]; omega
  | case4 => simp at h
  | case5 _ _ _ _ _ ih =>
    obtain ⟨u, hu, rfl⟩ := Option.map_eq_some_iff.1 h
    have := ih hu; simp only [List.length_cons]; omega
  | case6 => simp at h
  | case7 => simp at h
  | case8 _ _ _ _ _ _ ih =>
    obtain ⟨u, hu, rfl⟩ := Option.map_eq_some_iff.1 h
    have := ih hu; simp only [List.length_cons]; omega

/-! ### Meaning -/

/-- The characters that pieces stand for. A leading surrogate and the trailing one after it stand
for one character; a surrogate outside such a pair stands for none. -/
def chars? : Literal → Option (List Char)
  | [] => some []
  | .plain c :: r => (chars? r).map (c :: ·)
  | .short c :: r => (chars? r).map (c :: ·)
  | .unit a b c d :: r =>
    let n := HexDigit.value [a, b, c, d]
    if n < 0xD800 ∨ 0xE000 ≤ n then (chars? r).map (Char.ofNat n :: ·)
    else if 0xDC00 ≤ n then none
    else
      match r with
      | .unit a b c d :: r =>
        let m := HexDigit.value [a, b, c, d]
        if 0xDC00 ≤ m ∧ m < 0xE000 then
          (chars? r).map (Char.ofNat (0x10000 + (n - 0xD800) * 0x400 + (m - 0xDC00)) :: ·)
        else none
      | _ => none

/-- The text that a literal stands for. -/
def text? (l : Literal) : Option String := (chars? l).map String.ofList

/-- The characters of a literal without escapes. -/
def unescaped? : Literal → Option (List Char)
  | [] => some []
  | .plain c :: r => (unescaped? r).map (c :: ·)
  | _ => none

/-! ### Writing -/

def ofText (s : String) : Literal := s.toList.map Piece.ofChar

/-- The literal written out between quotes. -/
def quoted (l : Literal) : List Char := '"' :: (l.flatMap Piece.text ++ ['"'])

end Literal

end Dialogue.Json
