import Dialogue.Text.Digits
import Dialogue.Toml.Layout

/-!
# TOML strings and keys

A string stands between quotes, with escapes, or between apostrophes, as it is. Three of either
open a string of several lines: a line break right after them is dropped, up to two of them may
stand before the closing three, and between quotes a backslash at the end of a line joins the lines.
A key is bare or a string of one line, and keys may be joined by dots.
-/

namespace Dialogue.Toml

/-! ### Escapes -/

/-- The character with a code of so many hexadecimal digits, and the text after it. -/
def codePoint? (digits : Nat) (cs : List Char) : Option (Char × List Char) := do
  let ds ← (cs.take digits).mapM HexDigit.ofChar?
  let n := HexDigit.value ds
  if ds.length = digits ∧ n.isValidChar then some (Char.ofNat n, cs.drop digits) else none

/-- The character that an escape stands for, from the letter on, and the text after it. -/
def escape? : List Char → Option (Char × List Char)
  | 'b' :: r => some ('\x08', r)
  | 't' :: r => some ('\t', r)
  | 'n' :: r => some ('\n', r)
  | 'f' :: r => some ('\x0c', r)
  | 'r' :: r => some ('\x0d', r)
  | '"' :: r => some ('"', r)
  | '\\' :: r => some ('\\', r)
  | 'u' :: r => codePoint? 4 r
  | 'U' :: r => codePoint? 8 r
  | _ => none

theorem length_lt_of_escape? {cs : List Char} {t : Char × List Char} (h : escape? cs = some t) :
    t.2.length < cs.length := by
  have code {n : Nat} {c : Char} {r : List Char} {t : Char × List Char}
      (h : codePoint? n r = some t) : t.2.length < (c :: r).length := by
    simp only [codePoint?, Option.bind_eq_bind, Option.bind_eq_some_iff, Option.ite_none_right_eq_some,
      Option.some.injEq] at h
    obtain ⟨_, _, _, rfl⟩ := h
    simp only [List.length_drop, List.length_cons]
    omega
  unfold escape? at h
  split at h
  all_goals first
    | exact code h
    | (simp only [Option.some.injEq] at h; subst h; simp)
    | simp at h

theorem length_lt_of_newLine? {cs r : List Char} (h : newLine? cs = some r) :
    r.length < cs.length := by
  unfold newLine? at h
  split at h
  · simp only [Option.some.injEq] at h; subst h; simp
  · simp only [Option.some.injEq] at h; subst h; simp only [List.length_cons]; omega
  · simp at h

/-! ### Strings of one line -/

/-- A string up to its closing quote, and the text after it. -/
def quoted : List Char → Option (List Char × List Char)
  | [] => none
  | c :: cs =>
    if c = '"' then some ([], cs)
    else if c = '\\' then
      match _h : escape? cs with
      | some (e, r) => (quoted r).map fun t => (e :: t.1, t.2)
      | none => none
    else if isPrintable c then (quoted cs).map fun t => (c :: t.1, t.2)
    else none
termination_by cs => cs.length
decreasing_by
  · have : r.length < cs.length := length_lt_of_escape? _h
    simp only [List.length_cons]; omega
  · simp

/-- A string up to its closing apostrophe, and the text after it. -/
def literal : List Char → Option (List Char × List Char)
  | [] => none
  | c :: cs =>
    if c = '\'' then some ([], cs)
    else if isPrintable c then (literal cs).map fun t => (c :: t.1, t.2)
    else none

/-! ### Strings of several lines -/

/-- Where a text starts with the three closing marks, with up to two more that belong to the
string: those two, and the text after the close. -/
def closing? (q : Char) (cs : List Char) : Option (List Char × List Char) :=
  let marks := (cs.takeWhile (· = q)).length
  if 3 ≤ marks then
    let n := min 5 marks
    some (List.replicate (n - 3) q, cs.drop n)
  else none

/-- The text after the blanks and line breaks that follow a joining backslash. -/
def dropJoined : List Char → List Char
  | '\x0d' :: '\n' :: r => dropJoined r
  | c :: r => if isBlank c || c = '\n' then dropJoined r else c :: r
  | [] => []

theorem length_dropJoined_le (cs : List Char) : (dropJoined cs).length ≤ cs.length := by
  fun_induction dropJoined cs with
  | case1 r ih => simp only [List.length_cons]; omega
  | case2 c r _ _ ih => simp only [List.length_cons]; omega
  | case3 => exact Nat.le_refl _
  | case4 => exact Nat.le_refl _

/-- A string of several lines up to its closing quotes, and the text after it. -/
def quotedLines : List Char → Option (List Char × List Char)
  | [] => none
  | c :: cs =>
    match closing? '"' (c :: cs) with
    | some t => some t
    | none =>
      if c = '\\' then
        match _h : newLine? (dropBlanks cs) with
        | some r => quotedLines (dropJoined r)
        | none =>
          match _h' : escape? cs with
          | some (e, r) => (quotedLines r).map fun t => (e :: t.1, t.2)
          | none => none
      else if isPrintable c then (quotedLines cs).map fun t => (c :: t.1, t.2)
      else
        match _h : newLine? (c :: cs) with
        | some r => (quotedLines r).map fun t => ('\n' :: t.1, t.2)
        | none => none
termination_by cs => cs.length
decreasing_by
  · have h₁ := length_lt_of_newLine? _h
    have h₂ := length_dropJoined_le r
    have h₃ := (List.dropWhile_suffix isBlank (l := cs)).length_le
    simp only [dropBlanks] at h₁
    simp only [List.length_cons]
    omega
  · have : r.length < cs.length := length_lt_of_escape? _h'
    simp only [List.length_cons]; omega
  · simp
  · exact length_lt_of_newLine? _h

/-- A string of several lines up to its closing apostrophes, and the text after it. -/
def literalLines : List Char → Option (List Char × List Char)
  | [] => none
  | c :: cs =>
    match closing? '\'' (c :: cs) with
    | some t => some t
    | none =>
      if isPrintable c then (literalLines cs).map fun t => (c :: t.1, t.2)
      else
        match _h : newLine? (c :: cs) with
        | some r => (literalLines r).map fun t => ('\n' :: t.1, t.2)
        | none => none
termination_by cs => cs.length
decreasing_by
  · simp
  · exact length_lt_of_newLine? _h

/-- A text without the line break that it starts with, if any. -/
def dropFirstBreak (cs : List Char) : List Char := (newLine? cs).getD cs

/-- The string that a text starts with, and the text after it. -/
def string? : List Char → Option (String × List Char)
  | '"' :: '"' :: '"' :: r => (quotedLines (dropFirstBreak r)).map fun t => (String.ofList t.1, t.2)
  | '"' :: r => (quoted r).map fun t => (String.ofList t.1, t.2)
  | '\'' :: '\'' :: '\'' :: r =>
    (literalLines (dropFirstBreak r)).map fun t => (String.ofList t.1, t.2)
  | '\'' :: r => (literal r).map fun t => (String.ofList t.1, t.2)
  | _ => none

/-! ### Keys -/

def isKeyChar (c : Char) : Bool := c.isAlphanum || c = '_' || c = '-'

def simpleKey? : List Char → Option (String × List Char)
  | '"' :: r => (quoted r).map fun t => (String.ofList t.1, t.2)
  | '\'' :: r => (literal r).map fun t => (String.ofList t.1, t.2)
  | cs =>
    match cs.takeWhile isKeyChar with
    | [] => none
    | k => some (String.ofList k, cs.dropWhile isKeyChar)

/-- Keys joined by dots, at most so many, and the text after them. Blanks may stand around each. -/
def keys? : Nat → List Char → Option (List String × List Char)
  | 0, _ => none
  | most + 1, cs => do
    let (k, r) ← simpleKey? (dropBlanks cs)
    match dropBlanks r with
    | '.' :: r => (keys? most r).map fun t => (k :: t.1, t.2)
    | r => some ([k], r)

/-- The greatest depth, which neither dotted keys nor nested values reach. -/
def depthLimit : Nat := 80

/-- A dotted key, and the text after it. -/
def key? (cs : List Char) : Option (List String × List Char) := keys? (depthLimit - 1) cs

end Dialogue.Toml
