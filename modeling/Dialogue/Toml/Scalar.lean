import Dialogue.Text.Digits
import Dialogue.Binary.Magnitude
import Dialogue.Toml.Layout

/-!
# TOML scalars

Truth values, integers, floats, dates and times are words: runs of letters, digits and a few marks.
An integer fits in sixty-four bits, a float is not too great for double precision, and a date is a
day of the calendar.
-/

namespace Dialogue.Toml

/-- A word's meaning. Floats and moments are kept as written. -/
inductive Scalar where
  | boolean (b : Bool)
  | integer (i : Int)
  | float (written : List Char)
  | moment (written : List Char)
deriving DecidableEq

/-! ### Numbers -/

/-- The digits of a run in which single underscores may stand between two digits. -/
def underscored? {α : Type} (digit? : Char → Option α) : List Char → Option (List α)
  | [] => none
  | [c] => (digit? c).map fun d => [d]
  | c :: '_' :: r => do some ((← digit? c) :: (← underscored? digit? r))
  | c :: r => do some ((← digit? c) :: (← underscored? digit? r))

/-- Whether digits start with a zero that others follow. -/
def hasLeadingZero : List Digit → Bool
  | d :: _ :: _ => d.val == 0
  | _ => false

/-- Decimal digits without a leading zero. -/
def decimal? (cs : List Char) : Option (List Digit) :=
  (underscored? Digit.ofChar? cs).filter fun ds => !hasLeadingZero ds

def valueIn (base : Nat) (ds : List HexDigit) : Nat := ds.foldl (fun n d => base * n + d.val) 0

def digitOf? (base : Nat) (c : Char) : Option HexDigit :=
  (HexDigit.ofChar? c).filter fun d => d.val < base

/-- Whether a number is an integer of sixty-four bits. -/
def fits (i : Int) : Bool := -0x8000000000000000 ≤ i && i < 0x8000000000000000

/-- The integer that a word writes: decimal with or without a sign, or in another base without. -/
def integer? (w : List Char) : Option Int :=
  let unsigned (cs : List Char) : Option Int := (decimal? cs).map fun ds => (Digit.value ds : Int)
  let inBase (base : Nat) (cs : List Char) : Option Int :=
    (underscored? (digitOf? base) cs).map fun ds => (valueIn base ds : Int)
  let i : Option Int := match w with
    | '0' :: 'x' :: r => inBase 16 r
    | '0' :: 'o' :: r => inBase 8 r
    | '0' :: 'b' :: r => inBase 2 r
    | '+' :: r => unsigned r
    | '-' :: r => (unsigned r).map fun i => -i
    | r => unsigned r
  i.filter fun i => fits i

/-- The exponent that follows its mark. -/
def exponent? : List Char → Option Int
  | '+' :: r => (underscored? Digit.ofChar? r).map fun ds => (Digit.value ds : Int)
  | '-' :: r => (underscored? Digit.ofChar? r).map fun ds => -(Digit.value ds : Int)
  | r => (underscored? Digit.ofChar? r).map fun ds => (Digit.value ds : Int)

/-- Whether `n * 10 ^ e` is too great for double precision. -/
def isTooGreat (n : Nat) (e : Int) : Bool :=
  let lead := e + (Digit.ofNat n).length - 1
  if n = 0 || lead < 308 then false
  else if 308 < lead then true
  else (Binary.Format.double.round (n * Binary.tenTo e.toNat) (Binary.tenTo (-e).toNat)).isNone

/-- The digits and the exponent of a float without its sign. -/
def unsignedFloat? (cs : List Char) : Option (Nat × Int) := do
  let isPart (c : Char) : Bool := c.isDigit || c = '_'
  let whole ← decimal? (cs.takeWhile isPart)
  let number (fraction : List Digit) (e : Int) : Nat × Int :=
    (Digit.value (whole ++ fraction), e - fraction.length)
  let tail (fraction : List Digit) (cs : List Char) : Option (Nat × Int) :=
    match cs with
    | [] => some (number fraction 0)
    | c :: r => if c = 'e' ∨ c = 'E' then (exponent? r).map (number fraction) else none
  match cs.dropWhile isPart with
  | '.' :: r => do
    let fraction ← underscored? Digit.ofChar? (r.takeWhile isPart)
    tail fraction (r.dropWhile isPart)
  | [] => none
  | r => tail [] r

/-- Whether a word writes a float. One that is too great is no float, unless it is negative. -/
def isFloat (w : List Char) : Bool :=
  let (negative, body) := match w with
    | '+' :: r => (false, r)
    | '-' :: r => (true, r)
    | r => (false, r)
  if body = ['i', 'n', 'f'] || body = ['n', 'a', 'n'] then true
  else
    match unsignedFloat? body with
    | none => false
    | some (n, e) => negative || !isTooGreat n e

/-! ### Dates and times -/

def two? (a b : Char) : Option Nat := do
  some (10 * (← Digit.ofChar? a).val + (← Digit.ofChar? b).val)

def daysIn (year month : Nat) : Nat :=
  if month = 2 then
    if year % 4 = 0 && (year % 100 ≠ 0 || year % 400 = 0) then 29 else 28
  else if month = 4 || month = 6 || month = 9 || month = 11 then 30
  else 31

/-- Whether a word is a day of the calendar. -/
def isDate : List Char → Bool
  | [y₁, y₂, y₃, y₄, '-', m₁, m₂, '-', d₁, d₂] =>
    match two? y₁ y₂, two? y₃ y₄, two? m₁ m₂, two? d₁ d₂ with
    | some c, some y, some m, some d =>
      1 ≤ m && m ≤ 12 && 1 ≤ d && d ≤ daysIn (100 * c + y) m
    | _, _, _, _ => false
  | _ => false

/-- The text after a time of day, with its fraction of a second if it has one. -/
def afterTime? : List Char → Option (List Char)
  | h₁ :: h₂ :: ':' :: m₁ :: m₂ :: ':' :: s₁ :: s₂ :: r => do
    let h ← two? h₁ h₂
    let m ← two? m₁ m₂
    let s ← two? s₁ s₂
    if h ≤ 23 ∧ m ≤ 59 ∧ s ≤ 60 then
      match r with
      | '.' :: r =>
        match Digit.span r with
        | ([], _) => none
        | (_, r) => some r
      | r => some r
    else none
  | _ => none

/-- Whether a text is an offset from universal time, or nothing. -/
def isOffset : List Char → Bool
  | [] => true
  | ['Z'] | ['z'] => true
  | [sign, h₁, h₂, ':', m₁, m₂] =>
    (sign = '+' || sign = '-') &&
      match two? h₁ h₂, two? m₁ m₂ with
      | some h, some m => h ≤ 23 && m ≤ 59
      | _, _ => false
  | _ => false

/-- Whether a word is a date, a time, or a date and a time with or without an offset. -/
def isMoment (w : List Char) : Bool :=
  if isDate (w.take 10) then
    match w.drop 10 with
    | [] => true
    | c :: r => (c = 'T' || c = 't' || c = ' ') && (afterTime? r).any isOffset
  else afterTime? w = some []

/-! ### Words -/

def isWordChar (c : Char) : Bool :=
  c.isAlphanum || c = '_' || c = '+' || c = '-' || c = '.' || c = ':'

def Scalar.ofWord? (w : List Char) : Option Scalar :=
  if w = ['t', 'r', 'u', 'e'] then some (.boolean true)
  else if w = ['f', 'a', 'l', 's', 'e'] then some (.boolean false)
  else if isMoment w then some (.moment w)
  else
    match integer? w with
    | some i => some (.integer i)
    | none => if isFloat w then some (.float w) else none

/-- The scalar that a text starts with, and the text after it. One space may stand between a date
and a time. -/
def scalar? (cs : List Char) : Option (Scalar × List Char) :=
  let w := cs.takeWhile isWordChar
  let r := cs.dropWhile isWordChar
  match isDate w, r with
  | true, ' ' :: c :: r' =>
    if c.isDigit then
      let time := c :: r'.takeWhile isWordChar
      (Scalar.ofWord? (w ++ ' ' :: time)).map fun s => (s, r'.dropWhile isWordChar)
    else some (.moment w, r)
  | _, _ => (Scalar.ofWord? w).map fun s => (s, r)

end Dialogue.Toml
