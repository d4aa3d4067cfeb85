import Dialogue.Text.Digits
import Dialogue.Binary.Shortest

/-!
# Numerals

A JSON number as it is written: a sign, a whole part, the digits after the point, and an exponent.
An integer is a numeral without point and exponent. As a binary number a numeral is taken through
double precision: its digits fill a significand of sixty-four bits, which is then multiplied or
divided by a power of ten with one rounding each; only then is it taken to single precision.
Writing a single takes its shortest decimal and lays it out by `Layout.coordinate`.
-/

namespace Dialogue.Json

open Dialogue.Binary

/-- A number as written. An empty fraction stands for no decimal point. -/
structure Numeral where
  negative : Bool
  whole : List Digit
  fraction : List Digit
  exponent : Option Int
deriving DecidableEq, Inhabited

namespace Numeral

/-! ### Written form -/

/-- A nonempty whole part has no leading zero. -/
def WellFormed (n : Numeral) : Prop := n.whole ≠ [] ∧ (n.whole.head? = some 0 → n.whole = [0])

/-- The exponent of a numeral: a mark, a sign if any, and digits to the end. -/
def readExponent? : List Char → Option Int
  | '-' :: cs => (Digit.run? cs).bind fun ds => if ds = [] then none else some (-(Digit.value ds : Int))
  | '+' :: cs => (Digit.run? cs).bind fun ds => if ds = [] then none else some (Digit.value ds : Int)
  | cs => (Digit.run? cs).bind fun ds => if ds = [] then none else some (Digit.value ds : Int)

/-- What may follow the fraction: nothing or an exponent. -/
def readTail? : List Char → Option (Option Int)
  | [] => some none
  | c :: cs => if c = 'e' ∨ c = 'E' then (readExponent? cs).map some else none

/-- What may follow the whole part: a point with one or more digits, or nothing, then the tail. -/
def readFraction? : List Char → Option (List Digit × Option Int)
  | '.' :: cs =>
    match Digit.span cs with
    | ([], _) => none
    | (ds, r) => (readTail? r).map fun e => (ds, e)
  | cs => (readTail? cs).map fun e => ([], e)

def readUnsigned? (negative : Bool) (cs : List Char) : Option Numeral :=
  match Digit.span cs with
  | ([], _) => none
  | (d :: ds, r) =>
    if d = 0 ∧ ds ≠ [] then none
    else (readFraction? r).map fun t => ⟨negative, d :: ds, t.1, t.2⟩

/-- The numeral that makes up a whole text. -/
def ofText? : List Char → Option Numeral
  | '-' :: cs => readUnsigned? true cs
  | cs => readUnsigned? false cs

/-- An exponent written with its mark and always a sign. -/
def exponentText (e : Int) : List Char :=
  'e' :: (if e < 0 then '-' else '+') :: Digit.text (Digit.ofNat e.natAbs)

def text (n : Numeral) : List Char :=
  (if n.negative then ['-'] else []) ++ Digit.text n.whole ++
    (if n.fraction = [] then [] else '.' :: Digit.text n.fraction) ++
    (match n.exponent with
      | none => []
      | some e => exponentText e)

/-! ### Integers -/

/-- Written without point and exponent. -/
def isInteger (n : Numeral) : Bool := n.fraction = [] && n.exponent = none

def ofInt (i : Int) : Numeral := ⟨decide (i < 0), Digit.ofNat i.natAbs, [], none⟩

/-- The integer that a numeral writes. Minus zero is no integer. -/
def int? (n : Numeral) : Option Int :=
  if n.isInteger then
    let v := Digit.value n.whole
    if n.negative then (if v = 0 then none else some (-(v : Int))) else some v
  else none

/-- The integer of a numeral that lies between two bounds, both included. -/
def intWithin? (low high : Int) (n : Numeral) : Option Int :=
  n.int?.filter fun i => low ≤ i ∧ i ≤ high

/-! ### Binary numbers -/

/-- Takes digits into a significand of sixty-four bits while they fit; what is left over is the
first digit that does not and all after it. -/
def absorb (s : Nat) : List Digit → Nat × List Digit
  | [] => (s, [])
  | d :: ds => if 10 * s + d.val < 0x10000000000000000 then absorb (10 * s + d.val) ds else (s, d :: ds)

/-- A power of ten of at most 308 in double precision. -/
def powerOfTen (k : Nat) : Magnitude := (Format.double.round (tenTo k) 1).getD default

/-- A double times a power of ten. Powers beyond 308 are taken in steps, and only a division can
need one; a product that is too great is no number. -/
def timesPowerOfTen (m : Magnitude) (e : Int) : Option Magnitude :=
  if e.natAbs ≤ 308 then
    if 0 ≤ e then Format.double.mul m (powerOfTen e.natAbs)
    else Format.double.div m (powerOfTen e.natAbs)
  else if m.coefficient = 0 then some m
  else if 0 ≤ e then none
  else (Format.double.div m (powerOfTen 308)).bind fun q => timesPowerOfTen q (e + 308)
termination_by e.natAbs
decreasing_by omega

/-- The magnitude of a numeral in double precision. -/
def toDouble? (n : Numeral) : Option Magnitude :=
  let (s, dropped) := absorb 0 n.whole
  let (s, rest) := absorb s n.fraction
  let e : Int := dropped.length - (n.fraction.length - rest.length : Nat) + n.exponent.getD 0
  (Format.double.round s 1).bind fun m => timesPowerOfTen m e

/-- A numeral in single precision. An integer of sixty-four bits is rounded once, all else through
double precision. -/
def toSingle? (n : Numeral) : Option Single :=
  let v := Digit.value n.whole
  if n.isInteger && (if n.negative then v ≤ 0x8000000000000000 else v < 0x10000000000000000) then
    some (Single.ofQuotient n.negative v 1)
  else n.toDouble?.map (Single.ofMagnitude n.negative)

end Numeral

/-! ### Layout of binary numbers -/

/-- The leading exponents that are written without an exponent. -/
structure Layout where
  leastPlain : Int
  mostPlain : Int

namespace Layout

/-- Coordinates are written plainly from a millionth to below ten million million. -/
def coordinate : Layout := ⟨-6, 12⟩

/-- A decimal as a numeral. A plain numeral has at least one digit after the point; otherwise the
first digit stands alone before the point. -/
def numeral (l : Layout) (negative : Bool) (d : Decimal) : Numeral :=
  let ds := d.digits
  let e := d.leadingExponent
  if l.leastPlain ≤ e ∧ e ≤ l.mostPlain then
    if e < 0 then ⟨negative, [0], List.replicate (-e - 1).toNat 0 ++ ds, none⟩
    else
      let n := e.toNat + 1
      let after := ds.drop n
      ⟨negative, ds.take n ++ List.replicate (n - ds.length) 0, if after = [] then [0] else after, none⟩
  else ⟨negative, ds.take 1, ds.drop 1, some e⟩

end Layout

def Numeral.ofSingle? (x : Single) : Option Numeral :=
  x.shortest?.map (Layout.coordinate.numeral x.isNegative)

end Dialogue.Json
