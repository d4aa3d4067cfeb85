import Dialogue.Binary.Single
import Dialogue.Text.Digits

/-!
# Shortest decimals

The numbers that round to a given magnitude form an interval. On the grid of decimals with
1, 2, 3, … digits, the first grid that has a point in the interval next to the magnitude gives its
shortest decimal; of two such points the nearer one is taken, and of two equally near the even one.
-/

namespace Dialogue.Binary

/-- The number `coefficient * 10 ^ exponent`. -/
structure Decimal where
  coefficient : Nat
  exponent : Int
deriving DecidableEq, Inhabited

namespace Decimal

/-- The same number without trailing zeros in the coefficient. -/
def strip (d : Decimal) : Decimal :=
  if h : d.coefficient ≠ 0 ∧ d.coefficient % 10 = 0 then
    strip ⟨d.coefficient / 10, d.exponent + 1⟩
  else d
termination_by d.coefficient
decreasing_by exact Nat.div_lt_self (Nat.pos_of_ne_zero h.1) (by decide)

def digits (d : Decimal) : List Digit := Digit.ofNat d.coefficient

/-- The power of ten of the leading digit. -/
def leadingExponent (d : Decimal) : Int := d.exponent + d.digits.length - 1

end Decimal

/-- The greatest `e` with `10 ^ e ≤ num / den`, for positive numbers. -/
def floorLog10 (num den : Nat) : Int :=
  if den ≤ num then (Digit.ofNat (num / den)).length - 1
  else -((Digit.ofNat ((den + num - 1) / num - 1)).length : Int)

/-- The numbers between `low` and `high` over one denominator, with the ends or without them. -/
structure Interval where
  low : Nat
  high : Nat
  closed : Bool

namespace Interval

/-- Whether a numerator lies in the interval. -/
def contains (i : Interval) (n : Nat) : Bool :=
  if i.closed then i.low ≤ n && n ≤ i.high else i.low < n && n < i.high

/-- The interval with its numerators multiplied. -/
def scale (i : Interval) (k : Nat) : Interval := ⟨i.low * k, i.high * k, i.closed⟩

end Interval

namespace Format

/-- The numerators, in quarters of the last place, of the numbers that round to a magnitude. Below
a power of two the neighbours are twice as near, unless the exponent is already the least. -/
def roundingInterval (f : Format) (m : Magnitude) : Interval :=
  let below := if m.coefficient = twoTo (f.precision - 1) ∧ f.leastExponent < m.exponent then 1 else 2
  ⟨4 * m.coefficient - below, 4 * m.coefficient + 2, m.coefficient % 2 == 0⟩

/-- The point of the decimal grid of step `10 ^ k` next to a magnitude that lies in its rounding
interval. -/
def gridPoint? (f : Format) (m : Magnitude) (k : Int) : Option Decimal :=
  let unit : Magnitude := ⟨1, m.exponent - 2⟩
  let up := unit.numerator * tenTo (-k).toNat
  let den := unit.denominator * tenTo k.toNat
  let num := 4 * m.coefficient * up
  let interval := (f.roundingInterval m).scale up
  let c := num / den
  let below := interval.contains (c * den)
  let above := interval.contains ((c + 1) * den)
  let nearer : Nat :=
    if num - c * den < (c + 1) * den - num then c
    else if (c + 1) * den - num < num - c * den then c + 1
    else if c % 2 = 0 then c else c + 1
  match below, above with
  | true, true => some ⟨nearer, k⟩
  | true, false => some ⟨c, k⟩
  | false, true => some ⟨c + 1, k⟩
  | false, false => none

/-- The shortest decimal that rounds to a positive magnitude, of at most `limit` digits. -/
def shortest? (f : Format) (limit : Nat) (m : Magnitude) : Option Decimal :=
  let e := floorLog10 m.numerator m.denominator
  (List.range limit).findSome? fun (n : Nat) => (f.gridPoint? m (e - n)).map Decimal.strip

end Format

namespace Single

/-- The shortest decimal that reads back as a finite number; nine digits always suffice. -/
def shortest? (x : Single) : Option Decimal :=
  match x.magnitude? with
  | none => none
  | some ⟨0, _⟩ => some ⟨0, 0⟩
  | some m => Format.single.shortest? 9 m

end Single

end Dialogue.Binary
