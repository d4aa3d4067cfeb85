/-!
# Rounding to a binary format

A magnitude is a coefficient times a power of two. A format says how many bits a coefficient has
and which powers of two its last place may be. `Format.round` takes a quotient of two numbers to
the nearest magnitude of the format, a tie to the even coefficient, in exact arithmetic.
-/

namespace Dialogue.Binary

def twoTo (k : Nat) : Nat := Nat.pow 2 k

def tenTo (k : Nat) : Nat := Nat.pow 10 k

/-- The number `coefficient * 2 ^ exponent`. -/
structure Magnitude where
  coefficient : Nat
  exponent : Int
deriving DecidableEq, Inhabited

namespace Magnitude

/-- Numerator of a magnitude as a quotient of numbers. -/
def numerator (m : Magnitude) : Nat := m.coefficient * twoTo m.exponent.toNat

/-- Denominator of a magnitude as a quotient of numbers. -/
def denominator (m : Magnitude) : Nat := twoTo (-m.exponent).toNat

end Magnitude

/-- The quotient of two numbers rounded to the nearest number, a half to the even one. -/
def roundQuotient (num den : Nat) : Nat :=
  let q := num / den
  let r := num % den
  if 2 * r < den then q
  else if den < 2 * r then q + 1
  else if q % 2 = 0 then q else q + 1

/-- The greatest `e` with `2 ^ e ≤ num / den`, for positive numbers. -/
def floorLog2 (num den : Nat) : Int :=
  let e : Int := (num.log2 : Int) - (den.log2 : Int)
  if den * twoTo e.toNat ≤ num * twoTo (-e).toNat then e else e - 1

/-- A binary format: the bits of a coefficient, and the exponents that its last place may have. -/
structure Format where
  precision : Nat
  leastExponent : Int
  mostExponent : Int

namespace Format

def single : Format := ⟨24, -149, 104⟩

def double : Format := ⟨53, -1074, 971⟩

/-- The magnitude of the format nearest to a quotient; `none` when it is too great. -/
def round (f : Format) (num den : Nat) : Option Magnitude :=
  if num = 0 then some ⟨0, f.leastExponent⟩
  else
    let q := max (floorLog2 num den - (f.precision - 1 : Nat)) f.leastExponent
    let m := roundQuotient (num * twoTo (-q).toNat) (den * twoTo q.toNat)
    let rounded : Magnitude := 
      if m = twoTo f.precision then ⟨twoTo (f.precision - 1), q + 1⟩ else ⟨m, q⟩
    if f.mostExponent < rounded.exponent then none else some rounded

/-- The product of two magnitudes, rounded. -/
def mul (f : Format) (a b : Magnitude) : Option Magnitude :=
  f.round (a.numerator * b.numerator) (a.denominator * b.denominator)

/-- The quotient of two magnitudes, rounded. -/
def div (f : Format) (a b : Magnitude) : Option Magnitude :=
  f.round (a.numerator * b.denominator) (a.denominator * b.numerator)

end Format

end Dialogue.Binary
