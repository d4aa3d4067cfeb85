import Dialogue.Binary.Magnitude

/-!
# Numbers of single precision

A `Single` is the thirty-two bits of a sign, an exponent field and a fraction. `pack` and
`magnitude?` go between the bits and the magnitude that they stand for.
-/

namespace Dialogue.Binary

/-- A binary number of single precision, as its bits. -/
structure Single where
  bits : UInt32
deriving DecidableEq, Inhabited

namespace Single

def zero : Single := ⟨0⟩

def isNegative (x : Single) : Bool := 0x80000000 ≤ x.bits.toNat

def exponentField (x : Single) : Nat := x.bits.toNat / 0x800000 % 0x100

/-- The twenty-three bits of the fraction. -/
def fractionField (x : Single) : Nat := x.bits.toNat % 0x800000

/-- Neither infinite nor undefined. -/
def isFinite (x : Single) : Bool := x.exponentField != 255

/-- The magnitude of a finite number. The exponent field zero stands for the least exponent without
the hidden leading bit. -/
def magnitude? (x : Single) : Option Magnitude :=
  if x.exponentField = 255 then none
  else if x.exponentField = 0 then some ⟨x.fractionField, -149⟩
  else some ⟨0x800000 + x.fractionField, (x.exponentField : Int) - 150⟩

/-- The bits of a signed magnitude of the format; a magnitude that is too great is infinite. Adding
the coefficient lets its leading bit raise the exponent field by one. -/
def pack (negative : Bool) (m : Option Magnitude) : Single :=
  let body := match m with
    | none => 255 * 0x800000
    | some m => (m.exponent + 149).toNat * 0x800000 + m.coefficient
  ⟨UInt32.ofNat ((if negative then 0x80000000 else 0) + body)⟩

/-- The single nearest to a signed quotient. -/
def ofQuotient (negative : Bool) (num den : Nat) : Single :=
  pack negative (Format.single.round num den)

/-- The single nearest to a signed magnitude. -/
def ofMagnitude (negative : Bool) (m : Magnitude) : Single :=
  ofQuotient negative m.numerator m.denominator

end Single

end Dialogue.Binary
