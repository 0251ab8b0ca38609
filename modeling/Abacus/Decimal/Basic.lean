import Abacus.Binary64.Rounding

/-!
# Decimals

A decimal is `coefficient * 10^exponent`. Reading one as a binary64 number rounds its exact value once.
-/

namespace Abacus

structure Decimal where
  coefficient : Nat
  exponent : Int
  deriving DecidableEq

namespace Decimal

/-! ## The value as a ratio -/

def num (d : Decimal) : Nat := d.coefficient * Nat.pow 10 d.exponent.toNat

def den (d : Decimal) : Nat := Nat.pow 10 (-d.exponent).toNat

/-- The magnitude nearest to the decimal, none if that is past the last one. -/
def magnitude? (d : Decimal) : Option Magnitude :=
  Magnitude.nearest? (d.num * Magnitude.unitsInOne) d.den

/-- The number nearest to the decimal, with the given sign. -/
def nearest (negative : Bool) (d : Decimal) : Binary64 :=
  Binary64.nearest negative (d.num * Magnitude.unitsInOne) d.den

theorem nearest_eq_finite {negative : Bool} {d : Decimal} {m : Magnitude} (h : d.magnitude? = some m) :
    d.nearest negative = .finite negative m :=
  Binary64.nearest_eq_finite h

/-! ## Digits -/

/-- The digits of the coefficient, `['0']` for zero. -/
def digits (d : Decimal) : List Char := Nat.toDigits 10 d.coefficient

/-- The power of ten that the first digit counts. -/
def leading (d : Decimal) : Int := d.exponent + d.digits.length - 1

/-- The same value without zeros at the end of the coefficient. -/
def trim (d : Decimal) : Decimal :=
  if d.coefficient = 0 then ⟨0, 0⟩
  else if d.coefficient % 10 = 0 then trim ⟨d.coefficient / 10, d.exponent + 1⟩
  else d
termination_by d.coefficient
decreasing_by omega

/-- The decimal that a numeral with a point writes. -/
def ofDigits (whole fraction : List Char) : Decimal :=
  ⟨Nat.ofDigitChars 10 (whole ++ fraction) 0, -fraction.length⟩

end Decimal

end Abacus
