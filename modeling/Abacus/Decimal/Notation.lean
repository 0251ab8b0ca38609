import Abacus.Decimal.Basic

/-!
# Notation

A decimal is written in positional notation, with digits on both sides of the point, or in scientific notation, with one
digit before the point and a signed exponent of at least two digits.
-/

namespace Abacus.Decimal

/-- The digits before and after the point, at least one of each. -/
def positionalDigits (d : Decimal) : List Char × List Char :=
  if 0 ≤ d.exponent then (d.digits ++ List.replicate d.exponent.toNat '0', ['0'])
  else
    let places := (-d.exponent).toNat
    let padded := List.replicate (places + 1 - d.digits.length) '0' ++ d.digits
    padded.splitAt (padded.length - places)

def positional (d : Decimal) : List Char :=
  d.positionalDigits.1 ++ '.' :: d.positionalDigits.2

def scientific (d : Decimal) : List Char :=
  let mantissa := match d.digits with
    | first :: second :: rest => first :: '.' :: second :: rest
    | digits => digits
  let power := Nat.toDigits 10 d.leading.natAbs
  mantissa ++ 'e' :: (if d.leading < 0 then '-' else '+') :: List.replicate (2 - power.length) '0' ++ power

end Abacus.Decimal
