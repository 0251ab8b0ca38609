import Abacus.Binary64.Bits
import Abacus.Binary64.Rounding

/-!
# Powers

The special cases are written out: they fix every result in which an operand is zero, infinite or NaN, and the sign of
every other. What is left is the power of a positive number to a finite exponent, which the machine computes. The word
that it yields counts as an overflow if it is no finite number.
-/

namespace Abacus

namespace Magnitude

/-- The machine's number with the given sign. -/
def machine (negative : Bool) (m : Magnitude) : Float :=
  Float.ofBits (UInt64.ofNat (negative.toNat <<< 63 + m.toBits))

/-- The machine's power of a positive base, none if it is past the last magnitude. -/
def pow? (base : Magnitude) (negative : Bool) (exponent : Magnitude) : Option Magnitude :=
  ofBits? ((base.machine false).pow (exponent.machine negative)).toBits.toNat

end Magnitude

namespace Binary64

/-- The power of an infinite base, or of zero to the negated exponent: only an odd exponent keeps the sign. -/
def infinitePow (negative : Bool) (exponent : Binary64) : Binary64 :=
  let sign := negative && exponent.isOdd
  if exponent.isNegative then .finite sign .zero else .infinite sign

def pow (base exponent : Binary64) : Binary64 :=
  if exponent.isZero then one
  else if base = one then one
  else match base, exponent with
    | .nan, _ | _, .nan => .nan
    | .infinite s, _ => infinitePow s exponent
    | .finite _ _, .infinite t =>
      match base.abs.compare? one with
      | some .eq => one
      | some .lt => if t then .infinite false else zero
      | _ => if t then zero else .infinite false
    | .finite s m, .finite t n =>
      if base.isZero then infinitePow s exponent.neg
      else if s && !exponent.isInteger then .nan
      else ofMagnitude? (s && exponent.isOdd) (m.pow? t n)

end Binary64

end Abacus
