import Abacus.Attempt.Tokens
import Abacus.Operator

/-!
# Attempts to apply operators

A quotient, and two functions of the mathematical library, are not given for all operands. Division and remainder test
their operands before; the power puts a value in the place of one that the library refuses to give.
-/

namespace Abacus

namespace Binary64

def isInfinite : Binary64 → Bool
  | .infinite _ => true
  | _ => false

def isFinite : Binary64 → Bool
  | .finite _ _ => true
  | _ => false

/-- The number with the sign of another. -/
def copySign (x sign : Binary64) : Binary64 := x.withSign sign.isNegative

/-! ## The library -/

/-- The quotient by a number other than zero. -/
def quotient (x y : Binary64) : Except Breakdown Binary64 :=
  if y.isZero then .error .divisionByZero else .ok (x.div y)

/-- The remainder, refused for an infinite dividend and for the divisor zero. A NaN is passed on first. -/
def fmod (x y : Binary64) : Except Breakdown Binary64 :=
  if (x.isInfinite || y.isZero) && !x.isNaN && !y.isNaN then .error .mathDomain else .ok (x.rem y)

/-- The power. That of finite operands is refused if it is not finite: an infinite one counts as an overflow, except
that of zero. -/
def power (x y : Binary64) : Except Breakdown Binary64 :=
  let z := x.pow y
  if x.isFinite && y.isFinite && !z.isFinite then
    .error (if z.isNaN || x.isZero then .mathDomain else .mathOverflow)
  else .ok z

/-- The remainder of the division that rounds down: it takes the sign of the divisor, which is not zero. -/
def floorRem (x y : Binary64) : Binary64 :=
  let r := x.rem y
  if r.isZero then copySign zero y
  else if y.lt zero != r.lt zero then r.add y
  else r

/-! ## The operators -/

def two : Binary64 := .finite false (.leastFull 1023 (by decide))

/-- Whether a number is an odd integer: one is left of it by two. -/
def leavesOne (x : Binary64) : Bool := x.isInteger && (x.floorRem two).same one

def attemptDiv (x y : Binary64) : Except Breakdown Binary64 :=
  if y.same zero then
    if x.same zero || x.isNaN then .ok .nan
    else .ok ((copySign (.infinite false) x).mul (copySign one y))
  else x.quotient y

def attemptRem (x y : Binary64) : Except Breakdown Binary64 :=
  if y.same zero || x.isInfinite then .ok .nan else x.fmod y

def attemptPow (x y : Binary64) : Except Breakdown Binary64 :=
  match x.power y with
  | .error .mathOverflow => .ok (if x.lt zero && y.leavesOne then .infinite true else .infinite false)
  | .error .mathDomain =>
    if x.same zero then .ok (if y.leavesOne then copySign (.infinite false) x else .infinite false)
    else .ok .nan
  | other => other

end Binary64

def Operator.attempt (op : Operator) (x y : Binary64) : Except Breakdown Binary64 :=
  match op with
  | .div => x.attemptDiv y
  | .rem => x.attemptRem y
  | .pow => x.attemptPow y
  | op => .ok (op.apply x y)

end Abacus
