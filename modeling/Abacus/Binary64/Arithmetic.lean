import Abacus.Binary64.Rounding

/-!
# Arithmetic

Each operation forms the exact result over units of 2^-1074 and rounds it once. Results that are no ratio are given
case by case: NaN for an undefined operation, and a zero or an infinity with the sign that the operands determine.
-/

namespace Abacus.Binary64

/-- A sum of zero is negative only if both terms are. -/
def add : Binary64 → Binary64 → Binary64
  | .nan, _ | _, .nan => .nan
  | .infinite s, .infinite t => if s = t then .infinite s else .nan
  | .infinite s, .finite _ _ => .infinite s
  | .finite _ _, .infinite t => .infinite t
  | .finite s m, .finite t n =>
    let sum := m.signed s + n.signed t
    if sum = 0 then .finite (s && t) .zero else nearest (decide (sum < 0)) sum.natAbs 1

def sub (x y : Binary64) : Binary64 := x.add y.neg

def mul : Binary64 → Binary64 → Binary64
  | .nan, _ | _, .nan => .nan
  | .infinite s, .infinite t => .infinite (s ^^ t)
  | .infinite s, .finite t n => if n.units = 0 then .nan else .infinite (s ^^ t)
  | .finite s m, .infinite t => if m.units = 0 then .nan else .infinite (s ^^ t)
  | .finite s m, .finite t n => nearest (s ^^ t) (m.units * n.units) Magnitude.unitsInOne

/-- A quotient by zero is infinite, unless the dividend is zero too. -/
def div : Binary64 → Binary64 → Binary64
  | .nan, _ | _, .nan => .nan
  | .infinite _, .infinite _ => .nan
  | .infinite s, .finite t _ => .infinite (s ^^ t)
  | .finite s _, .infinite t => .finite (s ^^ t) .zero
  | .finite s m, .finite t n =>
    if n.units = 0 then
      if m.units = 0 then .nan else .infinite (s ^^ t)
    else nearest (s ^^ t) (m.units * Magnitude.unitsInOne) n.units

/-- The remainder of the division that rounds toward zero: it takes the sign of the dividend. -/
def rem : Binary64 → Binary64 → Binary64
  | .nan, _ | _, .nan => .nan
  | .infinite _, _ => .nan
  | .finite s m, .infinite _ => .finite s m
  | .finite s m, .finite _ n => if n.units = 0 then .nan else nearest s (m.units % n.units) 1

end Abacus.Binary64
