import Abacus.Binary64.Power
import Mathlib.Algebra.Order.Field.Rat
import Mathlib.Algebra.Order.Group.Abs

/-!
# Exact values

Finite numbers are rationals. What an operation should give is said here of the exact result, apart from how it is
formed: a quotient is the exact one rounded to the nearest number, a remainder is exact, and a power follows a table of
special cases.
-/

namespace Abacus

namespace Magnitude

/-- A magnitude as a rational. -/
def value (m : Magnitude) : ℚ := m.units / unitsInOne

/-- No magnitude is nearer to the rational, and if another one is as near, the significand is even. -/
structure IsNearest (q : ℚ) (m : Magnitude) : Prop where
  least (n : Magnitude) : |m.value - q| ≤ |n.value - q|
  even (n : Magnitude) : n ≠ m → |n.value - q| = |m.value - q| → m.significand % 2 = 0

end Magnitude

namespace Binary64

/-! ## Rounding -/

/-- Half a step beyond the last magnitude: from there on, results are infinite. -/
def overflowLimit : ℚ := 2 ^ 1023 * (2 - 1 / 2 ^ 53)

/-- A rational that is not negative, rounded and given a sign. -/
def Rounds (negative : Bool) (q : ℚ) : Binary64 → Prop
  | .nan => False
  | .infinite s => s = negative ∧ overflowLimit ≤ q
  | .finite s m => s = negative ∧ q < overflowLimit ∧ m.IsNearest q

/-! ## Division -/

/-- The quotient of two numbers. -/
inductive IsQuotient : Binary64 → Binary64 → Binary64 → Prop
  | nan_left (y : Binary64) : IsQuotient .nan y .nan
  | nan_right (x : Binary64) : IsQuotient x .nan .nan
  | infinite_infinite (s t : Bool) : IsQuotient (.infinite s) (.infinite t) .nan
  | infinite_finite (s t : Bool) (n : Magnitude) : IsQuotient (.infinite s) (.finite t n) (.infinite (s ^^ t))
  | finite_infinite (s t : Bool) (m : Magnitude) : IsQuotient (.finite s m) (.infinite t) (.finite (s ^^ t) .zero)
  | zero_zero (s t : Bool) : IsQuotient (.finite s .zero) (.finite t .zero) .nan
  | by_zero (s t : Bool) {m : Magnitude} : m ≠ .zero →
      IsQuotient (.finite s m) (.finite t .zero) (.infinite (s ^^ t))
  | ratio (s t : Bool) (m : Magnitude) {n : Magnitude} {z : Binary64} : n ≠ .zero →
      Rounds (s ^^ t) (m.value / n.value) z → IsQuotient (.finite s m) (.finite t n) z

/-- The remainder of two numbers: what a whole number of divisors leaves of the dividend, smaller than one divisor and with
the sign of the dividend. -/
inductive IsRemainder : Binary64 → Binary64 → Binary64 → Prop
  | nan_left (y : Binary64) : IsRemainder .nan y .nan
  | nan_right (x : Binary64) : IsRemainder x .nan .nan
  | infinite_left (s : Bool) (y : Binary64) : IsRemainder (.infinite s) y .nan
  | finite_infinite (s t : Bool) (m : Magnitude) : IsRemainder (.finite s m) (.infinite t) (.finite s m)
  | by_zero (s t : Bool) (m : Magnitude) : IsRemainder (.finite s m) (.finite t .zero) .nan
  | exact (s t : Bool) {m n r : Magnitude} (k : ℕ) : n ≠ .zero → m.value = k * n.value + r.value →
      r.value < n.value → IsRemainder (.finite s m) (.finite t n) (.finite s r)

/-! ## Powers -/

/-- The value of a finite number. -/
def value? : Binary64 → Option ℚ
  | .finite negative m => some (if negative then -m.value else m.value)
  | _ => none

def IsInteger (x : Binary64) : Prop := ∃ k : ℤ, x.value? = some (k : ℚ)

def IsOddInteger (x : Binary64) : Prop := ∃ k : ℤ, x.value? = some (2 * k + 1 : ℚ)

/-- A power has the sign of the base if the exponent is an odd integer, and otherwise none. -/
def IsPowerSign (baseSign : Bool) (exponent : Binary64) (sign : Bool) : Prop :=
  sign = true ↔ baseSign = true ∧ exponent.IsOddInteger

/-- The powers of numbers. What the machine gives for a positive base and an exponent, none of them special, is taken as
the magnitude of the power, and as an overflow if it is no magnitude. -/
inductive IsPower : Binary64 → Binary64 → Binary64 → Prop
  | exponent_zero (x : Binary64) (t : Bool) : IsPower x (.finite t .zero) .one
  | base_one (y : Binary64) : IsPower .one y .one
  | base_nan {y : Binary64} : (∀ t, y ≠ .finite t .zero) → IsPower .nan y .nan
  | exponent_nan {x : Binary64} : x ≠ .one → IsPower x .nan .nan
  | pole (s : Bool) {y : Binary64} {sign : Bool} : y.lt .zero = true → IsPowerSign s y sign →
      IsPower (.finite s .zero) y (.infinite sign)
  | base_zero (s : Bool) {y : Binary64} {sign : Bool} : Binary64.zero.lt y = true → IsPowerSign s y sign →
      IsPower (.finite s .zero) y (.finite sign .zero)
  | infinite_below (s : Bool) {y : Binary64} {sign : Bool} : y.lt .zero = true → IsPowerSign s y sign →
      IsPower (.infinite s) y (.finite sign .zero)
  | infinite_above (s : Bool) {y : Binary64} {sign : Bool} : Binary64.zero.lt y = true → IsPowerSign s y sign →
      IsPower (.infinite s) y (.infinite sign)
  | unit_infinite (s t : Bool) : IsPower (.finite s .one) (.infinite t) .one
  | small_infinite (s : Bool) {m : Magnitude} : m.value < 1 → IsPower (.finite s m) (.infinite false) .zero
  | small_minus_infinite (s : Bool) {m : Magnitude} : m.value < 1 →
      IsPower (.finite s m) (.infinite true) (.infinite false)
  | large_infinite (s : Bool) {m : Magnitude} : 1 < m.value → IsPower (.finite s m) (.infinite false) (.infinite false)
  | large_minus_infinite (s : Bool) {m : Magnitude} : 1 < m.value → IsPower (.finite s m) (.infinite true) .zero
  | fraction (t : Bool) {m n : Magnitude} : m ≠ .zero → ¬ (Binary64.finite t n).IsInteger →
      IsPower (.finite true m) (.finite t n) .nan
  | finite {s t sign : Bool} {m n p : Magnitude} : m ≠ .zero → n ≠ .zero → Binary64.finite s m ≠ .one →
      (s = true → (Binary64.finite t n).IsInteger) → IsPowerSign s (.finite t n) sign → m.pow? t n = some p →
      IsPower (.finite s m) (.finite t n) (.finite sign p)
  | overflow {s t sign : Bool} {m n : Magnitude} : m ≠ .zero → n ≠ .zero → Binary64.finite s m ≠ .one →
      (s = true → (Binary64.finite t n).IsInteger) → IsPowerSign s (.finite t n) sign → m.pow? t n = none →
      IsPower (.finite s m) (.finite t n) (.infinite sign)

end Binary64

end Abacus
