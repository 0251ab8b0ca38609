/-!
# Binary64 numbers

A finite number is a sign and a magnitude. A magnitude counts units of 2^-1074, the least positive number: a
significand of at most 53 binary digits, shifted left. A shifted significand has all its 53 digits, so that every
magnitude is written in one way.
-/

namespace Abacus

structure Magnitude where
  significand : Nat
  shift : Nat
  significand_lt : significand < 1 <<< 53
  shift_le : shift ≤ 2045
  full : shift = 0 ∨ 1 <<< 52 ≤ significand
  deriving DecidableEq

namespace Magnitude

/-- The magnitude as a count of units of 2^-1074. -/
def units (m : Magnitude) : Nat := m.significand <<< m.shift

/-- The same count with a sign. -/
def signed (negative : Bool) (m : Magnitude) : Int := if negative then -m.units else m.units

/-- A small count of units, without a shift. -/
def unshifted (count : Nat) (h : count < 1 <<< 53) : Magnitude := ⟨count, 0, h, by decide, .inl rfl⟩

/-- The least magnitude with the given shift and a full significand: a power of two. -/
def leastFull (shift : Nat) (h : shift ≤ 2045) : Magnitude := ⟨1 <<< 52, shift, by decide, h, .inr (Nat.le_refl _)⟩

def zero : Magnitude := unshifted 0 (by decide)

def one : Magnitude := leastFull 1022 (by decide)

/-- The number of units in one. -/
def unitsInOne : Nat := 1 <<< 1074

end Magnitude

/-- NaN carries no sign and no payload; zero has a sign. -/
inductive Binary64 where
  | nan
  | infinite (negative : Bool)
  | finite (negative : Bool) (magnitude : Magnitude)
  deriving DecidableEq

namespace Binary64

instance : Inhabited Binary64 := ⟨nan⟩

def zero : Binary64 := .finite false .zero

def one : Binary64 := .finite false .one

def isNaN : Binary64 → Bool
  | .nan => true
  | _ => false

/-- Whether the sign is set, which it may be on a zero. -/
def isNegative : Binary64 → Bool
  | .nan => false
  | .infinite negative | .finite negative _ => negative

/-- Either of the two zeros. -/
def isZero : Binary64 → Bool
  | .finite _ m => m.units == 0
  | _ => false

/-- The number with its sign replaced. -/
def withSign (negative : Bool) : Binary64 → Binary64
  | .nan => .nan
  | .infinite _ => .infinite negative
  | .finite _ m => .finite negative m

def neg (x : Binary64) : Binary64 := x.withSign (!x.isNegative)

def abs (x : Binary64) : Binary64 := x.withSign false

/-- A finite number without a fraction. -/
def isInteger : Binary64 → Bool
  | .finite _ m => m.units % Magnitude.unitsInOne == 0
  | _ => false

def isOdd : Binary64 → Bool
  | .finite _ m => m.units % (2 * Magnitude.unitsInOne) == Magnitude.unitsInOne
  | _ => false

/-! ## Order -/

/-- The order of two numbers, none beside NaN. The two zeros are equal. -/
def compare? : Binary64 → Binary64 → Option Ordering
  | .nan, _ | _, .nan => none
  | .infinite s, .infinite t => some (compare t s)
  | .infinite s, .finite _ _ => some (if s then .lt else .gt)
  | .finite _ _, .infinite t => some (if t then .gt else .lt)
  | .finite s m, .finite t n => some (compare (m.signed s) (n.signed t))

def lt (x y : Binary64) : Bool := x.compare? y == some .lt

def le (x y : Binary64) : Bool := x.lt y || x.compare? y == some .eq

/-- Equality of values: NaN equals nothing, and the two zeros are equal. -/
def same (x y : Binary64) : Bool := x.compare? y == some .eq

/-! ## Signs -/

theorem withSign_withSign (s t : Bool) (x : Binary64) : (x.withSign t).withSign s = x.withSign s := by
  cases x <;> rfl

theorem neg_neg (x : Binary64) : x.neg.neg = x := by
  cases x <;> simp [neg, withSign, isNegative]

end Binary64

end Abacus
