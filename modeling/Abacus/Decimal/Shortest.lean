import Abacus.Decimal.Basic

/-!
# The shortest decimal that reads back

A magnitude is written with the fewest digits that read back as it. On the grid of decimals with that many digits
only the two neighbours of the magnitude can do so: if any grid point does, one of them does. Of two that do, the
nearer is taken, and of two equally near the even one. Seventeen digits are always enough; the exact expansion stands
behind the search.
-/

namespace Abacus.Magnitude

/-- The power of ten that the first digit of a positive magnitude counts. The least magnitude lies above 10^-324. -/
def leadingPower (m : Magnitude) : Int :=
  (Nat.toDigits 10 (m.units * Nat.pow 10 324 / unitsInOne)).length - 325

/-- The magnitude in steps of `10^exponent`, as a ratio. -/
def inSteps (m : Magnitude) (exponent : Int) : Nat × Nat :=
  (m.units * Nat.pow 10 (-exponent).toNat, unitsInOne * Nat.pow 10 exponent.toNat)

/-- The neighbours with `count` digits, the nearer first, or the even one if they are equally near. -/
def neighbours (m : Magnitude) (count : Nat) : List Decimal :=
  let exponent := m.leadingPower + 1 - count
  let (num, den) := m.inSteps exponent
  let below : Decimal := ⟨num / den, exponent⟩
  let above : Decimal := ⟨num / den + 1, exponent⟩
  if roundDiv num den = num / den then [below, above] else [above, below]

/-- Every binary fraction ends in decimal notation. -/
def exact (m : Magnitude) : Decimal := ⟨m.units * Nat.pow 5 1074, -1074⟩

def shortest (m : Magnitude) : Decimal :=
  let candidates := (List.range 17).flatMap fun i => m.neighbours (i + 1)
  ((candidates.find? fun d => d.magnitude? == some m).getD m.exact).trim

end Abacus.Magnitude
