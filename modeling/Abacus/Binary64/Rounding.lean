import Abacus.Binary64.Basic

/-!
# Rounding

Every exact result is a ratio of naturals, in units of 2^-1074. It is rounded once, to the nearest magnitude, and of
two equally near to the one whose significand is even. What rounds past the last magnitude is infinite.
-/

namespace Abacus

/-- The natural number nearest to a ratio; of two equally near, the even one. -/
def roundDiv (num den : Nat) : Nat :=
  let quotient := num / den
  match compare (2 * (num % den)) den with
  | .lt => quotient
  | .eq => quotient + quotient % 2
  | .gt => quotient + 1

theorem div_le_roundDiv (num den : Nat) : num / den ≤ roundDiv num den := by
  unfold roundDiv; simp only; split <;> omega

theorem roundDiv_le (num den : Nat) : roundDiv num den ≤ num / den + 1 := by
  unfold roundDiv; simp only; split <;> omega

namespace Magnitude

theorem div_shiftLeft (num den n : Nat) : num / den <<< n = (num / den) >>> n := by
  rw [Nat.shiftLeft_eq, Nat.shiftRight_eq_div_pow, Nat.div_div_eq_div_mul]

/-- The places by which `n` is shifted right to leave at most 53 binary digits. -/
def excess (n : Nat) : Nat := n.log2 - 52

theorem shiftRight_excess_lt (n : Nat) : n >>> excess n < 1 <<< 53 := by
  rw [Nat.shiftRight_eq_div_pow, Nat.one_shiftLeft, Nat.div_lt_iff_lt_mul (Nat.two_pow_pos _), ← Nat.pow_add]
  exact Nat.lt_of_lt_of_le Nat.lt_log2_self (Nat.pow_le_pow_right (by decide) (by simp only [excess]; omega))

theorem le_shiftRight_excess {n : Nat} (h : excess n ≠ 0) : 1 <<< 52 ≤ n >>> excess n := by
  have hn : n ≠ 0 := by intro hn; subst hn; exact h (by decide)
  rw [Nat.shiftRight_eq_div_pow, Nat.one_shiftLeft, Nat.le_div_iff_mul_le (Nat.two_pow_pos _), ← Nat.pow_add]
  refine Nat.le_trans (Nat.pow_le_pow_right (by decide) ?_) (Nat.log2_self_le hn)
  simp only [excess] at h ⊢; omega

/-- Rounding carries into one digit more at the most, and then leaves a power of two. -/
theorem roundDiv_excess_le (num den : Nat) : roundDiv num (den <<< excess (num / den)) ≤ 1 <<< 53 := by
  have h := roundDiv_le num (den <<< excess (num / den))
  rw [div_shiftLeft] at h
  exact Nat.le_trans h (shiftRight_excess_lt (num / den))

/-- The magnitude nearest to `num / den` units, none if that is past the last one. Irreducible: what builds on it uses
its laws, and unification must not compute with numbers of this size. -/
@[irreducible] def nearest? (num den : Nat) : Option Magnitude :=
  let shift := excess (num / den)
  let significand := roundDiv num (den <<< shift)
  if hs : significand < 1 <<< 53 then
    if he : shift ≤ 2045 then
      some ⟨significand, shift, hs, he, by
        by_cases h : shift = 0
        · exact .inl h
        · refine .inr (Nat.le_trans (le_shiftRight_excess h) ?_)
          rw [← div_shiftLeft]; exact div_le_roundDiv ..⟩
    else none
  else if he : shift + 1 ≤ 2045 then
    some (leastFull (shift + 1) he)
  else none

end Magnitude

namespace Binary64

/-- A number from its magnitude, infinite without one. -/
def ofMagnitude? (negative : Bool) : Option Magnitude → Binary64
  | some m => .finite negative m
  | none => .infinite negative

/-- The number nearest to `num / den` units, with the given sign. -/
def nearest (negative : Bool) (num den : Nat) : Binary64 := ofMagnitude? negative (Magnitude.nearest? num den)

theorem nearest_eq_finite {negative : Bool} {num den : Nat} {m : Magnitude}
    (h : Magnitude.nearest? num den = some m) : nearest negative num den = .finite negative m := by
  rw [nearest, h, ofMagnitude?]

end Binary64

end Abacus
