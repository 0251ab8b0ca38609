import Abacus.Attempt.Operators
import Abacus.Proofs.Numeral.Rounding

/-!
# Attempts to apply operators do not break down

The tests of division and remainder leave only operands for which the library gives a result. What the power puts in the
place of a refused result is the power in the arithmetic of binary64, in which every power has a value.
-/

namespace Abacus

namespace Binary64

variable {x y : Binary64}

/-! ## Zero -/

theorem signed_eq_zero_iff {s : Bool} {m : Magnitude} : m.signed s = 0 ↔ m.units = 0 := by
  cases s <;> simp [Magnitude.signed]

theorem signed_zero : Magnitude.zero.signed false = 0 := signed_eq_zero_iff.2 (by decide)

theorem same_zero (x : Binary64) : x.same zero = x.isZero := by
  cases x with
  | nan => rfl
  | infinite s => cases s <;> rfl
  | finite s m =>
      rw [Bool.eq_iff_iff]
      simp [same, compare?, zero, isZero, signed_zero, signed_eq_zero_iff]

/-- A finite number other than zero is below zero if it has a sign. -/
theorem finite_lt_zero {s : Bool} {m : Magnitude} (h : m.units ≠ 0) : (finite s m).lt zero = s := by
  have hlt : (finite s m).lt zero = decide (m.signed s < 0) := by
    rw [Bool.eq_iff_iff]
    simp [lt, compare?, zero, signed_zero, Int.compare_eq_lt]
  rw [hlt]
  cases s with
  | true =>
      have hneg : -(m.units : Int) < 0 := by omega
      simpa [Magnitude.signed] using hneg
  | false =>
      have hpos : ¬ (m.units : Int) < 0 := by omega
      simp [Magnitude.signed]

theorem isOdd_neg (x : Binary64) : x.neg.isOdd = x.isOdd := by
  cases x <;> rfl

/-! ## Odd numbers -/

theorem nearest_units (s : Bool) (m : Magnitude) : nearest s m.units 1 = .finite s m :=
  nearest_eq_finite m.nearest?_units

theorem units_one : Magnitude.one.units = Magnitude.unitsInOne := by decide

theorem units_two : (Magnitude.leastFull 1023 (by decide)).units = 2 * Magnitude.unitsInOne := by decide

theorem rem_two (s : Bool) (m : Magnitude) :
    (finite s m).rem two = nearest s (m.units % (2 * Magnitude.unitsInOne)) 1 := by
  have hne : Magnitude.units (.leastFull 1023 (by decide)) ≠ 0 := by decide
  rw [two, rem, if_neg hne, units_two]

theorem floorRem_two_of_even {s : Bool} {m : Magnitude} (h : m.units % (2 * Magnitude.unitsInOne) = 0) :
    (finite s m).floorRem two = zero := by
  have hrem : (finite s m).rem two = .finite s .zero := by
    rw [rem_two, h]
    exact nearest_units s .zero
  rw [floorRem, hrem]
  rfl

theorem floorRem_two_of_odd {s : Bool} {m : Magnitude}
    (h : m.units % (2 * Magnitude.unitsInOne) = Magnitude.unitsInOne) : (finite s m).floorRem two = one := by
  have hrem : (finite s m).rem two = .finite s .one := by
    rw [rem_two, h, ← units_one]
    exact nearest_units s .one
  have hsum : (finite true .one).add two = one := by
    have hvalue : Magnitude.one.signed true + Magnitude.signed false (.leastFull 1023 (by decide)) =
        (Magnitude.one.units : Int) := by decide
    have hne : (Magnitude.one.units : Int) ≠ 0 := by decide
    rw [two, add]
    simp only [hvalue, if_neg hne]
    exact nearest_units false .one
  have hzero : Magnitude.one.units ≠ 0 := by decide
  have htwo : Magnitude.units (.leastFull 1023 (by decide)) ≠ 0 := by decide
  have hsign : two.lt zero = false := finite_lt_zero htwo
  simp only [floorRem, hrem, isZero, beq_eq_false_iff_ne.2 hzero, finite_lt_zero hzero, hsign]
  cases s with
  | true => simpa using hsum
  | false => rfl

theorem mod_two_of_integer {n unit : Nat} (h : n % unit = 0) : n % (2 * unit) = 0 ∨ n % (2 * unit) = unit := by
  rw [Nat.mul_comm, Nat.mod_mul, h, Nat.zero_add]
  rcases Nat.mod_two_eq_zero_or_one (n / unit) with h | h <;> simp [h]

/-- What is left of an integer by two is one if the integer is odd, and zero otherwise. -/
theorem leavesOne_eq (x : Binary64) : x.leavesOne = x.isOdd := by
  cases x with
  | nan | infinite s => rfl
  | finite s m =>
      rw [leavesOne, isInteger, isOdd]
      by_cases hint : m.units % Magnitude.unitsInOne = 0
      · rcases mod_two_of_integer hint with h | h
        · have hzero : (0 == Magnitude.unitsInOne) = false := by decide
          rw [floorRem_two_of_even h, h, hint, hzero]
          decide
        · rw [floorRem_two_of_odd h, h, hint, beq_self_eq_true]
          decide
      · have hodd : m.units % (2 * Magnitude.unitsInOne) ≠ Magnitude.unitsInOne := by
          intro h
          rw [← Nat.mod_mul_left_mod m.units 2, h, Nat.mod_self] at hint
          exact hint rfl
        rw [beq_eq_false_iff_ne.2 hint, beq_eq_false_iff_ne.2 hodd, Bool.false_and]

/-! ## Operators -/

theorem attemptDiv_eq (x y : Binary64) : x.attemptDiv y = .ok (x.div y) := by
  rw [attemptDiv, same_zero, same_zero, quotient]
  cases hy : y.isZero with
  | false => rfl
  | true =>
      have hone : Magnitude.one.units ≠ 0 := by decide
      cases y with
      | nan | infinite => cases hy
      | finite t n =>
          have hn : n.units = 0 := by simpa [isZero] using hy
          cases x with
          | nan | infinite s => rfl
          | finite s m =>
              by_cases hm : m.units = 0 <;>
                simp [isZero, isNaN, div, hm, hn, hone, mul, copySign, withSign, isNegative, one]

theorem attemptRem_eq (x y : Binary64) : x.attemptRem y = .ok (x.rem y) := by
  rw [attemptRem, same_zero, fmod, Bool.or_comm]
  cases hxy : x.isInfinite || y.isZero with
  | false => rfl
  | true =>
      -- The library would refuse such operands, or pass on a NaN among them.
      have hrem : x.rem y = .nan := by
        cases x <;> cases y <;> simp_all [rem, isInfinite, isZero]
      rw [hrem]
      rfl

/-- A power of finite numbers is finite, except for a pole at zero, a fractional power of a negative number, and one that
is too large. -/
theorem pow_cases (s t : Bool) (m n : Magnitude) :
    ((finite s m).pow (finite t n)).isFinite = true ∨
    (m.units ≠ 0 ∧ (finite s m).pow (finite t n) = .nan) ∨
    (finite s m).pow (finite t n) = .infinite (s && (finite t n).isOdd) := by
  unfold pow
  split
  · exact .inl rfl
  · split
    · exact .inl rfl
    · by_cases hm : m.units = 0
      · simp only [isZero, hm, beq_self_eq_true, if_true, infinitePow, isOdd_neg]
        cases t with
        | true => exact .inr (.inr rfl)
        | false => exact .inl rfl
      · simp only [isZero, beq_eq_false_iff_ne.2 hm, Bool.false_eq_true, if_false]
        split
        · exact .inr (.inl ⟨hm, rfl⟩)
        · cases m.pow? t n with
          | none => exact .inr (.inr rfl)
          | some p => exact .inl rfl

theorem attemptPow_eq (x y : Binary64) : x.attemptPow y = .ok (x.pow y) := by
  cases hr : x.isFinite && y.isFinite && !(x.pow y).isFinite with
  | false => simp [attemptPow, power, hr]
  | true =>
      cases x with
      | nan | infinite s => cases hr
      | finite s m =>
          cases y with
          | nan | infinite t => cases hr
          | finite t n =>
              rw [attemptPow, leavesOne_eq, power, if_pos hr]
              rcases pow_cases s t m n with hp | ⟨hm, hp⟩ | hp
              · simp [hp] at hr
              · have hz : (finite s m).isZero = false := beq_eq_false_iff_ne.2 hm
                simp [hp, isNaN, same_zero, hz]
              · by_cases hm : m.units = 0
                · have hz : (finite s m).isZero = true := beq_iff_eq.2 hm
                  simp only [hp, isNaN, hz, Bool.false_or, if_true, same_zero]
                  cases (finite t n).isOdd <;> cases s <;> rfl
                · have hz : (finite s m).isZero = false := beq_eq_false_iff_ne.2 hm
                  simp only [hp, isNaN, hz, Bool.or_false, Bool.false_eq_true, if_false, finite_lt_zero hm]
                  cases (finite t n).isOdd <;> cases s <;> rfl

end Binary64

theorem Operator.attempt_eq (op : Operator) (x y : Binary64) : op.attempt x y = .ok (op.apply x y) := by
  cases op with
  | div => exact Binary64.attemptDiv_eq x y
  | rem => exact Binary64.attemptRem_eq x y
  | pow => exact Binary64.attemptPow_eq x y
  | lt | le | gt | ge | eq | ne | add | sub | mul => rfl

end Abacus
