import Abacus.Proofs.Arithmetic.Division
import Mathlib.Tactic.Zify

/-!
# Power

The tests of a power by the parts of a number are the conditions on its value, so that a power falls under the rule for
its operands.
-/

namespace Abacus

namespace Binary64

variable {x y z : Binary64}

/-! ## Integers -/

theorem value?_eq_some_iff {s : Bool} {m : Magnitude} {k : ℤ} :
    (finite s m).value? = some (k : ℚ) ↔ m.signed s = k * Magnitude.unitsInOne := by
  have hpos := Magnitude.unitsInOne_pos
  have hsigned : (if s then -m.value else m.value) = (m.signed s : ℚ) / Magnitude.unitsInOne := by
    cases s <;> simp [Magnitude.signed, Magnitude.value, neg_div]
  rw [value?, Option.some_inj, hsigned, div_eq_iff hpos.ne']
  norm_cast

theorem isInteger_iff : x.isInteger = true ↔ x.IsInteger := by
  cases x with
  | nan | infinite s => simp [isInteger, IsInteger, value?]
  | finite s m =>
      have hdvd : (Magnitude.unitsInOne : ℤ) ∣ m.signed s ↔ Magnitude.unitsInOne ∣ m.units := by
        cases s <;> simp [Magnitude.signed, Int.natCast_dvd_natCast]
      simp only [IsInteger, value?_eq_some_iff]
      rw [isInteger, beq_iff_eq, ← Nat.dvd_iff_mod_eq_zero, ← hdvd]
      constructor <;> rintro ⟨k, hk⟩ <;> exact ⟨k, hk.trans (mul_comm _ _)⟩

theorem mod_two_eq_iff {n unit : ℕ} (hu : 0 < unit) :
    n % (2 * unit) = unit ↔ ∃ k : ℤ, (n : ℤ) = (2 * k + 1) * unit := by
  constructor
  · intro h
    have hn : n / (2 * unit) * (2 * unit) + unit = n := by
      have := Nat.div_add_mod' n (2 * unit)
      rwa [h] at this
    generalize n / (2 * unit) = j at hn
    refine ⟨j, ?_⟩
    rw [← hn]
    push_cast
    ring
  · rintro ⟨k, hk⟩
    have hu' : (0 : ℤ) < unit := by exact_mod_cast hu
    have hnonneg : 0 ≤ 2 * k + 1 := nonneg_of_mul_nonneg_left (hk ▸ Int.natCast_nonneg n) hu'
    obtain ⟨j, rfl⟩ := Int.eq_ofNat_of_zero_le (by omega : 0 ≤ k)
    have hn : n = j * (2 * unit) + unit := by
      zify
      rw [hk]
      ring
    rw [hn, Nat.mul_add_mod_self_right, Nat.mod_eq_of_lt (by omega)]

theorem isOdd_iff : x.isOdd = true ↔ x.IsOddInteger := by
  cases x with
  | nan | infinite s => simp [isOdd, IsOddInteger, value?]
  | finite s m =>
      have hcast (k : ℤ) : (2 * k + 1 : ℚ) = ((2 * k + 1 : ℤ) : ℚ) := by push_cast; rfl
      simp only [IsOddInteger, hcast, value?_eq_some_iff]
      rw [isOdd, beq_iff_eq, mod_two_eq_iff (by decide)]
      cases s with
      | false => simp [Magnitude.signed]
      | true =>
          -- The opposite of 2k + 1 is 2(-k - 1) + 1.
          simp only [Magnitude.signed, if_true]
          constructor <;> rintro ⟨k, hk⟩ <;> exact ⟨-k - 1, by linarith⟩

theorem isPowerSign_iff {s sign : Bool} : IsPowerSign s y sign ↔ sign = (s && y.isOdd) := by
  rw [IsPowerSign, ← isOdd_iff, ← Bool.and_eq_true, ← Bool.eq_iff_iff]

/-! ## Signs -/

theorem isZero_iff : x.isZero = true ↔ ∃ t, x = .finite t .zero := by
  cases x with
  | nan | infinite => simp [isZero]
  | finite s m => simp [isZero, Magnitude.units_eq_zero_iff]

theorem lt_zero_iff : x.lt zero = true ↔ x.isZero = false ∧ x.isNaN = false ∧ x.isNegative = true := by
  cases x with
  | nan => simp [lt, compare?, isNegative]
  | infinite s => cases s <;> simp [lt, compare?, zero, isZero, isNaN, isNegative]
  | finite s m =>
      by_cases hm : m.units = 0
      · simp [lt, compare?, zero, isZero, hm, signed_zero, signed_eq_zero_iff.2 hm]
      · simp [finite_lt_zero hm, isZero, isNaN, isNegative, hm]

theorem zero_lt_finite {s : Bool} {m : Magnitude} (h : m.units ≠ 0) : zero.lt (finite s m) = !s := by
  have hlt : zero.lt (finite s m) = decide (0 < m.signed s) := by
    rw [Bool.eq_iff_iff]
    simp [lt, compare?, zero, signed_zero, Int.compare_eq_lt]
  rw [hlt]
  cases s with
  | true => simp [Magnitude.signed]
  | false => simpa [Magnitude.signed] using Nat.pos_of_ne_zero h

theorem zero_lt_iff : zero.lt x = true ↔ x.isZero = false ∧ x.isNaN = false ∧ x.isNegative = false := by
  cases x with
  | nan => simp [lt, compare?, isNaN, zero]
  | infinite s => cases s <;> simp [lt, compare?, zero, isZero, isNegative, isNaN]
  | finite s m =>
      by_cases hm : m.units = 0
      · simp [lt, compare?, zero, isZero, hm, signed_zero, signed_eq_zero_iff.2 hm]
      · simp [zero_lt_finite hm, isZero, isNaN, isNegative, hm]

/-! ## Special operands -/

theorem pow_exponent_zero (x : Binary64) (t : Bool) : x.pow (.finite t .zero) = one := by
  unfold pow
  rw [if_pos (isZero_iff.2 ⟨t, rfl⟩)]

theorem pow_base_one (y : Binary64) : one.pow y = one := by
  unfold pow
  rw [if_pos rfl, ite_self]

theorem pow_base_nan (hy : y.isZero = false) : nan.pow y = nan := by
  have hone : nan ≠ one := nofun
  unfold pow
  rw [hy, if_neg Bool.false_ne_true, if_neg hone]

theorem pow_exponent_nan (hx : x ≠ one) : x.pow nan = nan := by
  have hzero : nan.isZero = false := rfl
  unfold pow
  rw [hzero, if_neg Bool.false_ne_true, if_neg hx]
  cases x <;> rfl

theorem pow_base_infinite (s : Bool) (hy : y.isZero = false) (hnan : y.isNaN = false) :
    (infinite s).pow y = if y.isNegative then .finite (s && y.isOdd) .zero else .infinite (s && y.isOdd) := by
  have hone : infinite s ≠ one := nofun
  unfold pow
  rw [hy, if_neg Bool.false_ne_true, if_neg hone]
  cases y with
  | nan => cases hnan
  | infinite | finite => rfl

/-! ## Infinite exponents -/

/-- The power of a base to an infinite exponent, by the order of the magnitude of the base and one. -/
def infiniteExponent (t : Bool) : Ordering → Binary64
  | .lt => if t then .infinite false else zero
  | .eq => one
  | .gt => if t then zero else .infinite false

theorem pow_infinite {s : Bool} {m : Magnitude} (hone : finite s m ≠ one) {order : Ordering}
    (h : (finite s m).abs.compare? one = some order) (t : Bool) :
    (finite s m).pow (infinite t) = infiniteExponent t order := by
  have hzero : (infinite t).isZero = false := rfl
  unfold pow
  rw [hzero, if_neg Bool.false_ne_true, if_neg hone]
  generalize (finite s m).abs.compare? one = comparison at h ⊢
  subst h
  cases order <;> rfl

theorem value_one : Magnitude.one.value = 1 := by
  rw [Magnitude.value, units_one, div_self Magnitude.unitsInOne_pos.ne']

theorem ne_one_of_value_ne {s : Bool} {m : Magnitude} (h : m.value ≠ 1) : finite s m ≠ one := by
  rintro ⟨⟩
  exact h value_one

theorem pow_unit_infinite (s t : Bool) : (finite s .one).pow (infinite t) = one := by
  cases s with
  | false => exact pow_base_one (infinite t)
  | true =>
      have hone : finite true .one ≠ one := by decide
      have hcompare : (finite true .one).abs.compare? one = some .eq := by decide
      exact pow_infinite hone hcompare t

theorem pow_small_infinite {m : Magnitude} (h : m.value < 1) (s t : Bool) :
    (finite s m).pow (infinite t) = if t then .infinite false else zero := by
  have hunits : m.units < Magnitude.one.units := by rwa [← Magnitude.value_lt_value, value_one]
  have hcompare : (finite s m).abs.compare? one = some .lt :=
    congrArg some (Int.compare_eq_lt.2 (Int.ofNat_lt.2 hunits))
  exact pow_infinite (ne_one_of_value_ne h.ne) hcompare t

theorem pow_large_infinite {m : Magnitude} (h : 1 < m.value) (s t : Bool) :
    (finite s m).pow (infinite t) = if t then zero else .infinite false := by
  have hunits : Magnitude.one.units < m.units := by rwa [← Magnitude.value_lt_value, value_one]
  have hcompare : (finite s m).abs.compare? one = some .gt :=
    congrArg some (Int.compare_eq_gt.2 (Int.ofNat_lt.2 hunits))
  exact pow_infinite (ne_one_of_value_ne h.ne') hcompare t

theorem isPower_infinite (s t : Bool) (m : Magnitude) :
    IsPower (finite s m) (infinite t) ((finite s m).pow (infinite t)) := by
  rcases lt_trichotomy m.value 1 with h | h | h
  · rw [pow_small_infinite h]
    cases t with
    | true => exact .small_minus_infinite s h
    | false => exact .small_infinite s h
  · obtain rfl : m = .one := by
      rw [← value_one] at h
      exact Magnitude.value_inj.1 h
    rw [pow_unit_infinite]
    exact .unit_infinite s t
  · rw [pow_large_infinite h]
    cases t with
    | true => exact .large_minus_infinite s h
    | false => exact .large_infinite s h

/-! ## Finite exponents -/

theorem pow_base_zero (s : Bool) (hy : y.isZero = false) (hnan : y.isNaN = false) :
    (finite s .zero).pow y = if y.isNegative then .infinite (s && y.isOdd) else .finite (s && y.isOdd) .zero := by
  cases y with
  | nan => cases hnan
  | infinite t =>
      have hvalue : Magnitude.zero.value < 1 := by
        rw [Magnitude.value, Magnitude.units_zero, Nat.cast_zero, zero_div]
        exact zero_lt_one
      rw [pow_small_infinite hvalue]
      cases s <;> cases t <;> rfl
  | finite t n =>
      have hone : finite s .zero ≠ one := by cases s <;> decide
      unfold pow
      rw [hy, if_neg Bool.false_ne_true, if_neg hone]
      cases t <;> rfl

theorem pow_finite {s t : Bool} {m n : Magnitude} (hm : m ≠ .zero) (hn : n ≠ .zero) (hone : finite s m ≠ one) :
    (finite s m).pow (finite t n) = if s && !(finite t n).isInteger then nan
      else ofMagnitude? (s && (finite t n).isOdd) (m.pow? t n) := by
  have hfinite {s : Bool} {m : Magnitude} (hm : m ≠ .zero) : (finite s m).isZero = false :=
    beq_eq_false_iff_ne.2 fun h => hm (Magnitude.units_eq_zero_iff.1 h)
  unfold pow
  rw [hfinite hn, if_neg Bool.false_ne_true, if_neg hone]
  simp only [hfinite hm, if_neg Bool.false_ne_true]

/-- A base with a sign has no fractional power. -/
theorem not_fraction {s : Bool} (h : s = true → y.IsInteger) : ¬ (s && !y.isInteger) = true := by
  cases s with
  | false => exact Bool.false_ne_true
  | true => simp [isInteger_iff.2 (h rfl)]

theorem isPower_finite {s t : Bool} {m n : Magnitude} (hm : m ≠ .zero) (hn : n ≠ .zero) (hone : finite s m ≠ one) :
    IsPower (finite s m) (finite t n) ((finite s m).pow (finite t n)) := by
  rw [pow_finite hm hn hone]
  split
  case isTrue h =>
    simp only [Bool.and_eq_true, Bool.not_eq_true'] at h
    obtain ⟨rfl, hinteger⟩ := h
    refine .fraction t hm fun h => ?_
    rw [← isInteger_iff, hinteger] at h
    cases h
  case isFalse h =>
    have hinteger : s = true → (finite t n).IsInteger := by
      rintro rfl
      simpa [isInteger_iff] using h
    cases hp : m.pow? t n with
    | none => exact .overflow hm hn hone hinteger (isPowerSign_iff.2 rfl) hp
    | some p => exact .finite hm hn hone hinteger (isPowerSign_iff.2 rfl) hp

/-! ## The rules -/

theorem isNaN_eq_false_iff : x.isNaN = false ↔ x ≠ nan := by
  cases x <;> simp [isNaN]

/-- Every power falls under a rule. -/
theorem isPower_pow (x y : Binary64) : IsPower x y (x.pow y) := by
  cases hy : y.isZero with
  | true =>
      obtain ⟨t, rfl⟩ := isZero_iff.1 hy
      rw [pow_exponent_zero]
      exact .exponent_zero x t
  | false =>
      by_cases hone : x = one
      · rw [hone, pow_base_one]
        exact .base_one y
      by_cases hnan : y = nan
      · rw [hnan, pow_exponent_nan hone]
        exact .exponent_nan hone
      have hnan := isNaN_eq_false_iff.2 hnan
      have hnonzero (t : Bool) : y ≠ .finite t .zero := fun h => Bool.false_ne_true (hy ▸ isZero_iff.2 ⟨t, h⟩)
      have hbelow (h : y.isNegative = true) : y.lt .zero = true := lt_zero_iff.2 ⟨hy, hnan, h⟩
      have habove (h : y.isNegative = false) : Binary64.zero.lt y = true := zero_lt_iff.2 ⟨hy, hnan, h⟩
      cases x with
      | nan =>
          rw [pow_base_nan hy]
          exact .base_nan hnonzero
      | infinite s =>
          rw [pow_base_infinite s hy hnan]
          cases hneg : y.isNegative with
          | true => exact .infinite_below s (hbelow hneg) (isPowerSign_iff.2 rfl)
          | false => exact .infinite_above s (habove hneg) (isPowerSign_iff.2 rfl)
      | finite s m =>
          by_cases hm : m = .zero
          · rw [hm, pow_base_zero s hy hnan]
            cases hneg : y.isNegative with
            | true => exact .pole s (hbelow hneg) (isPowerSign_iff.2 rfl)
            | false => exact .base_zero s (habove hneg) (isPowerSign_iff.2 rfl)
          cases y with
          | nan => cases hnan
          | infinite t => exact isPower_infinite s t m
          | finite t n => exact isPower_finite hm (fun h => hnonzero t (by rw [h])) hone

/-- The rules agree with each other: all give the power. -/
theorem IsPower.eq_pow (h : IsPower x y z) : z = x.pow y := by
  cases h with
  | exponent_zero x t => rw [pow_exponent_zero]
  | base_one y => rw [pow_base_one]
  | base_nan hy =>
      rw [pow_base_nan]
      exact Bool.eq_false_iff.2 fun h => (isZero_iff.1 h).elim hy
  | exponent_nan hx => rw [pow_exponent_nan hx]
  | pole s hy hsign =>
      obtain ⟨hzero, hnan, hneg⟩ := lt_zero_iff.1 hy
      rw [pow_base_zero s hzero hnan, if_pos hneg, isPowerSign_iff.1 hsign]
  | base_zero s hy hsign =>
      obtain ⟨hzero, hnan, hneg⟩ := zero_lt_iff.1 hy
      rw [pow_base_zero s hzero hnan, hneg, if_neg Bool.false_ne_true, isPowerSign_iff.1 hsign]
  | infinite_below s hy hsign =>
      obtain ⟨hzero, hnan, hneg⟩ := lt_zero_iff.1 hy
      rw [pow_base_infinite s hzero hnan, if_pos hneg, isPowerSign_iff.1 hsign]
  | infinite_above s hy hsign =>
      obtain ⟨hzero, hnan, hneg⟩ := zero_lt_iff.1 hy
      rw [pow_base_infinite s hzero hnan, hneg, if_neg Bool.false_ne_true, isPowerSign_iff.1 hsign]
  | unit_infinite s t => rw [pow_unit_infinite]
  | small_infinite s hm => rw [pow_small_infinite hm]; rfl
  | small_minus_infinite s hm => rw [pow_small_infinite hm]; rfl
  | large_infinite s hm => rw [pow_large_infinite hm]; rfl
  | large_minus_infinite s hm => rw [pow_large_infinite hm]; rfl
  | @fraction t m n hm hn =>
      have hinteger : (Binary64.finite t n).isInteger = false := Bool.eq_false_iff.2 fun h => hn (isInteger_iff.1 h)
      have hzero : n ≠ .zero := by
        rintro rfl
        cases hinteger
      have hone : Binary64.finite true m ≠ one := nofun
      rw [pow_finite hm hzero hone, hinteger]
      rfl
  | finite hm hn hone hs hsign hp =>
      rw [pow_finite hm hn hone, if_neg (not_fraction hs), hp, isPowerSign_iff.1 hsign]
      rfl
  | overflow hm hn hone hs hsign hp =>
      rw [pow_finite hm hn hone, if_neg (not_fraction hs), hp, isPowerSign_iff.1 hsign]
      rfl

end Binary64

/-- Division, remainder and power yield a number for all operands, and it is the only one that the exact result
determines. -/
theorem Operator.attempt_arithmetic (x y : Binary64) :
    (∃ z, Operator.div.attempt x y = .ok z ∧ ∀ w, Binary64.IsQuotient x y w ↔ w = z) ∧
    (∃ z, Operator.rem.attempt x y = .ok z ∧ ∀ w, Binary64.IsRemainder x y w ↔ w = z) ∧
    (∃ z, Operator.pow.attempt x y = .ok z ∧ ∀ w, Binary64.IsPower x y w ↔ w = z) := by
  refine ⟨⟨x.div y, Binary64.attemptDiv_eq x y, fun w => ?_⟩, ⟨x.rem y, Binary64.attemptRem_eq x y, fun w => ?_⟩,
    ⟨x.pow y, Binary64.attemptPow_eq x y, fun w => ?_⟩⟩
  · exact ⟨Binary64.IsQuotient.eq_div, fun h => h ▸ Binary64.isQuotient_div x y⟩
  · exact ⟨Binary64.IsRemainder.eq_rem, fun h => h ▸ Binary64.isRemainder_rem x y⟩
  · exact ⟨Binary64.IsPower.eq_pow, fun h => h ▸ Binary64.isPower_pow x y⟩

end Abacus
