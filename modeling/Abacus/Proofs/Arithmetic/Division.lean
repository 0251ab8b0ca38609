import Abacus.Proofs.Arithmetic.Rounding
import Abacus.Proofs.Attempt.Operators

/-!
# Division and remainder

The exact quotient is a ratio of units, which is rounded once. The remainder needs no rounding: it is a magnitude itself.
-/

namespace Abacus

namespace Magnitude

variable {m n : Magnitude}

theorem units_zero : zero.units = 0 := rfl

theorem units_eq_zero_iff : m.units = 0 ↔ m = zero := by
  constructor
  · exact fun h => units_inj h
  · rintro rfl
    rfl

/-- Every number of at most 53 binary digits in front of zeros is a magnitude. -/
theorem exists_units_eq {count shift : ℕ} (hc : count < 2 ^ 53) (hs : shift ≤ 2045) :
    ∃ m : Magnitude, m.units = count * 2 ^ shift := by
  induction shift generalizing count with
  | zero => exact ⟨unshifted count (by simpa using hc), by simp [units, unshifted]⟩
  | succ shift ih =>
      by_cases hfull : 2 ^ 52 ≤ count
      · exact ⟨⟨count, shift + 1, by simpa using hc, hs, .inr (by simpa using hfull)⟩, Nat.shiftLeft_eq _ _⟩
      · have hdouble : 2 * count < 2 ^ 53 := by omega
        obtain ⟨m, hm⟩ := ih hdouble (by omega)
        exact ⟨m, by rw [hm, pow_succ]; ring⟩

/-- A remainder has no more binary digits than the operand with the smaller shift. -/
theorem exists_units_eq_mod (m n : Magnitude) (hn : n ≠ zero) : ∃ r : Magnitude, r.units = m.units % n.units := by
  have hpos : 0 < n.units := Nat.pos_of_ne_zero fun h => hn (units_eq_zero_iff.1 h)
  rcases Nat.le_total m.shift n.shift with h | h
  · have hmod : m.units % n.units = m.significand % (n.significand * 2 ^ (n.shift - m.shift)) * 2 ^ m.shift := by
      rw [units_of_le_shift h, units_eq, Nat.mul_mod_mul_right]
    rw [hmod]
    exact exists_units_eq (Nat.lt_of_le_of_lt (Nat.mod_le _ _) m.significand_lt_two_pow) m.shift_le
  · have hmod : m.units % n.units = m.significand * 2 ^ (m.shift - n.shift) % n.significand * 2 ^ n.shift := by
      rw [units_of_le_shift h, n.units_eq, Nat.mul_mod_mul_right]
    have hsig : 0 < n.significand := Nat.pos_of_mul_pos_right (n.units_eq ▸ hpos)
    rw [hmod]
    exact exists_units_eq (Nat.lt_trans (Nat.mod_lt _ hsig) n.significand_lt_two_pow) n.shift_le

theorem value_inj : m.value = n.value ↔ m = n := by
  rw [value, value, div_left_inj' unitsInOne_pos.ne', Nat.cast_inj]
  exact ⟨units_inj, congrArg units⟩

theorem value_div_value (m n : Magnitude) :
    m.value / n.value = (m.units * unitsInOne : ℕ) / (n.units * unitsInOne) := by
  rw [value, value, div_div_div_cancel_right₀ unitsInOne_pos.ne', Nat.cast_mul,
    mul_div_mul_right _ _ unitsInOne_pos.ne']

theorem value_eq_iff {r : Magnitude} {k : ℕ} :
    m.value = k * n.value + r.value ↔ m.units = k * n.units + r.units := by
  rw [value, value, value, mul_div_assoc', ← add_div, div_left_inj' unitsInOne_pos.ne']
  norm_cast

end Magnitude

namespace Binary64

variable {x y z : Binary64}

/-! ## Division -/

theorem isQuotient_div (x y : Binary64) : IsQuotient x y (x.div y) := by
  cases x with
  | nan => exact .nan_left y
  | infinite s =>
      cases y with
      | nan => exact .nan_right _
      | infinite t => exact .infinite_infinite s t
      | finite t n => exact .infinite_finite s t n
  | finite s m =>
      cases y with
      | nan => exact .nan_right _
      | infinite t => exact .finite_infinite s t m
      | finite t n =>
          rw [div]
          split
          case isTrue hn =>
            obtain rfl := Magnitude.units_eq_zero_iff.1 hn
            split
            case isTrue hm =>
              obtain rfl := Magnitude.units_eq_zero_iff.1 hm
              exact .zero_zero s t
            case isFalse hm => exact .by_zero s t fun h => hm (Magnitude.units_eq_zero_iff.2 h)
          case isFalse hn =>
            refine .ratio s t m (fun h => hn (Magnitude.units_eq_zero_iff.2 h)) ?_
            rw [Magnitude.value_div_value]
            exact rounds_nearest (Nat.pos_of_ne_zero hn) _

theorem IsQuotient.eq_div (h : IsQuotient x y z) : z = x.div y := by
  cases h with
  | nan_left | infinite_infinite | infinite_finite | finite_infinite => rfl
  | nan_right => cases x <;> rfl
  | zero_zero s t => rfl
  | @by_zero s t m hm =>
      have hunits : m.units ≠ 0 := fun h => hm (Magnitude.units_eq_zero_iff.1 h)
      rw [div, if_pos Magnitude.units_zero, if_neg hunits]
  | @ratio s t m n z hn hz =>
      have hunits : n.units ≠ 0 := fun h => hn (Magnitude.units_eq_zero_iff.1 h)
      rw [Magnitude.value_div_value, rounds_iff (Nat.pos_of_ne_zero hunits)] at hz
      rw [div, if_neg hunits, hz]

/-! ## Remainder -/

theorem isRemainder_rem (x y : Binary64) : IsRemainder x y (x.rem y) := by
  cases x with
  | nan => exact .nan_left y
  | infinite s =>
      cases y with
      | nan => exact .nan_right _
      | infinite | finite => exact .infinite_left s _
  | finite s m =>
      cases y with
      | nan => exact .nan_right _
      | infinite t => exact .finite_infinite s t m
      | finite t n =>
          rw [rem]
          split
          case isTrue hn =>
            obtain rfl := Magnitude.units_eq_zero_iff.1 hn
            exact .by_zero s t m
          case isFalse hn =>
            have hne : n ≠ .zero := fun h => hn (Magnitude.units_eq_zero_iff.2 h)
            obtain ⟨r, hr⟩ := m.exists_units_eq_mod n hne
            rw [← hr, nearest_units]
            refine .exact s t (m.units / n.units) hne ?_ ?_
            · rw [Magnitude.value_eq_iff, hr, Nat.div_add_mod']
            · rw [Magnitude.value_lt_value, hr]
              exact Nat.mod_lt _ (Nat.pos_of_ne_zero hn)

theorem IsRemainder.eq_rem (h : IsRemainder x y z) : z = x.rem y := by
  cases h with
  | nan_left | finite_infinite => rfl
  | nan_right => cases x <;> rfl
  | infinite_left => cases y <;> rfl
  | by_zero s t m => rw [rem, if_pos Magnitude.units_zero]
  | @exact s t m n r k hn hvalue hlt =>
      have hunits : n.units ≠ 0 := fun h => hn (Magnitude.units_eq_zero_iff.1 h)
      rw [Magnitude.value_eq_iff] at hvalue
      rw [Magnitude.value_lt_value] at hlt
      rw [rem, if_neg hunits, hvalue, Nat.mul_add_mod_self_right, Nat.mod_eq_of_lt hlt, nearest_units]

end Binary64

end Abacus
