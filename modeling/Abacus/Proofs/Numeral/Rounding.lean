import Abacus.Binary64.Rounding

/-!
# Rounding of ratios

The magnitude nearest to a ratio does not depend on how the ratio is written, and it is the ratio itself where that is a
magnitude.
-/

namespace Abacus

/-! ## Rounding to a natural number -/

theorem compare_mul_left {k : Nat} (hk : 0 < k) (a b : Nat) : compare (k * a) (k * b) = compare a b := by
  simp only [Nat.compare_eq_ite_lt, Nat.mul_lt_mul_left hk]

theorem roundDiv_mul_left {k : Nat} (hk : 0 < k) (num den : Nat) : roundDiv (k * num) (k * den) = roundDiv num den := by
  have hc : compare (2 * (k * num % (k * den))) (k * den) = compare (2 * (num % den)) den := by
    rw [Nat.mul_mod_mul_left, Nat.mul_left_comm, compare_mul_left hk]
  unfold roundDiv
  rw [hc, Nat.mul_div_mul_left num den hk]

theorem roundDiv_of_dvd {den : Nat} (hd : 0 < den) (n : Nat) : roundDiv (n * den) den = n := by
  unfold roundDiv
  rw [Nat.mul_mod_left, Nat.mul_div_cancel n hd, Nat.mul_zero]
  simp [Nat.compare_eq_lt.2 hd]

/-! ## Rounding to a magnitude -/

namespace Magnitude

theorem nearest?_mul_left {k : Nat} (hk : 0 < k) (num den : Nat) :
    nearest? (k * num) (k * den) = nearest? num den := by
  have hshift (s : Nat) : (k * den) <<< s = k * den <<< s := by
    rw [Nat.shiftLeft_eq, Nat.shiftLeft_eq, Nat.mul_assoc]
  unfold nearest?
  simp only [Nat.mul_div_mul_left num den hk, hshift, roundDiv_mul_left hk]

/-- Equal ratios have the same nearest magnitude. -/
theorem nearest?_congr {num den num' den' : Nat} (hd : 0 < den) (hd' : 0 < den') (h : num * den' = num' * den) :
    nearest? num den = nearest? num' den' := by
  calc nearest? num den = nearest? (den' * num) (den' * den) := (nearest?_mul_left hd' num den).symm
    _ = nearest? (den * num') (den * den') := by rw [Nat.mul_comm den' num, h, Nat.mul_comm num' den, Nat.mul_comm den']
    _ = nearest? num' den' := nearest?_mul_left hd num' den'

theorem log2_shiftLeft {n : Nat} (hn : n ≠ 0) (s : Nat) : (n <<< s).log2 = n.log2 + s := by
  have hpos := Nat.two_pow_pos s
  rw [Nat.shiftLeft_eq, Nat.log2_eq_iff (Nat.mul_ne_zero hn (Nat.ne_of_gt hpos)), Nat.add_right_comm, Nat.pow_add,
    Nat.pow_add]
  exact ⟨Nat.mul_le_mul_right _ (Nat.log2_self_le hn), Nat.mul_lt_mul_of_pos_right Nat.lt_log2_self hpos⟩

theorem excess_units (m : Magnitude) : excess m.units = m.shift := by
  by_cases hn : m.significand = 0
  · have hshift : m.shift = 0 := by
      have := m.full
      rw [hn, Nat.one_shiftLeft] at this
      have := Nat.two_pow_pos 52
      omega
    rw [units, hn, Nat.zero_shiftLeft, hshift]
    rfl
  · have hlt : m.significand.log2 < 53 := (Nat.log2_lt hn).2 (by rw [← Nat.one_shiftLeft]; exact m.significand_lt)
    have hfull : m.shift = 0 ∨ 52 ≤ m.significand.log2 := by
      rw [Nat.le_log2 hn, ← Nat.one_shiftLeft]
      exact m.full
    rw [units, excess, log2_shiftLeft hn]
    omega

/-- A magnitude is nearest to itself. -/
theorem nearest?_units (m : Magnitude) : nearest? m.units 1 = some m := by
  have hexcess : excess (m.units / 1) = m.shift := by rw [Nat.div_one, m.excess_units]
  have hround : roundDiv m.units (1 <<< m.shift) = m.significand := by
    rw [units, Nat.shiftLeft_eq, Nat.one_shiftLeft]
    exact roundDiv_of_dvd (Nat.two_pow_pos _) _
  unfold nearest?
  simp only [hexcess, hround, dif_pos m.significand_lt, dif_pos m.shift_le]

/-- Every magnitude is written in one way. -/
theorem units_inj {m n : Magnitude} (h : m.units = n.units) : m = n := by
  have hnearest := m.nearest?_units
  rw [h, n.nearest?_units] at hnearest
  exact (Option.some.inj hnearest).symm

theorem nearest?_eq_none_of_excess {num den : Nat} (h : 2045 < excess (num / den)) : nearest? num den = none := by
  unfold nearest?
  simp only
  split
  · rw [dif_neg (by omega)]
  · rw [dif_neg (by omega)]

end Magnitude

end Abacus
