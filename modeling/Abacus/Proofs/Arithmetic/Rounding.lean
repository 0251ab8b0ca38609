import Abacus.Binary64.Exact
import Abacus.Proofs.Numeral.Rounding
import Mathlib.Data.Nat.Dist
import Mathlib.Tactic.Linarith
import Mathlib.Tactic.Positivity
import Mathlib.Tactic.Ring

/-!
# Rounding is to the nearest number

The magnitudes with at least the shift of the result are multiples of its last place, and the others are smaller than
its least significand. So the nearest multiple is the nearest magnitude.
-/

namespace Abacus

/-! ## Rounding to a natural number -/

section Ratios

variable {num den : ℕ}

theorem roundDiv_cases (num den : ℕ) :
    2 * (num % den) < den ∧ roundDiv num den = num / den ∨
    2 * (num % den) = den ∧ roundDiv num den = num / den + num / den % 2 ∨
    den < 2 * (num % den) ∧ roundDiv num den = num / den + 1 := by
  unfold roundDiv
  simp only
  split
  case h_1 h => exact .inl ⟨Nat.compare_eq_lt.1 h, rfl⟩
  case h_2 h => exact .inr (.inl ⟨Nat.compare_eq_eq.1 h, rfl⟩)
  case h_3 h => exact .inr (.inr ⟨Nat.compare_eq_gt.1 h, rfl⟩)

theorem mul_add_le_of_lt {k q : ℕ} (h : k < q) (d : ℕ) : k * d + d ≤ q * d :=
  Nat.succ_mul k d ▸ Nat.mul_le_mul_right d h

/-- No multiple of the denominator is nearer to the numerator. -/
theorem roundDiv_nearest (hd : 0 < den) (k : ℕ) :
    Nat.dist (roundDiv num den * den) num ≤ Nat.dist (k * den) num := by
  have hnum : num / den * den + num % den = num := Nat.div_add_mod' num den
  have hlt : num % den < den := Nat.mod_lt num hd
  have hsucc : (num / den + 1) * den = num / den * den + den := Nat.succ_mul _ _
  have hside : k * den ≤ num / den * den ∨ num / den * den + den ≤ k * den :=
    (Nat.lt_or_ge (num / den) k).symm.imp (Nat.mul_le_mul_right den) (mul_add_le_of_lt · den)
  unfold Nat.dist
  rcases roundDiv_cases num den with ⟨hr, hq⟩ | ⟨hr, hq⟩ | ⟨hr, hq⟩
  · rw [hq]
    omega
  · rcases Nat.mod_two_eq_zero_or_one (num / den) with hparity | hparity <;> rw [hq, hparity]
    · rw [Nat.add_zero]
      omega
    · omega
  · rw [hq]
    omega

/-- Of two multiples that are equally near, the even one is taken. -/
theorem roundDiv_even (hd : 0 < den) {k : ℕ} (hk : k ≠ roundDiv num den)
    (h : Nat.dist (k * den) num = Nat.dist (roundDiv num den * den) num) : roundDiv num den % 2 = 0 := by
  have hnum : num / den * den + num % den = num := Nat.div_add_mod' num den
  have hlt : num % den < den := Nat.mod_lt num hd
  have hsucc : (num / den + 1) * den = num / den * den + den := Nat.succ_mul _ _
  have hapart := (Nat.lt_or_gt_of_ne hk).imp (mul_add_le_of_lt · den) (mul_add_le_of_lt · den)
  unfold Nat.dist at h
  rcases roundDiv_cases num den with ⟨hr, hq⟩ | ⟨-, hq⟩ | ⟨hr, hq⟩
  · rw [hq] at h hapart
    omega
  · omega
  · rw [hq, hsucc] at h hapart
    omega

/-- Half a step before an even number rounds to that number. -/
theorem roundDiv_eq_succ_iff {half k : ℕ} (hk : k % 2 = 1) (hh : 0 < half) (h : num < (k + 1) * (2 * half)) :
    roundDiv num (2 * half) = k + 1 ↔ (2 * k + 1) * half ≤ num := by
  have hnum : num / (2 * half) * (2 * half) + num % (2 * half) = num := Nat.div_add_mod' num (2 * half)
  have hlt : num % (2 * half) < 2 * half := Nat.mod_lt num (by omega)
  have hle : num / (2 * half) < k + 1 := (Nat.div_lt_iff_lt_mul (by omega)).2 h
  have hstep : (2 * k + 1) * half = k * (2 * half) + half := by ring
  rcases Nat.lt_or_ge (num / (2 * half)) k with hq | hq
  · have hbelow := mul_add_le_of_lt hq (2 * half)
    rcases roundDiv_cases num (2 * half) with ⟨-, hr⟩ | ⟨-, hr⟩ | ⟨-, hr⟩ <;> omega
  · have heq : num / (2 * half) = k := by omega
    rw [heq] at hnum
    rcases roundDiv_cases num (2 * half) with ⟨hcmp, hr⟩ | ⟨hcmp, hr⟩ | ⟨hcmp, hr⟩ <;> rw [heq] at hr <;> omega

end Ratios

namespace Magnitude

variable {num den : ℕ} {m n : Magnitude}

/-! ## Places -/

theorem units_eq (m : Magnitude) : m.units = m.significand * 2 ^ m.shift := Nat.shiftLeft_eq _ _

theorem significand_lt_two_pow (m : Magnitude) : m.significand < 2 ^ 53 := by
  rw [← Nat.one_shiftLeft]
  exact m.significand_lt

/-- The units in steps of a place up to the last one. -/
theorem units_of_le_shift {shift : ℕ} (h : shift ≤ m.shift) :
    m.units = m.significand * 2 ^ (m.shift - shift) * 2 ^ shift := by
  rw [units_eq, Nat.mul_assoc, ← pow_add, Nat.sub_add_cancel h]

/-- A shifted denominator: the places of the result count multiples of it. -/
def scaled (num den : ℕ) : ℕ := den <<< excess (num / den)

theorem scaled_pos (num : ℕ) (hd : 0 < den) : 0 < scaled num den := by
  rw [scaled, Nat.shiftLeft_eq]
  exact Nat.mul_pos hd (Nat.two_pow_pos _)

/-- The last place, or the next one after a carry. -/
theorem nearest?_cases (h : nearest? num den = some m) :
    m.significand = roundDiv num (scaled num den) ∧ m.shift = excess (num / den) ∨
    roundDiv num (scaled num den) = 1 <<< 53 ∧ m.significand = 1 <<< 52 ∧ m.shift = excess (num / den) + 1 := by
  have hle : roundDiv num (scaled num den) ≤ 1 <<< 53 := roundDiv_excess_le num den
  unfold nearest? at h
  simp only at h
  split at h
  · split at h <;> simp only [Option.some.injEq, reduceCtorEq] at h
    subst h
    exact .inl ⟨rfl, rfl⟩
  case isFalse hlt =>
    split at h <;> simp only [Option.some.injEq, reduceCtorEq] at h
    subst h
    exact .inr ⟨Nat.le_antisymm hle (Nat.le_of_not_lt hlt), rfl, rfl⟩

theorem nearest?_eq_none_iff : nearest? num den = none ↔
    2045 < excess (num / den) ∨ excess (num / den) = 2045 ∧ roundDiv num (scaled num den) = 1 <<< 53 := by
  have hle : roundDiv num (scaled num den) ≤ 1 <<< 53 := roundDiv_excess_le num den
  have hscaled : den <<< excess (num / den) = scaled num den := rfl
  unfold nearest?
  simp only [hscaled]
  split
  case isTrue hlt =>
    have hne : roundDiv num (scaled num den) ≠ 1 <<< 53 := Nat.ne_of_lt hlt
    simp [-Nat.reduceShiftLeft, hne]
  case isFalse hlt =>
    have heq : roundDiv num (scaled num den) = 1 <<< 53 := Nat.le_antisymm hle (Nat.le_of_not_lt hlt)
    simp only [heq, and_true, dite_eq_right_iff, reduceCtorEq, imp_false]
    omega

/-- The nearest magnitude counts the units of the nearest multiple, and its significand is even if the multiple is. -/
theorem units_of_nearest? (h : nearest? num den = some m) :
    m.units * den = roundDiv num (scaled num den) * scaled num den ∧
      (roundDiv num (scaled num den) % 2 = 0 → m.significand % 2 = 0) := by
  rcases nearest?_cases h with ⟨hs, he⟩ | ⟨hround, hs, he⟩
  · refine ⟨?_, fun heven => hs ▸ heven⟩
    rw [units, hs, he, scaled, Nat.shiftLeft_eq, Nat.shiftLeft_eq, Nat.mul_assoc, Nat.mul_comm den]
  · refine ⟨?_, fun _ => hs ▸ by decide⟩
    rw [units, hround, hs, he, scaled]
    simp only [Nat.shiftLeft_eq, Nat.pow_succ]
    ring

/-- A magnitude is a multiple of a place, even if its significand is, or smaller than the least full significand at that
place. -/
theorem units_grid (m : Magnitude) (shift : ℕ) :
    (∃ k, m.units = k * 2 ^ shift ∧ (m.significand % 2 = 0 → k % 2 = 0)) ∨
      shift ≠ 0 ∧ m.units < 2 ^ 52 * 2 ^ shift := by
  rcases Nat.lt_or_ge m.shift shift with h | h
  · refine .inr ⟨Nat.ne_of_gt (Nat.zero_lt_of_lt h), ?_⟩
    calc m.units = m.significand * 2 ^ m.shift := m.units_eq
      _ < 2 ^ 53 * 2 ^ m.shift := Nat.mul_lt_mul_of_pos_right m.significand_lt_two_pow (Nat.two_pow_pos _)
      _ = 2 ^ 52 * 2 ^ (m.shift + 1) := by ring
      _ ≤ 2 ^ 52 * 2 ^ shift := Nat.mul_le_mul_left _ (Nat.pow_le_pow_right (by decide) h)
  · refine .inl ⟨_, units_of_le_shift h, fun heven => ?_⟩
    rw [Nat.mul_mod, heven, Nat.zero_mul, Nat.zero_mod]

theorem scaled_eq (num den : ℕ) : scaled num den = den * 2 ^ excess (num / den) := Nat.shiftLeft_eq _ _

theorem le_of_excess (hd : 0 < den) (h : excess (num / den) ≠ 0) : 2 ^ 52 * scaled num den ≤ num := by
  have hfull := le_shiftRight_excess h
  rw [Nat.shiftRight_eq_div_pow, Nat.one_shiftLeft, Nat.le_div_iff_mul_le (Nat.two_pow_pos _),
    Nat.le_div_iff_mul_le hd] at hfull
  rwa [scaled_eq, Nat.mul_comm den, ← Nat.mul_assoc]

/-- No magnitude is nearer, and of two that are equally near the one with an even significand is taken. -/
theorem nearest?_nearest (hd : 0 < den) (h : nearest? num den = some m) (n : Magnitude) :
    Nat.dist (m.units * den) num ≤ Nat.dist (n.units * den) num ∧
      (n ≠ m → Nat.dist (n.units * den) num = Nat.dist (m.units * den) num → m.significand % 2 = 0) := by
  obtain ⟨hunits, heven⟩ := units_of_nearest? h
  have hpos := scaled_pos num hd
  rw [hunits]
  rcases n.units_grid (excess (num / den)) with ⟨k, hk, -⟩ | ⟨hshift, hlt⟩
  · have hn : n.units * den = k * scaled num den := by
      rw [hk, scaled_eq, Nat.mul_assoc, Nat.mul_comm den]
    rw [hn]
    refine ⟨roundDiv_nearest hpos k, fun hne hdist => heven (roundDiv_even hpos ?_ hdist)⟩
    rintro rfl
    exact hne (units_inj (Nat.eq_of_mul_eq_mul_right hd (hn.trans hunits.symm)))
  · -- The least full significand at the place of the result lies between, and the result is as near as that.
    have hleast := le_of_excess hd hshift
    have hn : n.units * den < 2 ^ 52 * scaled num den := by
      rw [scaled_eq, Nat.mul_comm den, ← Nat.mul_assoc]
      exact Nat.mul_lt_mul_of_pos_right hlt hd
    have hnear := @roundDiv_nearest num _ hpos (2 ^ 52)
    unfold Nat.dist at hnear ⊢
    omega

/-! ## Overflow -/

theorem lt_of_excess (num : ℕ) (hd : 0 < den) : num < 2 ^ 53 * scaled num den := by
  have hlt := shiftRight_excess_lt (num / den)
  rw [Nat.shiftRight_eq_div_pow, Nat.one_shiftLeft, Nat.div_lt_iff_lt_mul (Nat.two_pow_pos _),
    Nat.div_lt_iff_lt_mul hd] at hlt
  rwa [scaled_eq, Nat.mul_comm den, ← Nat.mul_assoc]

/-- A ratio is past the last magnitude from half a step beyond it on. -/
theorem nearest?_eq_none_iff_le (hd : 0 < den) :
    nearest? num den = none ↔ (2 * (2 ^ 53 - 1) + 1) * (2 ^ 2044 * den) ≤ num := by
  have hhalf : 0 < 2 ^ 2044 * den := by positivity
  have hbelow := lt_of_excess num hd
  rw [nearest?_eq_none_iff]
  rcases Nat.lt_trichotomy (excess (num / den)) 2045 with he | he | he
  · have hscaled : scaled num den ≤ 2 ^ 2044 * den := by
      rw [scaled_eq, Nat.mul_comm]
      exact Nat.mul_le_mul_right den (pow_le_pow_right₀ one_le_two (by omega))
    generalize 2 ^ 2044 * den = half at *
    omega
  · have hscaled : scaled num den = 2 * (2 ^ 2044 * den) := by
      rw [scaled_eq, he, pow_succ 2 2044, Nat.mul_comm den, Nat.mul_right_comm, Nat.mul_comm 2]
    rw [hscaled] at hbelow ⊢
    generalize 2 ^ 2044 * den = half at *
    rw [← roundDiv_eq_succ_iff (k := 2 ^ 53 - 1) (by decide) hhalf hbelow]
    simp [he]
  · have hscaled : 2 ^ 2 * (2 ^ 2044 * den) ≤ scaled num den := by
      rw [scaled_eq, ← Nat.mul_assoc, ← pow_add 2 2 2044, Nat.mul_comm]
      exact Nat.mul_le_mul_left den (pow_le_pow_right₀ one_le_two (by omega))
    have hleast : 2 ^ 52 * scaled num den ≤ num := le_of_excess hd (by omega)
    generalize 2 ^ 2044 * den = half at *
    omega

/-! ## Values -/

theorem unitsInOne_eq : (unitsInOne : ℚ) = 2 ^ 1074 := by
  simp only [unitsInOne, Nat.one_shiftLeft, Nat.cast_pow, Nat.cast_ofNat]

theorem unitsInOne_pos : (0 : ℚ) < unitsInOne := by
  rw [unitsInOne_eq]
  positivity

theorem cast_dist (a b : ℕ) : (Nat.dist a b : ℚ) = |(a : ℚ) - b| := by
  rcases Nat.le_total a b with h | h
  · rw [Nat.dist_eq_sub_of_le h, Nat.cast_sub h, abs_sub_comm, abs_of_nonneg (by simpa using h)]
  · rw [Nat.dist_eq_sub_of_le_right h, Nat.cast_sub h, abs_of_nonneg (by simpa using h)]

/-- The distance from a ratio, over the denominator of the ratio. -/
theorem abs_value_sub (hd : 0 < den) (m : Magnitude) :
    |m.value - num / (den * unitsInOne)| = Nat.dist (m.units * den) num / (den * unitsInOne) := by
  have hden : (0 : ℚ) < den := by exact_mod_cast hd
  have hpos := mul_pos hden unitsInOne_pos
  have hvalue : m.value = (m.units * den : ℕ) / (den * unitsInOne) := by
    rw [value, Nat.cast_mul, mul_comm (den : ℚ), mul_div_mul_right _ _ hden.ne']
  rw [hvalue, ← sub_div, abs_div, abs_of_pos hpos, cast_dist]

theorem isNearest_of_nearest? (hd : 0 < den) (h : nearest? num den = some m) :
    m.IsNearest (num / (den * unitsInOne)) := by
  have hden : (0 : ℚ) < den := by exact_mod_cast hd
  have hpos := mul_pos hden unitsInOne_pos
  constructor
  · intro n
    rw [abs_value_sub hd, abs_value_sub hd, div_le_div_iff_of_pos_right hpos, Nat.cast_le]
    exact (nearest?_nearest hd h n).1
  · intro n hne hdist
    rw [abs_value_sub hd, abs_value_sub hd, div_left_inj' hpos.ne', Nat.cast_inj] at hdist
    exact (nearest?_nearest hd h n).2 hne hdist

theorem overflowLimit_eq : Binary64.overflowLimit = (2 * (2 ^ 53 - 1) + 1) * 2 ^ 2044 / unitsInOne := by
  have h2044 : (2 : ℚ) ^ 2044 = 2 ^ 970 * 2 ^ 1074 := pow_add 2 970 1074
  have h1023 : (2 : ℚ) ^ 1023 = 2 ^ 970 * 2 ^ 53 := pow_add 2 970 53
  have hne : (2 : ℚ) ^ 1074 ≠ 0 := by positivity
  rw [Binary64.overflowLimit, unitsInOne_eq, h2044, h1023, ← mul_assoc, mul_div_assoc, div_self hne]
  generalize (2 : ℚ) ^ 970 = scale
  ring

theorem overflowLimit_le_iff (hd : 0 < den) :
    Binary64.overflowLimit ≤ num / (den * unitsInOne) ↔ nearest? num den = none := by
  have hden : (0 : ℚ) < den := by exact_mod_cast hd
  rw [nearest?_eq_none_iff_le hd, overflowLimit_eq, ← div_div, div_le_div_iff_of_pos_right unitsInOne_pos,
    le_div_iff₀ hden, mul_assoc, ← Nat.cast_le (α := ℚ), Nat.cast_mul, Nat.cast_mul, Nat.cast_pow, Nat.cast_ofNat]
  norm_num

/-! ## Uniqueness -/

/-- The magnitude after an even one lies before any other even one above. -/
theorem exists_between (hm : m.significand % 2 = 0) (hn : n.significand % 2 = 0) (h : m.units < n.units) :
    ∃ p : Magnitude, m.units < p.units ∧ p.units < n.units := by
  have hlt : m.significand + 1 < 1 <<< 53 := by
    have := m.significand_lt
    omega
  refine ⟨⟨m.significand + 1, m.shift, hlt, m.shift_le, m.full.imp_right (Nat.le_succ_of_le ·)⟩, ?_⟩
  have hpos : 0 < 2 ^ m.shift := Nat.two_pow_pos _
  have hnext : (m.significand + 1) <<< m.shift = m.units + 2 ^ m.shift := by
    rw [units_eq, Nat.shiftLeft_eq, Nat.succ_mul]
  change m.units < (m.significand + 1) <<< m.shift ∧ (m.significand + 1) <<< m.shift < n.units
  refine ⟨by omega, ?_⟩
  rcases n.units_grid m.shift with ⟨k, hk, heven⟩ | ⟨hshift, hbelow⟩
  · -- In steps of the place of the lower one, the upper one is even too.
    rw [units_eq, hk] at h
    have hlt : m.significand < k := Nat.lt_of_mul_lt_mul_right h
    have hk2 : k % 2 = 0 := heven hn
    rw [Nat.shiftLeft_eq, hk]
    exact Nat.mul_lt_mul_of_pos_right (by omega) hpos
  · have hfull : 2 ^ 52 ≤ m.significand := by simpa using m.full.resolve_left hshift
    have hle := Nat.mul_le_mul_right (2 ^ m.shift) hfull
    rw [← units_eq] at hle
    omega

theorem value_lt_value : m.value < n.value ↔ m.units < n.units := by
  rw [value, value, div_lt_div_iff_of_pos_right unitsInOne_pos, Nat.cast_lt]

theorem IsNearest.units_le {q : ℚ} (hm : m.IsNearest q) (hn : n.IsNearest q) : n.units ≤ m.units := by
  by_contra hlt
  have hlt : m.units < n.units := Nat.lt_of_not_le hlt
  have hne : m ≠ n := by
    rintro rfl
    exact Nat.lt_irrefl _ hlt
  have hdist : |m.value - q| = |n.value - q| := le_antisymm (hm.least n) (hn.least m)
  obtain ⟨p, hmp, hpn⟩ := exists_between (hm.even n hne.symm hdist.symm) (hn.even m hne hdist) hlt
  have hleast := hm.least p
  rw [← value_lt_value] at hlt hmp hpn
  -- The rational lies in the middle of the two, so that what lies between them is nearer.
  have hmiddle : q = (m.value + n.value) / 2 := by
    rcases abs_eq_abs.1 hdist with h | h <;> linarith
  have hnear : |p.value - q| < |m.value - q| := by
    rw [abs_of_neg (by linarith : m.value - q < 0), abs_lt]
    constructor <;> linarith
  linarith

/-- No two magnitudes are nearest to one rational. -/
theorem IsNearest.unique {q : ℚ} (hm : m.IsNearest q) (hn : n.IsNearest q) : m = n :=
  units_inj (Nat.le_antisymm (hn.units_le hm) (hm.units_le hn))

end Magnitude

namespace Binary64

variable {num den : ℕ} {s : Bool} {z w : Binary64}

theorem Rounds.unique {q : ℚ} (hz : Rounds s q z) (hw : Rounds s q w) : z = w := by
  cases z with
  | nan => cases hz
  | infinite t =>
      cases w with
      | nan => cases hw
      | infinite u => rw [hz.1, hw.1]
      | finite u n => exact absurd hw.2.1 (not_lt.2 hz.2)
  | finite t m =>
      cases w with
      | nan => cases hw
      | infinite u => exact absurd hz.2.1 (not_lt.2 hw.2)
      | finite u n => rw [hz.1, hw.1, hz.2.2.unique hw.2.2]

theorem rounds_nearest (hd : 0 < den) (s : Bool) :
    Rounds s (num / (den * Magnitude.unitsInOne)) (nearest s num den) := by
  rw [nearest]
  cases h : Magnitude.nearest? num den with
  | none => exact ⟨rfl, (Magnitude.overflowLimit_le_iff hd).2 h⟩
  | some m =>
      refine ⟨rfl, not_le.1 fun hle => ?_, Magnitude.isNearest_of_nearest? hd h⟩
      rw [Magnitude.overflowLimit_le_iff hd, h] at hle
      cases hle

/-- A ratio rounds to one number. -/
theorem rounds_iff (hd : 0 < den) :
    Rounds s (num / (den * Magnitude.unitsInOne)) z ↔ z = nearest s num den := by
  constructor
  · exact fun h => h.unique (rounds_nearest hd s)
  · rintro rfl
    exact rounds_nearest hd s

end Binary64

end Abacus
