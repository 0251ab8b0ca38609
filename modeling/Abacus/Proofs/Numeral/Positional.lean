import Abacus.Numeral.Plain
import Abacus.Proofs.Numeral.Rounding
import Abacus.Segmentation

/-!
# Numbers in positional notation

The positional text of a decimal spells the number nearest to it, and the decimal that a magnitude is written as is read
back as the magnitude.
-/

namespace Abacus

namespace Decimal

variable {d e : Decimal}

/-! ## Decimals of the same value -/

def SameValue (d e : Decimal) : Prop := d.num * e.den = e.num * d.den

theorem den_pos (d : Decimal) : 0 < d.den := by
  rw [den, Nat.pow_eq]
  exact Nat.pow_pos (by decide)

theorem SameValue.magnitude? (h : d.SameValue e) : d.magnitude? = e.magnitude? := by
  refine Magnitude.nearest?_congr d.den_pos e.den_pos ?_
  rw [Nat.mul_right_comm, h, Nat.mul_right_comm]

theorem SameValue.nearest (h : d.SameValue e) (negative : Bool) : d.nearest negative = e.nearest negative :=
  congrArg (Binary64.ofMagnitude? negative) h.magnitude?

/-- Zeros behind the coefficient count for the exponent. -/
theorem sameValue_shift (c k : Nat) (e : Int) : SameValue ⟨c * Nat.pow 10 k, e⟩ ⟨c, e + k⟩ := by
  have he : k + e.toNat + (-(e + k)).toNat = (e + k).toNat + (-e).toNat := by omega
  simp only [SameValue, num, den, Nat.pow_eq, Nat.mul_assoc, ← Nat.pow_add, he]

theorem sameValue_zero (e f : Int) : SameValue ⟨0, e⟩ ⟨0, f⟩ := by
  simp [SameValue, num]

theorem magnitude?_trim (d : Decimal) : d.trim.magnitude? = d.magnitude? := by
  fun_induction trim d with
  | case1 d hc =>
      obtain ⟨c, e⟩ := d
      cases hc
      exact (sameValue_zero 0 e).magnitude?
  | case2 d hc hm ih =>
      obtain ⟨c, e⟩ := d
      have hten : c / 10 * Nat.pow 10 1 = c := by
        simp only [Nat.pow_eq, Nat.pow_one]
        simp only at hm
        omega
      have hstep := sameValue_shift (c / 10) 1 e
      rw [hten] at hstep
      exact ih.trans hstep.magnitude?.symm
  | case3 => rfl

/-! ## Positional digits -/

theorem isDigit_of_mem_digits {c : Char} (h : c ∈ d.digits) : c.isDigit = true :=
  Nat.isDigit_of_mem_toDigits (by decide) (by decide) h

theorem digits_ne_nil (d : Decimal) : d.digits ≠ [] := Nat.toDigits_ne_nil

theorem positionalDigits_append_of_neg (h : d.exponent < 0) : ∃ n,
    d.positionalDigits.1 ++ d.positionalDigits.2 = List.replicate n '0' ++ d.digits ∧
    d.positionalDigits.2.length = (-d.exponent).toNat ∧ d.positionalDigits.1 ≠ [] := by
  rw [positionalDigits, if_neg (Int.not_le.2 h)]
  refine ⟨(-d.exponent).toNat + 1 - d.digits.length, ?_, ?_, ?_⟩
  · simp
  · simp
    omega
  · intro hnil
    have := congrArg List.length hnil
    simp at this
    omega

theorem positionalDigits_of_nonneg (h : 0 ≤ d.exponent) :
    d.positionalDigits = (d.digits ++ List.replicate d.exponent.toNat '0', ['0']) := if_pos h

theorem isDigit_of_mem_positionalDigits {c : Char} (h : c ∈ d.positionalDigits.1 ++ d.positionalDigits.2) :
    c.isDigit = true := by
  have hzero : '0'.isDigit = true := by decide
  by_cases he : 0 ≤ d.exponent
  · rw [positionalDigits_of_nonneg he] at h
    simp only [List.mem_append, List.mem_replicate, List.mem_singleton] at h
    rcases h with (h | ⟨-, rfl⟩) | rfl
    · exact isDigit_of_mem_digits h
    · exact hzero
    · exact hzero
  · obtain ⟨n, happend, -, -⟩ := positionalDigits_append_of_neg (Int.not_le.1 he)
    rw [happend, List.mem_append, List.mem_replicate] at h
    rcases h with ⟨-, rfl⟩ | h
    · exact hzero
    · exact isDigit_of_mem_digits h

theorem positionalDigits_ne_nil (d : Decimal) : d.positionalDigits.1 ≠ [] ∧ d.positionalDigits.2 ≠ [] := by
  by_cases he : 0 ≤ d.exponent
  · simp [positionalDigits_of_nonneg he, digits_ne_nil]
  · obtain ⟨n, -, hlength, hne⟩ := positionalDigits_append_of_neg (Int.not_le.1 he)
    refine ⟨hne, fun hnil => ?_⟩
    rw [hnil, List.length_nil] at hlength
    omega

/-- The value of the digits is the value of the decimal. -/
theorem sameValue_positionalDigits (d : Decimal) :
    (ofDigits d.positionalDigits.1 d.positionalDigits.2).SameValue d := by
  by_cases he : 0 ≤ d.exponent
  · have hvalue := sameValue_shift d.coefficient (d.exponent.toNat + 1) (-1)
    have hexponent : -1 + ((d.exponent.toNat + 1 : Nat) : Int) = d.exponent := by omega
    rw [hexponent] at hvalue
    have hzeros : d.digits ++ List.replicate d.exponent.toNat '0' ++ ['0'] =
        d.digits ++ List.replicate (d.exponent.toNat + 1) '0' := by
      rw [List.append_assoc, List.replicate_succ']
    rw [positionalDigits_of_nonneg he, ofDigits, hzeros, Nat.ofDigitChars_append, digits,
      Nat.ofDigitChars_ten_toDigits, Nat.ofDigitChars_replicate_zero, Nat.mul_comm]
    exact hvalue
  · obtain ⟨n, happend, hlength, -⟩ := positionalDigits_append_of_neg (Int.not_le.1 he)
    have hexponent : -(((-d.exponent).toNat : Nat) : Int) = d.exponent := by omega
    rw [ofDigits, happend, hlength, hexponent, Nat.ofDigitChars_append, Nat.ofDigitChars_replicate_zero, Nat.mul_zero]
    rw [digits, Nat.ofDigitChars_ten_toDigits]
    rfl

/-- The positional text of a decimal spells the number nearest to it. -/
theorem spells_positional (d : Decimal) {rest : List Char} (hs : StopsAt continuesNumber rest) :
    Spells d.positional rest (.number (d.nearest false)) := by
  obtain ⟨hw, hf⟩ := d.positionalDigits_ne_nil
  rw [← d.sameValue_positionalDigits.nearest]
  refine .fraction hw (fun c hc => ?_) hf (fun c hc => ?_) hs
  · exact isDigit_of_mem_positionalDigits (List.mem_append_left _ hc)
  · exact isDigit_of_mem_positionalDigits (List.mem_append_right _ hc)

end Decimal

/-! ## Numbers that are read back -/

/-- A binary fraction is a decimal with as many places. -/
theorem Decimal.num_mul_two_pow (n k : Nat) :
    num ⟨n * Nat.pow 5 k, -k⟩ * (1 <<< k) = n * den ⟨n * Nat.pow 5 k, -k⟩ := by
  have hneg : (-(k : Int)).toNat = 0 := by omega
  have hpos : (- -(k : Int)).toNat = k := by omega
  simp only [num, den, hneg, hpos, Nat.one_shiftLeft, Nat.pow_eq, Nat.pow_zero, Nat.mul_one]
  rw [Nat.mul_assoc, ← Nat.mul_pow]

theorem Magnitude.magnitude?_exact (m : Magnitude) : m.exact.magnitude? = some m := by
  have hexact : m.exact = ⟨m.units * Nat.pow 5 1074, -(1074 : Nat)⟩ := rfl
  rw [← m.nearest?_units]
  refine nearest?_congr m.exact.den_pos Nat.one_pos ?_
  rw [Nat.mul_one, hexact, unitsInOne]
  apply Decimal.num_mul_two_pow

theorem Magnitude.magnitude?_shortest (m : Magnitude) : m.shortest.magnitude? = some m := by
  -- The search takes only what reads back, and the exact expansion behind it does.
  rw [shortest, Decimal.magnitude?_trim]
  cases h : List.find? _ _ with
  | none => exact m.magnitude?_exact
  | some d =>
      have := List.find?_some h
      simpa using this

theorem Binary64.nearest_overflowing : overflowing.nearest false = .infinite false := by
  have hnone : overflowing.magnitude? = none := Magnitude.nearest?_eq_none_of_excess (by decide +kernel)
  exact congrArg (ofMagnitude? false) hnone

/-- The digits behind the sign are those of a decimal that is read as the number without its sign. -/
theorem Binary64.exists_plain {x : Binary64} (h : x.isNaN = false) : ∃ d : Decimal,
    x.plain.toList = (signText x.isNegative).toList ++ d.positional ∧ d.nearest false = x.abs := by
  cases x with
  | nan => cases h
  | infinite negative => exact ⟨overflowing, by simp [plain, isNegative], nearest_overflowing⟩
  | finite negative m =>
      exact ⟨m.shortest, by simp [plain, isNegative], Decimal.nearest_eq_finite m.magnitude?_shortest⟩

end Abacus
