import Abacus.Proofs.Numeral.Positional
import Abacus.Proofs.Numeral.Reading

/-!
# The echo of numbers

Different numbers have different echoes. Positional notation is read back, and scientific notation shows the digits of
the coefficient and the power of ten that the first of them counts.
-/

namespace Abacus

section Runs

variable {p : Char → Bool} {cs ds rest rest' : List Char}

/-- A run of a class ends where the class does. -/
theorem run_append_inj (hc : ∀ c ∈ cs, p c = true) (hd : ∀ c ∈ ds, p c = true) (hs : StopsAt p rest)
    (hs' : StopsAt p rest') (h : cs ++ rest = ds ++ rest') : cs = ds ∧ rest = rest' := by
  have hrun := congrArg (List.takeWhile p) h
  have hrest := congrArg (List.dropWhile p) h
  rw [takeWhile_run hc hs, takeWhile_run hd hs'] at hrun
  rw [dropWhile_run hc hs, dropWhile_run hd hs'] at hrest
  exact ⟨hrun, hrest⟩

theorem StopsAt.cons {c : Char} (h : p c = false) (cs : List Char) : StopsAt p (c :: cs) := by
  rintro d ⟨⟩
  exact h

end Runs

/-! ## Scientific notation -/

namespace Decimal

variable {d e : Decimal}

theorem digits_inj (h : d.digits = e.digits) : d.coefficient = e.coefficient := by
  have hvalue := congrArg (Nat.ofDigitChars 10 · 0) h
  simpa [digits, Nat.ofDigitChars_ten_toDigits] using hvalue

/-- Digits and the power of the first one make up a decimal. -/
theorem eq_of_digits_of_leading (hd : d.digits = e.digits) (hl : d.leading = e.leading) : d = e := by
  obtain ⟨c, i⟩ := d
  obtain ⟨c', j⟩ := e
  have hc : c = c' := digits_inj hd
  have hij : i = j := by
    rw [leading, leading, hd] at hl
    simp only at hl
    omega
  rw [hc, hij]

/-- The digits with a point behind the first, if there are more. -/
def mantissa (d : Decimal) : List Char :=
  match d.digits with
  | first :: second :: rest => first :: '.' :: second :: rest
  | digits => digits

/-- The digits of an exponent, at least two. -/
def exponentDigits (n : Nat) : List Char := List.replicate (2 - (Nat.toDigits 10 n).length) '0' ++ Nat.toDigits 10 n

theorem scientific_eq (d : Decimal) : d.scientific =
    d.mantissa ++ 'e' :: (if d.leading < 0 then '-' else '+') :: exponentDigits d.leading.natAbs :=
  List.append_assoc ..

theorem mem_mantissa {c : Char} (h : c ∈ d.mantissa) : c.isDigit = true ∨ c = '.' := by
  have hdigits (c : Char) (hc : c ∈ d.digits) : c.isDigit = true := isDigit_of_mem_digits hc
  unfold mantissa at h
  split at h
  · rename_i first second rest heq
    rw [heq] at hdigits
    simp only [List.mem_cons] at h hdigits
    rcases h with rfl | rfl | h
    · exact .inl (hdigits c (.inl rfl))
    · exact .inr rfl
    · exact .inl (hdigits c (.inr h))
  · exact .inl (hdigits c h)

theorem filter_mantissa (d : Decimal) : d.mantissa.filter (· != '.') = d.digits := by
  have hdigits : d.digits.filter (· != '.') = d.digits :=
    List.filter_eq_self.2 fun c hc => by rw [bne, Text.ne_point_of_isDigit (isDigit_of_mem_digits hc)]; rfl
  unfold mantissa
  split
  · rename_i first second rest heq
    rw [← hdigits, heq]
    rfl
  · exact hdigits

theorem ofDigitChars_exponentDigits (n : Nat) : Nat.ofDigitChars 10 (exponentDigits n) 0 = n := by
  rw [exponentDigits, Nat.ofDigitChars_append, Nat.ofDigitChars_replicate_zero, Nat.mul_zero,
    Nat.ofDigitChars_ten_toDigits]

theorem exponentDigits_inj {m n : Nat} (h : exponentDigits m = exponentDigits n) : m = n := by
  rw [← ofDigitChars_exponentDigits m, h, ofDigitChars_exponentDigits]

theorem isDigit_of_mem_exponentDigits {n : Nat} {c : Char} (h : c ∈ exponentDigits n) : c.isDigit = true := by
  rw [exponentDigits, List.mem_append, List.mem_replicate] at h
  rcases h with ⟨-, rfl⟩ | h
  · rfl
  · exact Nat.isDigit_of_mem_toDigits (by decide) (by decide) h

theorem scientific_inj (h : d.scientific = e.scientific) : d = e := by
  rw [scientific_eq, scientific_eq] at h
  have hclass (d : Decimal) : ∀ c ∈ d.mantissa, (c != 'e') = true := by
    intro c hc
    rcases mem_mantissa hc with hdigit | rfl
    · rw [bne_iff_ne]
      rintro rfl
      cases hdigit
    · rfl
  obtain ⟨hm, hrest⟩ := run_append_inj (hclass d) (hclass e) (.cons rfl _) (.cons rfl _) h
  simp only [List.cons.injEq, true_and] at hrest
  have hdigits : d.digits = e.digits := by rw [← d.filter_mantissa, hm, e.filter_mantissa]
  have habs := exponentDigits_inj hrest.2
  have hsign : d.leading < 0 ↔ e.leading < 0 := by
    by_cases hd : d.leading < 0 <;> by_cases he : e.leading < 0 <;> simp [hd, he] at hrest ⊢
  exact eq_of_digits_of_leading hdigits (by omega)

theorem point_or_digit_of_mem_positional {c : Char} (h : c ∈ d.positional) : c.isDigit = true ∨ c = '.' := by
  rw [positional, List.mem_append, List.mem_cons] at h
  rcases h with h | rfl | h
  · exact .inl (isDigit_of_mem_positionalDigits (List.mem_append_left _ h))
  · exact .inr rfl
  · exact .inl (isDigit_of_mem_positionalDigits (List.mem_append_right _ h))

theorem nearest_of_positional_eq (h : d.positional = e.positional) : d.nearest false = e.nearest false := by
  have hread (d : Decimal) : Binary64.ofText? (String.ofList d.positional) = some (d.nearest false) := by
    have hend : StopsAt continuesNumber [] := fun _ hc => nomatch hc
    exact ofText?_of_spells (d.spells_positional hend)
  rw [← Option.some.injEq, ← hread d, h, hread]

theorem positional_ne_scientific (d e : Decimal) : d.positional ≠ e.scientific := by
  intro h
  have he : 'e' ∈ d.positional := by rw [h, scientific_eq]; simp
  rcases point_or_digit_of_mem_positional he with hdigit | hpoint
  · cases hdigit
  · cases hpoint

end Decimal

/-! ## Numbers -/

namespace Binary64

/-- The characters of the echo of a number without its sign. -/
def isEchoCharacter (c : Char) : Bool := c.isDigit || c == '.' || c == 'e' || c == '+' || c == '-'

theorem isEchoCharacter_of_mem_echoDigits {d : Decimal} {c : Char} (h : c ∈ echoDigits d) :
    isEchoCharacter c = true := by
  have hpart (hc : c.isDigit = true ∨ c = '.') : isEchoCharacter c = true := by
    rcases hc with hc | rfl <;> simp [isEchoCharacter, *]
  unfold echoDigits at h
  split at h
  · exact hpart (Decimal.point_or_digit_of_mem_positional h)
  · rw [Decimal.scientific_eq, List.mem_append, List.mem_cons, List.mem_cons] at h
    rcases h with h | rfl | rfl | h
    · exact hpart (Decimal.mem_mantissa h)
    · rfl
    · split <;> rfl
    · exact hpart (.inl (Decimal.isDigit_of_mem_exponentDigits h))

theorem exists_digit_echoDigits (d : Decimal) : ∃ c cs, echoDigits d = c :: cs ∧ c.isDigit = true := by
  obtain ⟨c, cs, hcs⟩ := List.exists_cons_of_ne_nil d.digits_ne_nil
  have hc : c.isDigit = true := Decimal.isDigit_of_mem_digits (d := d) (by rw [hcs]; exact List.mem_cons_self)
  unfold echoDigits
  split
  · obtain ⟨hne, -⟩ := d.positionalDigits_ne_nil
    obtain ⟨first, rest, hfirst⟩ := List.exists_cons_of_ne_nil hne
    refine ⟨first, rest ++ '.' :: d.positionalDigits.2, ?_, ?_⟩
    · rw [Decimal.positional, hfirst, List.cons_append]
    · exact Decimal.isDigit_of_mem_positionalDigits (d := d) (by rw [hfirst]; exact List.mem_cons_self)
  · refine ⟨c, (d.mantissa ++ 'e' :: (if d.leading < 0 then '-' else '+') ::
      Decimal.exponentDigits d.leading.natAbs).tail, ?_, hc⟩
    rw [Decimal.scientific_eq, Decimal.mantissa, hcs]
    split <;> simp_all

theorem nearest_of_echoDigits_eq {d e : Decimal} (h : echoDigits d = echoDigits e) :
    d.nearest false = e.nearest false := by
  unfold echoDigits at h
  split at h <;> split at h
  · exact Decimal.nearest_of_positional_eq h
  · exact absurd h (Decimal.positional_ne_scientific d e)
  · exact absurd h.symm (Decimal.positional_ne_scientific e d)
  · rw [Decimal.scientific_inj h]

/-- The shortest digits of a magnitude are those of no other. -/
theorem eq_of_echoDigits_shortest {m n : Magnitude} (h : echoDigits m.shortest = echoDigits n.shortest) : m = n := by
  have hnearest := nearest_of_echoDigits_eq h
  rw [Decimal.nearest_eq_finite m.magnitude?_shortest, Decimal.nearest_eq_finite n.magnitude?_shortest] at hnearest
  cases hnearest
  rfl

end Binary64

end Abacus
