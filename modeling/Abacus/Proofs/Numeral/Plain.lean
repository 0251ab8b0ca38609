import Abacus.Attempt.Numerals
import Abacus.Proofs.Lexing.Tokens
import Abacus.Proofs.Numeral.Echo

/-!
# Numbers as source text

An echo is read back as the decimal that it shows, with or without a power of ten, so that to expand it gives the
positional notation of that decimal. This is one number token, and its value is the number without its sign.
-/

namespace Abacus

open Numeral Text

variable {d : Decimal} {x : Binary64}

/-! ## Echoes that are read back -/

namespace Decimal

/-- The point stands behind the first digit. -/
theorem exists_splitAt?_mantissa (d : Decimal) : ∃ first rest fraction?, d.digits = first :: rest ∧
    splitAt? (· == '.') d.mantissa = ([first], fraction?) ∧ fraction?.getD [] = rest := by
  have hpoint {c : Char} (h : c ∈ d.digits) : (c == '.') = false := ne_point_of_isDigit (isDigit_of_mem_digits h)
  obtain ⟨first, rest, hdigits⟩ := List.exists_cons_of_ne_nil d.digits_ne_nil
  have hfirst : ∀ c ∈ [first], (c == '.') = false := by
    intro c hc
    refine hpoint ?_
    rw [hdigits, List.mem_singleton.1 hc]
    exact List.mem_cons_self
  unfold mantissa
  cases rest with
  | nil =>
      rw [hdigits]
      exact ⟨first, [], none, rfl, splitAt?_of_forall hfirst, rfl⟩
  | cons second rest =>
      rw [hdigits]
      exact ⟨first, second :: rest, some (second :: rest), rfl, splitAt?_append hfirst (.cons rfl _), rfl⟩

theorem exponent?_signed (i : Int) :
    exponent? (some ((if i < 0 then '-' else '+') :: exponentDigits i.natAbs)) = some i := by
  have hdigits : grouped? (exponentDigits i.natAbs) = some (exponentDigits i.natAbs) :=
    grouped?_digits fun c hc => isDigit_of_mem_exponentDigits hc
  have hne : (guard (exponentDigits i.natAbs ≠ []) : Option Unit) = some () := if_pos (by simp [exponentDigits])
  have hvalue : exponent? (some ((if i < 0 then '-' else '+') :: exponentDigits i.natAbs)) =
      some (if (if i < 0 then true else false) then -(i.natAbs : Int) else i.natAbs) := by
    have hsign : splitSign ((if i < 0 then '-' else '+') :: exponentDigits i.natAbs) =
        (if i < 0 then true else false, exponentDigits i.natAbs) := by
      split <;> rfl
    rw [exponent?, hsign]
    dsimp only
    rw [Option.bind_eq_bind, hdigits, Option.bind_some, Option.bind_eq_bind, hne, Option.bind_some,
      ofDigitChars_exponentDigits]
    rfl
  rw [hvalue]
  by_cases hi : i < 0
  · rw [if_pos hi, if_pos rfl, ← Int.eq_neg_natAbs_of_nonpos (Int.le_of_lt hi)]
  · rw [if_neg hi, if_neg Bool.false_ne_true, Int.natAbs_of_nonneg (Int.not_lt.1 hi)]

theorem ofNumeral?_scientific (d : Decimal) : ofNumeral? d.scientific = some d := by
  have hpower : splitAt? (· == 'e') d.scientific =
      (d.mantissa, some ((if d.leading < 0 then '-' else '+') :: exponentDigits d.leading.natAbs)) := by
    rw [scientific_eq]
    refine splitAt?_append (fun c hc => ?_) (.cons rfl _)
    rcases mem_mantissa hc with hdigit | rfl
    · rw [beq_eq_false_iff_ne]
      rintro rfl
      cases hdigit
    · rfl
  obtain ⟨first, rest, fraction?, hdigits, hpoint, hfraction⟩ := d.exists_splitAt?_mantissa
  have hdigit : ∀ c ∈ first :: rest, c.isDigit = true := fun c hc => isDigit_of_mem_digits (d := d) (hdigits ▸ hc)
  have hwhole : grouped? [first] = some [first] :=
    grouped?_digits fun c hc => hdigit c (List.mem_singleton.1 hc ▸ List.mem_cons_self)
  have hrest : grouped? rest = some rest := grouped?_digits fun c hc => hdigit c (List.mem_cons_of_mem _ hc)
  have hcoefficient : Nat.ofDigitChars 10 (first :: rest) 0 = d.coefficient := by
    rw [← hdigits, digits, Nat.ofDigitChars_ten_toDigits]
  have hexponent : -(rest.length : Int) + d.leading = d.exponent := by
    rw [leading, hdigits, List.length_cons]
    omega
  have hcount : (guard ([first].length + rest.length ≠ 0) : Option Unit) = some () :=
    if_pos (by rw [List.length_singleton]; omega)
  rw [ofNumeral?, hpower]
  dsimp only
  rw [hpoint]
  dsimp only [Option.bind_eq_bind]
  rw [hwhole, Option.bind_some, hfraction, hrest, Option.bind_some, exponent?_signed, Option.bind_some, hcount,
    Option.bind_some]
  dsimp only [ofDigits]
  rw [List.singleton_append, hcoefficient, hexponent]
  rfl

theorem positional_eq_expanded (d : Decimal) :
    (if '.' ∈ d.expanded then d.expanded else d.expanded ++ ['.', '0']) = d.positional := by
  by_cases he : 0 ≤ d.exponent
  · have hpoint : '.' ∉ d.expanded := by
      rw [expanded, if_pos he, List.mem_append, List.mem_replicate]
      rintro (h | ⟨-, h⟩)
      · exact absurd (isDigit_of_mem_digits h) (by decide)
      · exact absurd h (by decide)
    rw [if_neg hpoint, expanded, if_pos he, positional, positionalDigits_of_nonneg he]
  · have hexpanded : d.expanded = d.positional := if_neg he
    rw [if_pos (by simp [hexpanded, positional]), hexpanded]

/-- Positional notation is one number token. -/
theorem tokenize_positional (d : Decimal) :
    tokenize d.positional = .ok [⟨.number (d.nearest false), ⟨0, d.positional.length⟩⟩] := by
  have hend : StopsAt continuesNumber [] := fun _ hc => nomatch hc
  have hsegmented : Segmented 0 ([] ++ d.positional ++ [])
      [⟨.number (d.nearest false), ⟨(0 + 0 : Nat), d.positional.length⟩⟩] :=
    .token (fun _ h => nomatch h) (d.spells_positional hend) (.blank fun _ h => nomatch h)
  rw [List.nil_append, List.append_nil] at hsegmented
  exact tokenize_eq_ok_iff_segmented.2 hsegmented

end Decimal

/-! ## Numbers that are expanded -/

namespace Binary64

theorem splitSign_signText {c : Char} (hc : c.isDigit = true) (negative : Bool) (cs : List Char) :
    splitSign ((signText negative).toList ++ c :: cs) = (negative, c :: cs) := by
  cases negative with
  | false => exact splitSign_of_isDigit hc
  | true => rfl

theorem attemptExpand_scientific (h : echoDigits d = d.scientific) (negative : Bool) :
    attemptExpand ((signText negative).toList ++ d.scientific) = .ok ((signText negative).toList ++ d.expanded) := by
  obtain ⟨c, cs, hcs, hc⟩ := exists_digit_echoDigits d
  have hsign : splitSign ((signText negative).toList ++ d.scientific) = (negative, d.scientific) := by
    rw [← h, hcs]
    exact splitSign_signText hc negative cs
  rw [attemptExpand, hsign]
  dsimp only
  rw [Decimal.ofNumeral?_scientific]
  rfl

theorem not_mem_signText {c : Char} (hc : c ≠ '-') (negative : Bool) : c ∉ (signText negative).toList := by
  cases negative with
  | false => exact List.not_mem_nil
  | true => simpa [signText] using hc

/-- A point that is missing is put behind the digits of the number, whatever its sign. -/
theorem ofList_signText_expanded (negative : Bool) (d : Decimal) :
    String.ofList (if '.' ∈ (signText negative).toList ++ d.expanded then (signText negative).toList ++ d.expanded
      else (signText negative).toList ++ d.expanded ++ ['.', '0']) =
      signText negative ++ String.ofList d.positional := by
  have hpoint : '.' ∈ (signText negative).toList ++ d.expanded ↔ '.' ∈ d.expanded := by
    simp [not_mem_signText]
  rw [← d.positional_eq_expanded]
  by_cases h : '.' ∈ d.expanded
  · rw [if_pos (hpoint.2 h), if_pos h, String.ofList_append, String.ofList_toList]
  · rw [if_neg (mt hpoint.1 h), if_neg h, List.append_assoc, String.ofList_append, String.ofList_toList]

theorem attemptPlain_finite (negative : Bool) (m : Magnitude) :
    attemptPlain (.finite negative m) = .ok (plain (.finite negative m)) := by
  have htext : (echo (.finite negative m)).toList = (signText negative).toList ++ echoDigits m.shortest := by
    simp [echo]
  have hmem : 'e' ∈ (echo (.finite negative m)).toList ↔ 'e' ∈ echoDigits m.shortest := by
    simp [htext, not_mem_signText]
  simp only [attemptPlain]
  by_cases hrange : -4 ≤ m.shortest.leading ∧ m.shortest.leading < 16
  · have hdigits : echoDigits m.shortest = m.shortest.positional := if_pos hrange
    have he : 'e' ∉ m.shortest.positional := fun h =>
      (Decimal.point_or_digit_of_mem_positional h).elim (fun h => by cases h) (fun h => by cases h)
    rw [hdigits] at hmem
    rw [if_pos (mt hmem.1 he), echo, hdigits]
    rfl
  · have hdigits : echoDigits m.shortest = m.shortest.scientific := if_neg hrange
    have he : 'e' ∈ m.shortest.scientific := by rw [Decimal.scientific_eq]; simp
    rw [hdigits] at hmem htext
    rw [if_neg (not_not_intro (hmem.2 he)), htext, attemptExpand_scientific hdigits, Breakdown.ok_bind]
    exact congrArg Except.ok (ofList_signText_expanded negative m.shortest)

theorem attemptPlain_infinite (negative : Bool) :
    attemptPlain (.infinite negative) = .ok (plain (.infinite negative)) := by
  have hpositional : overflowing.positional = ['1'] ++ List.replicate 309 '0' ++ ['.', '0'] := by
    rw [Decimal.positional, Decimal.positionalDigits_of_nonneg (by decide)]
    rfl
  have htext : plain (.infinite negative) =
      signText negative ++ ("1" ++ String.ofList (List.replicate 309 '0') ++ ".0") := by
    rw [plain, hpositional, String.ofList_append, String.ofList_append]
  rw [htext, ← String.append_assoc, ← String.append_assoc]
  rfl

theorem attemptPlain_eq (x : Binary64) : x.attemptPlain = .ok x.plain := by
  cases x with
  | nan => rfl
  | infinite negative => exact attemptPlain_infinite negative
  | finite negative m => exact attemptPlain_finite negative m

/-- A number is written in positional notation behind its sign, and this is read as one token of its absolute value. -/
theorem attemptPlain_lexes (h : x.isNaN = false) : ∃ whole fraction : List Char,
    x.attemptPlain = .ok x.plain ∧
    x.plain.toList = (if x.isNegative then ['-'] else []) ++ (whole ++ '.' :: fraction) ∧
    whole ≠ [] ∧ fraction ≠ [] ∧ (∀ c ∈ whole ++ fraction, c.isDigit = true) ∧
    tokenize (whole ++ '.' :: fraction) =
      .ok [⟨.number x.abs, ⟨0, (whole ++ '.' :: fraction).length⟩⟩] := by
  obtain ⟨d, htext, habs⟩ := exists_plain h
  obtain ⟨hwhole, hfraction⟩ := d.positionalDigits_ne_nil
  have hsign : (signText x.isNegative).toList = if x.isNegative then ['-'] else [] := by
    cases x.isNegative <;> rfl
  refine ⟨d.positionalDigits.1, d.positionalDigits.2, attemptPlain_eq x, ?_, hwhole, hfraction,
    fun _ hc => Decimal.isDigit_of_mem_positionalDigits hc, ?_⟩
  · rw [htext, hsign]
    rfl
  · rw [← habs]
    exact d.tokenize_positional

/-- The least positive magnitude, with the sign set. -/
theorem attemptPlain_lexes_least :
    (finite true (.unshifted 1 (by decide))).isNaN = false ∧ ∃ whole fraction : List Char,
      (finite true (.unshifted 1 (by decide))).attemptPlain = .ok (finite true (.unshifted 1 (by decide))).plain ∧
      (finite true (.unshifted 1 (by decide))).plain.toList = '-' :: (whole ++ '.' :: fraction) ∧
      tokenize (whole ++ '.' :: fraction) =
        .ok [⟨.number (finite false (.unshifted 1 (by decide))), ⟨0, (whole ++ '.' :: fraction).length⟩⟩] := by
  obtain ⟨whole, fraction, hplain, htext, -, -, -, htokens⟩ :=
    attemptPlain_lexes (x := finite true (.unshifted 1 (by decide))) rfl
  exact ⟨rfl, whole, fraction, hplain, htext, htokens⟩

end Binary64

end Abacus
