import Abacus.Text.Blank
import Abacus.Token.Scan

/-!
# Classes of characters

Blanks, letters, decimal digits, the characters of operators and the parentheses are different characters. The classes
are tables of ranges, so two of them are compared range by range.
-/

namespace Abacus

namespace Text

/-! ## Ranges -/

/-- No code point lies in a range of both lists. -/
def disjoint (r s : List (Nat × Nat)) : Bool :=
  r.all fun a => s.all fun b => a.2.blt b.1 || b.2.blt a.1

theorem inRanges_eq_false_of_disjoint {r s : List (Nat × Nat)} {c : Char} (h : disjoint r s = true)
    (hc : inRanges r c = true) : inRanges s c = false := by
  rw [Bool.eq_false_iff]
  intro hs
  obtain ⟨a, ha, hca⟩ := inRanges_iff.1 hc
  obtain ⟨b, hb, hcb⟩ := inRanges_iff.1 hs
  simp only [disjoint, List.all_eq_true, Bool.or_eq_true, Nat.blt_eq] at h
  have := h a ha b hb
  omega

/-- Exclusion works both ways. -/
theorem eq_false_of_excludes {a b : Bool} (hab : a = true → b = false) (hb : b = true) : a = false := by
  rw [Bool.eq_false_iff]
  intro ha
  rw [hab ha] at hb
  cases hb

/-! ## The table of letters -/

def asciiDigitRanges : List (Nat × Nat) := [(0x30, 0x39)]

def allLetterRanges : List (Nat × Nat) := (0x41, 0x5a) :: (0x61, 0x7a) :: letterRanges

/-- The characters of ASCII that are neither blanks nor digits nor letters. -/
def symbolRanges : List (Nat × Nat) := [(0x21, 0x2f), (0x3a, 0x40), (0x5b, 0x60), (0x7b, 0x7e)]

def isSymbol (c : Char) : Bool := inRanges symbolRanges c

theorem isDigit_eq_inRanges (c : Char) : c.isDigit = inRanges asciiDigitRanges c := by
  simp [Char.isDigit, inRanges, asciiDigitRanges, UInt32.le_iff_toNat_le]

theorem isAlpha_iff {c : Char} :
    c.isAlpha = true ↔ (0x41 ≤ c.toNat ∧ c.toNat ≤ 0x5a) ∨ (0x61 ≤ c.toNat ∧ c.toNat ≤ 0x7a) := by
  change (decide ('A'.val ≤ c.val ∧ c.val ≤ 'Z'.val) || decide ('a'.val ≤ c.val) && decide (c.val ≤ 'z'.val)) = true ↔ _
  simp only [Bool.or_eq_true, Bool.and_eq_true, decide_eq_true_eq, UInt32.le_iff_toNat_le]
  exact Iff.rfl

theorem isLetter_eq_inRanges (c : Char) : isLetter c = inRanges allLetterRanges c := by
  rw [Bool.eq_iff_iff]
  simp only [isLetter, Bool.or_eq_true, isAlpha_iff, inRanges_iff, allLetterRanges, List.mem_cons, or_and_right,
    exists_or, exists_eq_left, or_assoc]

/-- The long table is gone through once, against those of all other classes. -/
theorem isLetter_eq_false_of_inRanges {c : Char}
    (h : (inRanges asciiDigitRanges c || inRanges blankRanges c || inRanges symbolRanges c) = true) :
    isLetter c = false := by
  have hothers : inRanges (asciiDigitRanges ++ blankRanges ++ symbolRanges) c = true := by
    rwa [inRanges, List.any_append, List.any_append]
  rw [isLetter_eq_inRanges]
  exact inRanges_eq_false_of_disjoint (by decide +kernel) hothers

/-! ## Digits and letters -/

theorem isBlank_eq_false_of_isDigit {c : Char} (h : c.isDigit = true) : isBlank c = false := by
  rw [isDigit_eq_inRanges] at h
  exact inRanges_eq_false_of_disjoint (by decide) h

theorem isLetter_eq_false_of_isDigit {c : Char} (h : c.isDigit = true) : isLetter c = false := by
  rw [isDigit_eq_inRanges] at h
  exact isLetter_eq_false_of_inRanges (by rw [h]; rfl)

theorem isDigit_eq_false_of_isLetter {c : Char} (h : isLetter c = true) : c.isDigit = false :=
  eq_false_of_excludes isLetter_eq_false_of_isDigit h

theorem isLetter_eq_false_of_isBlank {c : Char} (h : isBlank c = true) : isLetter c = false := by
  have hranges : inRanges blankRanges c = true := h
  exact isLetter_eq_false_of_inRanges (by rw [hranges, Bool.or_true]; rfl)

theorem isBlank_eq_false_of_isLetter {c : Char} (h : isLetter c = true) : isBlank c = false :=
  eq_false_of_excludes isLetter_eq_false_of_isBlank h

/-! ## Symbols -/

theorem isBlank_eq_false_of_isSymbol {c : Char} (h : isSymbol c = true) : isBlank c = false :=
  inRanges_eq_false_of_disjoint (by decide) h

theorem isDigit_eq_false_of_isSymbol {c : Char} (h : isSymbol c = true) : c.isDigit = false := by
  rw [isDigit_eq_inRanges]
  exact inRanges_eq_false_of_disjoint (by decide) h

theorem isLetter_eq_false_of_isSymbol {c : Char} (h : isSymbol c = true) : isLetter c = false := by
  have hranges : inRanges symbolRanges c = true := h
  exact isLetter_eq_false_of_inRanges (by rw [hranges, Bool.or_true])

end Text

open Text

theorem Operator.isSymbol_of_isCharacter {c : Char} (h : isCharacter c = true) : isSymbol c = true := by
  have hall : characters.all isSymbol = true := by decide
  exact List.all_eq_true.1 hall c (List.contains_iff_mem.1 h)

theorem Lexeme.isSymbol_of_mem_punctuation {c : Char} {l : Lexeme} (h : (c, l) ∈ punctuation) :
    isSymbol c = true ∧ Operator.isCharacter c = false := by
  have hall : punctuation.all (fun p => isSymbol p.1 && !Operator.isCharacter p.1) = true := by decide
  simpa using List.all_eq_true.1 hall _ h

/-! ## Characters of words and operators -/

theorem Scan.isWordCharacter_eq_false_of_isBlank {c : Char} (h : isBlank c = true) : isWordCharacter c = false := by
  have hd : Text.isDigit c = false := inRanges_eq_false_of_disjoint (by decide) h
  rw [isWordCharacter, isLetter_eq_false_of_isBlank h, hd, Bool.or_false]

theorem Scan.isWordCharacter_eq_false_of_isSymbol {c : Char} (h : isSymbol c = true) : isWordCharacter c = false := by
  have hd : Text.isDigit c = false := inRanges_eq_false_of_disjoint (by decide) h
  rw [isWordCharacter, isLetter_eq_false_of_isSymbol h, hd, Bool.or_false]

theorem Operator.isCharacter_eq_false_of_isBlank {c : Char} (h : isBlank c = true) : isCharacter c = false :=
  eq_false_of_excludes (fun hc => isBlank_eq_false_of_isSymbol (isSymbol_of_isCharacter hc)) h

theorem Operator.isCharacter_eq_false_of_isDigit {c : Char} (h : c.isDigit = true) : isCharacter c = false :=
  eq_false_of_excludes (fun hc => isDigit_eq_false_of_isSymbol (isSymbol_of_isCharacter hc)) h

theorem Operator.isCharacter_eq_false_of_isLetter {c : Char} (h : isLetter c = true) : isCharacter c = false :=
  eq_false_of_excludes (fun hc => isLetter_eq_false_of_isSymbol (isSymbol_of_isCharacter hc)) h

end Abacus
