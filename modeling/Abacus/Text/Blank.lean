import Abacus.Text.Range

/-!
# Blanks

The characters with the bidirectional class of a blank or a separator, or with a space as their category, in
Unicode 14.
-/

namespace Abacus.Text

def blankRanges : List (Nat × Nat) :=
  [(0x9, 0xd), (0x1c, 0x20), (0x85, 0x85), (0xa0, 0xa0), (0x1680, 0x1680), (0x2000, 0x200a), (0x2028, 0x2029),
   (0x202f, 0x202f), (0x205f, 0x205f), (0x3000, 0x3000)]

def isBlank (c : Char) : Bool := inRanges blankRanges c

theorem isBlank_of_isWhitespace {c : Char} (h : c.isWhitespace = true) : isBlank c = true := by
  simp only [Char.isWhitespace, Bool.or_eq_true, decide_eq_true_eq] at h
  rcases h with ((rfl | rfl) | rfl) | rfl <;> decide

/-! ## Trimming -/

/-- What is left between the characters of a class at both ends. -/
def trimmed (p : Char → Bool) (cs : List Char) : List Char :=
  ((cs.dropWhile p).reverse.dropWhile p).reverse

/-- The text without the blanks at its ends. -/
def strip (s : String) : String := String.ofList (trimmed isBlank s.toList)

/-- The text without the blanks at its end. -/
def stripEnd (s : String) : String := String.ofList (s.toList.reverse.dropWhile isBlank).reverse

end Abacus.Text
