import Abacus.Text.Blank
import Abacus.Token.Scan

/-!
# Segmentations

A source is segmented into blanks and lexemes. A lexeme is a text of one of four classes that no longer text of its
class could replace; it says which token stands there.
-/

namespace Abacus

/-- The text starts with no character of the class. -/
def StopsAt (p : Char → Bool) (cs : List Char) : Prop := ∀ c ∈ cs.head?, p c = false

/-- What a number must not be followed by. -/
def continuesNumber (c : Char) : Bool := c.isDigit || c == '.'

/-- The text spells a lexeme, when the given text follows it. -/
inductive Spells : List Char → List Char → Lexeme → Prop
  | whole {ds rest} : ds ≠ [] → (∀ c ∈ ds, c.isDigit = true) → StopsAt continuesNumber rest →
      Spells ds rest (.number ((Decimal.ofDigits ds []).nearest false))
  | fraction {ds fs rest} : ds ≠ [] → (∀ c ∈ ds, c.isDigit = true) → fs ≠ [] → (∀ c ∈ fs, c.isDigit = true) →
      StopsAt continuesNumber rest →
      Spells (ds ++ '.' :: fs) rest (.number ((Decimal.ofDigits ds fs).nearest false))
  | word {c cs rest} : Text.isLetter c = true → (∀ d ∈ cs, Scan.isWordCharacter d = true) →
      StopsAt Scan.isWordCharacter rest →
      Spells (c :: cs) rest (Lexeme.ofWord (String.ofList (c :: cs)))
  | equals {rest} : StopsAt Operator.isCharacter rest → Spells ['='] rest .equals
  | operator {rest} (op : Operator) : StopsAt Operator.isCharacter rest →
      Spells op.symbol.toList rest (.operator op)
  | paren {c l rest} : (c, l) ∈ Lexeme.punctuation → Spells [c] rest l

/-- A text that starts at the given place is made of blanks and the lexemes of the tokens. -/
inductive Segmented : Nat → List Char → List Token → Prop
  | blank {start cs} : (∀ c ∈ cs, Text.isBlank c = true) → Segmented start cs []
  | token {start gap text rest lexeme tokens} : (∀ c ∈ gap, Text.isBlank c = true) → Spells text rest lexeme →
      Segmented (start + gap.length + text.length) rest tokens →
      Segmented start (gap ++ text ++ rest)
        (⟨lexeme, ⟨(start + gap.length : Nat), text.length⟩⟩ :: tokens)

end Abacus
