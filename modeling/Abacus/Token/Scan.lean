import Abacus.Decimal.Basic
import Abacus.Fault
import Abacus.Text.Digit
import Abacus.Text.Letter
import Abacus.Token.Basic

/-!
# Reading one lexeme

The first character decides the class of a lexeme, and the longest text of that class is read. A number has digits on
both sides of its point. A run of operator characters is one symbol, known or not.
-/

namespace Abacus

/-- What was read and how many characters it took. -/
structure Scan where
  length : Nat
  result : Except LexicalCause Lexeme

namespace Scan

def ofNumber (cs : List Char) : Scan :=
  let whole := cs.takeWhile Char.isDigit
  match cs.dropWhile Char.isDigit with
  | ['.'] => ⟨whole.length + 1, .error .endAfterPoint⟩
  | '.' :: c :: rest =>
    let fraction := (c :: rest).takeWhile Char.isDigit
    if c.isDigit then
      ⟨whole.length + 1 + fraction.length, .ok (.number ((Decimal.ofDigits whole fraction).nearest false))⟩
    else ⟨whole.length + 1, .error (.illegalAfterPoint c)⟩
  | _ => ⟨whole.length, .ok (.number ((Decimal.ofDigits whole []).nearest false))⟩

/-- The characters of a name behind its first, which is a letter. -/
def isWordCharacter (c : Char) : Bool := Text.isLetter c || Text.isDigit c

def ofWord (first : Char) (cs : List Char) : Scan :=
  let word := first :: cs.takeWhile isWordCharacter
  ⟨word.length, .ok (.ofWord (String.ofList word))⟩

def ofOperator (cs : List Char) : Scan :=
  let run := cs.takeWhile Operator.isCharacter
  let lexeme := if run = ['='] then some .equals else (Operator.ofSymbol? (String.ofList run)).map .operator
  ⟨run.length, lexeme.elim (.error (.unknownOperator run)) .ok⟩

/-- Reads the lexeme that starts with `c`, which is not a blank. -/
def ofStart (c : Char) (cs : List Char) : Scan :=
  if c.isDigit then ofNumber (c :: cs)
  else if Text.isLetter c then ofWord c cs
  else if Operator.isCharacter c then ofOperator (c :: cs)
  else ⟨1, (Lexeme.punctuation.lookup c).elim (.error (.illegalStart c)) .ok⟩

/-! ## Progress -/

theorem ofStart_length_pos (c : Char) (cs : List Char) : 0 < (ofStart c cs).length := by
  unfold ofStart
  split
  · rename_i hc
    have h : (List.takeWhile Char.isDigit (c :: cs)).length ≠ 0 := by simp [hc]
    unfold ofNumber; split <;> (try split) <;> simp only <;> omega
  · split
    · simp [ofWord]
    · split
      · rename_i hc; simp [ofOperator, hc]
      · simp

theorem ofNumber_length_le (cs : List Char) : (ofNumber cs).length ≤ cs.length := by
  have hcs : (cs.takeWhile Char.isDigit).length + (cs.dropWhile Char.isDigit).length = cs.length := by
    rw [← List.length_append, List.takeWhile_append_dropWhile]
  unfold ofNumber
  split
  · rename_i h
    rw [h] at hcs
    exact Nat.le_of_eq hcs
  · rename_i c rest h
    have hf := (List.takeWhile_sublist Char.isDigit (l := c :: rest)).length_le
    rw [h, List.length_cons] at hcs
    simp only
    split
    · simp only; omega
    · simp only [List.length_cons] at hcs ⊢; omega
  · exact (List.takeWhile_sublist _).length_le

theorem ofStart_length_le (c : Char) (cs : List Char) : (ofStart c cs).length ≤ (c :: cs).length := by
  unfold ofStart
  split
  · exact ofNumber_length_le _
  · split
    · exact Nat.succ_le_succ (List.takeWhile_sublist _).length_le
    · split
      · exact (List.takeWhile_sublist _).length_le
      · simp

end Scan

end Abacus
