import Abacus.Numeral.Reader
import Abacus.Tokenizer

/-!
# Attempts to read tokens

The tokenizer by the single operations that it is made of. An operation breaks down where its argument is out of place: no
character is ahead, a span ends before it starts, a text is no numeral. Only the power of two numbers is stopped there
and goes on; every other breakdown ends the attempt.
-/

namespace Abacus

/-- Why an operation gives no result. -/
inductive Breakdown where
  | pastEnd (cursor : Cursor)
  | span (error : SpanError)
  | noNumeral (text : List Char)
  /-- Something other than a character is to be quoted. -/
  | noCharacter
  | unboundName (name : String)
  | noRule (kind : String)
  | divisionByZero
  | mathDomain
  | mathOverflow

theorem Breakdown.ok_bind {α β : Type} (a : α) (next : α → Except Breakdown β) :
    (Except.ok a >>= next) = next a := rfl

/-! ## Operations -/

def Cursor.attemptNext (c : Cursor) : Except Breakdown (Char × Cursor) := c.next?.elim (.error (.pastEnd c)) .ok

def Span.attemptBetween (start stop : Int) : Except Breakdown Span := (between start stop).mapError .span

def Binary64.attemptText (text : List Char) : Except Breakdown Binary64 :=
  (ofText? (String.ofList text)).elim (.error (.noNumeral text)) .ok

/-- The character that a message quotes. -/
def Text.attemptCharacter (c? : Option Char) : Except Breakdown Char := c?.elim (.error .noCharacter) .ok

/-! ## Single tokens -/

/-- A lexeme with its span, or the fault in its place, and the cursor behind it. -/
abbrev Lexed := Except LexicalFault Token × Cursor

namespace Lexed

/-- A number whose digits go from the given place up to the cursor. -/
def attemptDigits (start : Nat) (c : Cursor) : Except Breakdown Lexed := do
  let value ← Binary64.attemptText (slice c.source start c.position)
  let span ← Span.attemptBetween start c.position
  return (.ok ⟨.number value, span⟩, c)

def attemptNumber (c : Cursor) : Except Breakdown Lexed := do
  let whole := (c.advanceWhile Char.isDigit).2
  if whole.peek 0 = some '.' then
    let (_, point) ← whole.attemptNext
    let ahead := point.peek 0
    if ahead = none then
      let span ← Span.attemptBetween c.position point.position
      return (.error ⟨.endAfterPoint, span⟩, point)
    if !ahead.any Char.isDigit then
      let illegal ← Text.attemptCharacter ahead
      let span ← Span.attemptBetween c.position point.position
      return (.error ⟨.illegalAfterPoint illegal, span⟩, point)
    attemptDigits c.position (point.advanceWhile Char.isDigit).2
  else attemptDigits c.position whole

def attemptWord (c : Cursor) : Except Breakdown Lexed := do
  let (first, second) ← c.attemptNext
  let (others, last) := second.advanceWhile Scan.isWordCharacter
  let span ← Span.attemptBetween c.position last.position
  return (.ok ⟨.ofWord (String.ofList (first :: others)), span⟩, last)

def attemptOperator (c : Cursor) : Except Breakdown Lexed := do
  let (run, last) := c.advanceWhile Operator.isCharacter
  let span ← Span.attemptBetween c.position last.position
  if run = ['='] then return (.ok ⟨.equals, span⟩, last)
  match Operator.ofSymbol? (String.ofList run) with
  | none => return (.error ⟨.unknownOperator run, span⟩, last)
  | some op => return (.ok ⟨.operator op, span⟩, last)

def attemptPunctuation (c : Cursor) : Except Breakdown Lexed := do
  let ahead := c.peek 0
  let (_, last) ← c.attemptNext
  let span ← (Span.ofLength c.position 1).mapError .span
  match ahead.bind (fun ch => Lexeme.punctuation.lookup ch) with
  | some lexeme => return (.ok ⟨lexeme, span⟩, last)
  | none =>
    let illegal ← Text.attemptCharacter ahead
    return (.error ⟨.illegalStart illegal, span⟩, last)

/-- Reads the lexeme ahead. -/
def attempt (c : Cursor) : Except Breakdown Lexed :=
  let ahead := c.peek 0
  if ahead.any Char.isDigit then attemptNumber c
  else if ahead.any Text.isLetter then attemptWord c
  else if ahead.any Operator.isCharacter then attemptOperator c
  else attemptPunctuation c

end Lexed

namespace Tokenizer

/-- Goes on behind a lexeme. A fault finishes the tokenizer. -/
def behind (t : Tokenizer) : Lexed → Option Token × Tokenizer
  | (.ok token, c) => (some token, { t with cursor := c })
  | (.error fault, c) => (none, ⟨c, true, some fault⟩)

def attemptNext (t : Tokenizer) : Except Breakdown (Option Token × Tokenizer) :=
  if t.finished then .ok (none, t)
  else if t.start.atEnd then .ok (none, { t with cursor := t.start, finished := true })
  else (Lexed.attempt t.start).map t.behind

end Tokenizer

end Abacus
