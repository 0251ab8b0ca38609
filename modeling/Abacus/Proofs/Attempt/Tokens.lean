import Abacus.Attempt.Tokens
import Abacus.Proofs.Numeral.Reading
import Abacus.Proofs.Source.Cursor

/-!
# Attempts to read tokens do not break down

Before a character is taken, another one was seen there, a span goes from a cursor to one that it was moved to, and the
text between them is a number lexeme where it is read as a numeral. So each attempt ends with what the scan of the text
ahead says.
-/

namespace Abacus

variable {c : Cursor} {ch : Char} {cs rest : List Char} {n : Nat}

/-! ## Operations -/

theorem Cursor.attemptNext_of_rest (h : c.rest = ch :: cs) : c.attemptNext = .ok (ch, c.skip 1) := by
  have hget : c.source[c.position]? = some ch := by
    rw [← List.head?_drop, ← Cursor.rest, h, List.head?_cons]
  rw [attemptNext, next?, hget]
  rfl

theorem Span.attemptBetween_skip (c : Cursor) (n : Nat) :
    attemptBetween c.position (c.skip n).position = .ok ⟨c.position, n⟩ := by
  have hn : ((c.skip n).position - c.position : Int) = n := by
    have hposition : (c.skip n).position = c.position + n := rfl
    omega
  have hlt : ¬ (n : Int) < 0 := by omega
  rw [attemptBetween, between, hn, ofLength, if_neg hlt]
  rfl

/-! ## Lexemes -/

/-- What a scan of the text ahead comes to. -/
def Scan.lexed (scan : Scan) (c : Cursor) : Lexed :=
  (match scan.result with
    | .ok lexeme => .ok ⟨lexeme, ⟨c.position, scan.length⟩⟩
    | .error cause => .error ⟨cause, ⟨c.position, scan.length⟩⟩, c.skip scan.length)

theorem Scan.ofNumber_of_no_point (h : (cs.dropWhile Char.isDigit).head? ≠ some '.') : ofNumber cs =
    ⟨(cs.takeWhile Char.isDigit).length,
      .ok (.number ((Decimal.ofDigits (cs.takeWhile Char.isDigit) []).nearest false))⟩ := by
  unfold ofNumber
  split
  · rename_i hr
    rw [hr] at h
    exact absurd rfl h
  · rename_i hr
    rw [hr] at h
    exact absurd rfl h
  · rfl

theorem Scan.ofNumber_of_point (h : cs.dropWhile Char.isDigit = '.' :: ch :: rest) (hd : ch.isDigit = true) :
    ofNumber cs =
      ⟨(cs.takeWhile Char.isDigit).length + 1 + ((ch :: rest).takeWhile Char.isDigit).length,
        .ok (.number ((Decimal.ofDigits (cs.takeWhile Char.isDigit)
          ((ch :: rest).takeWhile Char.isDigit)).nearest false))⟩ := by
  unfold ofNumber
  rw [h]
  exact if_pos hd

namespace Lexed

open Scan

theorem attemptDigits_eq {value : Binary64} (hd : c.rest.takeWhile Char.isDigit ≠ [])
    (h : ofNumber c.rest = ⟨n, .ok (.number value)⟩) :
    attemptDigits c.position (c.skip n) = .ok ((ofNumber c.rest).lexed c) := by
  obtain ⟨text, rest, hcs, hlength, hspells⟩ := reads_of_ofNumber hd h
  have htext : c.rest.take n = text := by rw [hcs, ← hlength, List.take_left]
  have hle : n ≤ c.rest.length := by rw [hcs, List.length_append]; omega
  have hvalue := ofText?_of_spells (hspells [] List.nil_prefix (by simp))
  have hsource : (c.skip n).source = c.source := rfl
  rw [attemptDigits, hsource, Cursor.slice_skip hle, htext, Binary64.attemptText, hvalue, Span.attemptBetween_skip, h]
  rfl

theorem attemptNumber_eq (hd : c.rest.takeWhile Char.isDigit ≠ []) :
    attemptNumber c = .ok ((ofNumber c.rest).lexed c) := by
  have hwhole : (c.advanceWhile Char.isDigit).2 = c.skip (c.rest.takeWhile Char.isDigit).length := rfl
  have hrest := c.rest_advanceWhile Char.isDigit
  simp only [attemptNumber, Cursor.peek_zero, hrest]
  rw [hwhole] at hrest ⊢
  -- The cases of the scan: a point with the end, a digit or another character behind it, and no point.
  by_cases hp : (c.rest.dropWhile Char.isDigit).head? = some '.'
  · obtain ⟨after, hr⟩ := List.head?_eq_some_iff.1 hp
    have hpoint : (c.skip ((c.rest.takeWhile Char.isDigit).length + 1)).rest = after := by
      rw [← Cursor.skip_skip, Cursor.rest_skip, hrest, hr]
      rfl
    rw [if_pos hp, Cursor.attemptNext_of_rest (hrest.trans hr)]
    simp only [Breakdown.ok_bind, Cursor.skip_skip, hpoint]
    cases after with
    | nil =>
        rw [Span.attemptBetween_skip, ofNumber, hr]
        rfl
    | cons d after =>
        by_cases hdigit : d.isDigit = true
        · have hlast : ((c.skip ((c.rest.takeWhile Char.isDigit).length + 1)).advanceWhile Char.isDigit).2 =
              c.skip ((c.rest.takeWhile Char.isDigit).length + 1 +
                ((d :: after).takeWhile Char.isDigit).length) := by
            rw [Cursor.advanceWhile, hpoint, Cursor.skip_skip]
          simp only [List.head?_cons, Option.any_some, hdigit, hlast]
          exact attemptDigits_eq hd (ofNumber_of_point hr hdigit)
        · simp only [List.head?_cons, Option.any_some, hdigit, Span.attemptBetween_skip, ofNumber, hr]
          rfl
  · rw [if_neg hp]
    exact attemptDigits_eq hd (ofNumber_of_no_point hp)

theorem attemptWord_eq (h : c.rest = ch :: cs) : attemptWord c = .ok ((ofWord ch cs).lexed c) := by
  have hlast : (c.skip 1).advanceWhile isWordCharacter =
      (cs.takeWhile isWordCharacter, c.skip (cs.takeWhile isWordCharacter).length.succ) := by
    rw [Cursor.advanceWhile, Cursor.rest_skip, h, Cursor.skip_skip, Nat.add_comm 1]
    rfl
  rw [attemptWord, Cursor.attemptNext_of_rest h]
  simp only [hlast, Breakdown.ok_bind, Span.attemptBetween_skip]
  rfl

theorem attemptOperator_eq (c : Cursor) : attemptOperator c = .ok ((ofOperator c.rest).lexed c) := by
  have hlast : c.advanceWhile Operator.isCharacter =
      (c.rest.takeWhile Operator.isCharacter, c.skip (c.rest.takeWhile Operator.isCharacter).length) := rfl
  simp only [attemptOperator, hlast, Breakdown.ok_bind, Span.attemptBetween_skip, ofOperator, lexed]
  split
  · rfl
  · cases Operator.ofSymbol? (String.ofList (c.rest.takeWhile Operator.isCharacter)) <;> rfl

theorem attemptPunctuation_eq (h : c.rest = ch :: cs) : attemptPunctuation c =
    .ok (lexed ⟨1, (Lexeme.punctuation.lookup ch).elim (.error (.illegalStart ch)) .ok⟩ c) := by
  have hspan : (Span.ofLength c.position 1).mapError Breakdown.span = .ok ⟨c.position, 1⟩ := rfl
  simp only [attemptPunctuation, Cursor.attemptNext_of_rest h, Cursor.peek_zero, h, List.head?_cons, Option.bind_some,
    hspan, Breakdown.ok_bind]
  cases Lexeme.punctuation.lookup ch <;> rfl

theorem attempt_eq (h : c.rest = ch :: cs) : attempt c = .ok ((ofStart ch cs).lexed c) := by
  simp only [attempt, Cursor.peek_zero, h, List.head?_cons, Option.any_some, ofStart]
  split
  · rename_i hd
    rw [← h]
    exact attemptNumber_eq (by simp [h, hd])
  · split
    · exact attemptWord_eq h
    · split
      · rw [← h]
        exact attemptOperator_eq c
      · exact attemptPunctuation_eq h

end Lexed

namespace Tokenizer

theorem accept_eq_behind (t : Tokenizer) (scan : Scan) : t.accept t.start scan = t.behind (scan.lexed t.start) := by
  rw [accept, Scan.lexed]
  cases scan.result <;> rfl

theorem attemptNext_eq (t : Tokenizer) : t.attemptNext = .ok t.next := by
  rw [attemptNext, next]
  split
  · rfl
  · split
    · rename_i hend
      rw [Cursor.rest_eq_nil_iff.2 hend]
    · rename_i hend
      cases hr : t.start.rest with
      | nil => exact absurd (Cursor.rest_eq_nil_iff.1 hr) hend
      | cons ch cs =>
          rw [Lexed.attempt_eq hr]
          exact congrArg Except.ok (accept_eq_behind t _).symm

end Tokenizer

end Abacus
