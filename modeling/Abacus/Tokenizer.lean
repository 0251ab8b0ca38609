import Abacus.Source.Cursor
import Abacus.Text.Blank
import Abacus.Token.Scan

/-!
# Tokenizers

A tokenizer hands out the tokens of a source one at a time. The end of the source and the first lexical fault finish it
for good; the fault can be collected once.
-/

namespace Abacus

structure Tokenizer where
  cursor : Cursor
  finished : Bool
  pending? : Option LexicalFault

namespace Tokenizer

def ofSource (source : List Char) : Tokenizer := ⟨⟨source, 0⟩, false, none⟩

/-- The cursor at the first character of the next lexeme. -/
def start (t : Tokenizer) : Cursor := (t.cursor.advanceWhile Text.isBlank).2

/-- The outcome of a scan at `start`. -/
def accept (t : Tokenizer) (start : Cursor) (scan : Scan) : Option Token × Tokenizer :=
  let span : Span := ⟨start.position, scan.length⟩
  match scan.result with
  | .ok lexeme => (some ⟨lexeme, span⟩, { t with cursor := start.skip scan.length })
  | .error cause => (none, ⟨start.skip scan.length, true, some ⟨cause, span⟩⟩)

def next (t : Tokenizer) : Option Token × Tokenizer :=
  if t.finished then (none, t)
  else match t.start.rest with
    | [] => (none, { t with cursor := t.start, finished := true })
    | c :: cs => t.accept t.start (Scan.ofStart c cs)

/-- The fault that finished the tokenizer, unless it was collected before. -/
def popFault (t : Tokenizer) : Option LexicalFault × Tokenizer := (t.pending?, { t with pending? := none })

/-! ## Progress -/

theorem rest_start (t : Tokenizer) : t.start.rest = t.cursor.rest.dropWhile Text.isBlank :=
  Cursor.rest_advanceWhile ..

theorem rest_start_le (t : Tokenizer) : t.start.rest.length ≤ t.cursor.rest.length := by
  rw [rest_start]; exact (List.dropWhile_sublist _).length_le

theorem cursor_accept (t : Tokenizer) (start : Cursor) (scan : Scan) :
    (t.accept start scan).2.cursor = start.skip scan.length := by
  unfold accept; split <;> rfl

theorem rest_next_le (t : Tokenizer) : t.next.2.cursor.rest.length ≤ t.cursor.rest.length := by
  have h := t.rest_start_le
  unfold next
  split
  · exact Nat.le_refl _
  · split
    · exact h
    · rw [cursor_accept, Cursor.rest_skip, List.length_drop]; omega

theorem rest_lt_of_next {t u : Tokenizer} {token : Token} (h : t.next = (some token, u)) :
    u.cursor.rest.length < t.cursor.rest.length := by
  have hs := t.rest_start_le
  unfold next at h
  split at h
  · simp at h
  · split at h
    · simp at h
    · rename_i c cs hr
      have hu : u.cursor = t.start.skip (Scan.ofStart c cs).length := by rw [← cursor_accept t, h]
      have := Scan.ofStart_length_pos c cs
      rw [hr, List.length_cons] at hs
      rw [hu, Cursor.rest_skip, List.length_drop, hr, List.length_cons]; omega

/-! ## All tokens -/

/-- The tokens still to come, and the tokenizer after them. -/
def drain (t : Tokenizer) : List Token × Tokenizer :=
  match h : t.next with
  | (none, last) => ([], last)
  | (some token, after) =>
    have := rest_lt_of_next h
    let later := drain after
    (token :: later.1, later.2)
termination_by t.cursor.rest.length

end Tokenizer

/-- The tokens of a source up to its end or its first lexical fault, and the fault. -/
def lex (source : List Char) : List Token × Option LexicalFault :=
  let (tokens, tokenizer) := (Tokenizer.ofSource source).drain
  (tokens, tokenizer.pending?)

def tokenize (source : List Char) : Except LexicalFault (List Token) :=
  match lex source with
  | (tokens, none) => .ok tokens
  | (_, some fault) => .error fault

end Abacus
