import Abacus.Proofs.Lexing.Misspelling
import Abacus.Proofs.Parsing.LexicalFaults

/-!
# Messages

A message never breaks its line. A character that cannot be seen is escaped, a run of operator characters has no line
break in it, and a parser names only kinds of lexemes.
-/

namespace Abacus

open Text

theorem newline_not_mem_append {s t : String} (hs : '\n' ∉ s.toList) (ht : '\n' ∉ t.toList) :
    '\n' ∉ (s ++ t).toList := by
  simp [hs, ht]

namespace Text

theorem newline_not_mem_shortEscape {c : Char} {escape : String} (h : shortEscape? c = some escape) :
    '\n' ∉ escape.toList := by
  unfold shortEscape? at h
  repeat' split at h
  all_goals cases h
  all_goals decide

theorem digitChar_ne_newline {n : Nat} (h : n < 16) : Nat.digitChar n ≠ '\n' := by
  revert n
  decide

theorem newline_not_mem_toDigits (n : Nat) : '\n' ∉ Nat.toDigits 16 n := by
  induction n using Nat.strongRecOn with
  | ind n ih =>
      rcases Nat.lt_or_ge n 16 with hn | hn
      · rw [Nat.toDigits_of_lt_base hn, List.mem_singleton]
        exact (digitChar_ne_newline hn).symm
      · rw [Nat.toDigits_of_base_le (by decide) hn, List.mem_append, List.mem_singleton]
        rintro (h | h)
        · exact ih (n / 16) (by omega) h
        · exact digitChar_ne_newline (Nat.mod_lt n (by decide)) h.symm

theorem newline_not_mem_hex (width n : Nat) : '\n' ∉ (hex width n).toList := by
  simp [hex, newline_not_mem_toDigits]

theorem newline_not_mem_charLiteral (c : Char) : '\n' ∉ (charLiteral c).toList := by
  unfold charLiteral
  cases h : shortEscape? c with
  | some escape => simp [newline_not_mem_shortEscape h]
  | none =>
      -- A line break has a short escape.
      have hc : '\n' ≠ c := by
        rintro rfl
        cases h
      cases isPlain c with
      | true => simp [hc]
      | false => simp [newline_not_mem_hex]

end Text

/-! ## Causes -/

theorem LexicalCause.newline_not_mem_message {text rest : List Char} {cause : LexicalCause}
    (h : Misspells text rest cause) : '\n' ∉ cause.message.toList := by
  cases h with
  | endAfterPoint _ => decide
  | illegalAfterPoint _ _ => exact newline_not_mem_append (by decide) (newline_not_mem_charLiteral _)
  | unknownOperator hrun _ _ _ =>
      refine newline_not_mem_append (by decide) ?_
      rw [String.toList_ofList]
      exact fun hn => by cases hrun _ hn
  | illegalStart _ => exact newline_not_mem_append (by decide) (newline_not_mem_charLiteral _)

theorem Token.Kind.newline_not_mem_label {kind : Kind} (h : kind ∈ all) : '\n' ∉ kind.label.toList := by
  revert kind
  decide

theorem Operator.newline_not_mem_symbol (op : Operator) : '\n' ∉ op.symbol.toList := by
  intro h
  cases isCharacter_of_mem_symbol h

theorem GrammarCause.newline_not_mem_message {cause : GrammarCause} {found? : Option Lexeme}
    (h : cause.Concerns found?) : '\n' ∉ cause.message.toList := by
  have hfound (l : Lexeme) : '\n' ∉ l.kind.label.toList := Token.Kind.newline_not_mem_label l.kind_mem_all
  have hwanted {kind : Token.Kind} (hk : kind ∈ Token.Kind.all) : '\n' ∉ ("expected " ++ kind.label).toList :=
    newline_not_mem_append (by decide) (Token.Kind.newline_not_mem_label hk)
  cases h with
  | endForOperand => decide
  | endFor hw => exact newline_not_mem_append (hwanted hw) (by decide)
  | otherThan found hw =>
      exact newline_not_mem_append (newline_not_mem_append (hwanted hw) (by decide)) (hfound found)
  | afterExpression found => exact newline_not_mem_append (newline_not_mem_append (by decide) (hfound found)) (by decide)
  | operatorForOperand op => exact newline_not_mem_append (by decide) op.newline_not_mem_symbol
  | noOperand found => exact newline_not_mem_append (by decide) (hfound found)

/-! ## Diagnostics of a source -/

variable {source : List Char}

/-- A parser blames the end of the source or one of its tokens. -/
theorem concerns_of_parse {fault : GrammarFault} (h : parse source = .error (.grammar fault)) :
    (fault.cause.Concerns none ∧ fault.span = .atEnd source) ∨
    (∃ token ∈ (lex source).1, fault.cause.Concerns (some token.lexeme) ∧ fault.span = token.span) := by
  cases refuses_of_parse h with
  | @token _ token _ _ _ hu _ _ _ hc => exact .inr ⟨token, by simp [hu], hc, rfl⟩
  | ended _ _ _ hc => exact .inl ⟨hc, rfl⟩

namespace Diagnostic

/-- The diagnostics of the faults that a source is refused with, by the tokenizer or by the parser. -/
inductive Raised (source : List Char) : Diagnostic → Prop
  | tokenize {fault} : tokenize source = .error fault → Raised source fault.diagnostic
  | parse {fault} : parse source = .error fault → Raised source fault.diagnostic

variable {d : Diagnostic}

theorem Raised.cases (h : d.Raised source) :
    (∃ fault, (lex source).2 = some fault ∧ d = fault.diagnostic) ∨
    (∃ fault, Abacus.parse source = .error (.grammar fault) ∧ d = fault.diagnostic) := by
  cases h with
  | tokenize ht => exact .inl ⟨_, tokenize_eq_error_iff.1 ht, rfl⟩
  | @parse fault hp =>
      cases fault with
      | lexical fault => exact .inl ⟨fault, tokenize_eq_error_iff.1 (tokenize_of_parse_lexical hp), rfl⟩
      | grammar fault => exact .inr ⟨fault, hp, rfl⟩

theorem Raised.newline_not_mem_message (h : d.Raised source) : '\n' ∉ d.message.toList := by
  rcases h.cases with ⟨fault, hf, rfl⟩ | ⟨fault, hp, rfl⟩
  · obtain ⟨_, _, _, _, _, hm, _⟩ := exists_misspells_of_lex hf
    exact LexicalCause.newline_not_mem_message hm
  · rcases concerns_of_parse hp with ⟨hc, -⟩ | ⟨_, -, hc, -⟩
    · exact GrammarCause.newline_not_mem_message hc
    · exact GrammarCause.newline_not_mem_message hc

/-- Unless the end of the source is blamed, there is something to see. -/
theorem Raised.visible (h : d.Raised source) (hend : d.span ≠ .atEnd source) : d.span.Visible source := by
  rcases h.cases with ⟨fault, hf, rfl⟩ | ⟨fault, hp, rfl⟩
  · exact visible_of_fault hf
  · rcases concerns_of_parse hp with ⟨-, hspan⟩ | ⟨token, ht, -, hspan⟩
    · exact absurd hspan hend
    · have hv := visible_of_mem_lex ht
      rwa [← hspan] at hv

end Diagnostic

end Abacus
