import Abacus.Proofs.Lexing.Context
import Abacus.Proofs.Parsing.Completeness
import Abacus.Proofs.Parsing.Soundness

/-!
# What is parsed, and what is refused

The tokens of a source decide everything: whether it is an expression, which one it is, and where the fault lies if it
is none.
-/

namespace Abacus

open Recognizer

variable {source : List Char} {e : Expr} {tokens : List Token} {fault : Fault}

/-! ## Whole sources -/

namespace Parser

open Step

theorem parse_meets {fault? : Option LexicalFault} {p : Parser} (hp : p.Supplies source fault? tokens) :
    p.parse.Meets source fault? .start tokens
      fun e used rest => e.Written (lexemes used) ∧ e.grouped = true ∧ rest = [] := by
  refine Meets.andThen (rfl : run _ (lexemes []) = some _) (expr_meets p 0 [] hp) ?_
  intro e q _ used rest hq h
  cases rest with
  | nil =>
      rw [hq.lookahead]
      exact done_meets hq ⟨h.written, h.grouped, rfl⟩
  | cons token rest =>
      rw [hq.lookahead]
      have hn : next ⟨.operator e.endsInName, []⟩ token.lexeme = none :=
        next_eq_none_of_precedes h.precedes h.stopsBelow (by simp)
      exact meets_of_error rfl (.prepend (h.written.run []) (.head hn (fun hplace => by cases hplace)
        (.afterExpression token.lexeme)))

theorem start_bump_cases (source : List Char) :
    (∃ p : Parser, p.Supplies source (lex source).2 (lex source).1 ∧ Abacus.parse source = p.parse.result) ∨
    (∃ fault, lex source = ([], some fault) ∧ Abacus.parse source = .error (.lexical fault)) := by
  rcases bump_cases (p := start source) (Tokenizer.yields_ofSource source) with ⟨hr, hp, -⟩ | ⟨fault, ht, hf, hr, -⟩
  · exact .inl ⟨_, hp, by rw [Abacus.parse, andThen_of_ok hr]; rfl⟩
  · exact .inr ⟨fault, Prod.ext ht hf, by rw [Abacus.parse, andThen_of_error hr]⟩

end Parser

theorem written_of_parse (h : parse source = .ok e) :
    ∃ tokens, tokenize source = .ok tokens ∧ e.Written (lexemes tokens) ∧ e.grouped = true := by
  rcases Parser.start_bump_cases source with ⟨p, hp, hparse⟩ | ⟨_, _, hparse⟩
  · rw [hparse] at h
    obtain ⟨used, rest, ht, hq, hw, hg, rfl⟩ := (Parser.parse_meets hp).of_ok h
    rw [List.append_nil] at ht
    subst ht
    exact ⟨_, tokenize_eq_ok_iff.2 (Prod.ext rfl hq.fault_eq), hw, hg⟩
  · rw [hparse] at h
    cases h

theorem refuses_of_parse (h : parse source = .error fault) :
    Refuses source (lex source).2 .start (lex source).1 fault := by
  rcases Parser.start_bump_cases source with ⟨p, hp, hparse⟩ | ⟨fault', hl, hparse⟩
  · rw [hparse] at h
    exact (Parser.parse_meets hp).of_error h
  · rw [hparse] at h
    cases h
    rw [hl]
    exact .lexical rfl (rfl : run _ [] = some _)

theorem refuses_of_tokenize (ht : tokenize source = .ok tokens) (h : parse source = .error fault) :
    Refuses source none .start tokens fault := by
  have hr := refuses_of_parse h
  rwa [tokenize_eq_ok_iff.1 ht] at hr

theorem parse_of_written (ht : tokenize source = .ok tokens) (hw : e.Written (lexemes tokens))
    (hg : e.grouped = true) : parse source = .ok e := by
  have hl : lex source = (tokens, none) := tokenize_eq_ok_iff.1 ht
  rcases Parser.start_bump_cases source with ⟨p, hp, hparse⟩ | ⟨_, hl', _⟩
  · rw [hl] at hp
    have hp' : p.Supplies source none (tokens ++ []) := by rwa [List.append_nil]
    have hpe : e.Precedes (lexemes []) := trivial
    have hr : (p.expr 0).Returns source e [] :=
      Parser.expr_returns hw rfl hg (Expr.bindsAt_zero e) hpe hp' fun q hq => Parser.operators_returns hq trivial
    have hd : p.parse.Returns source e [] := by
      refine hr.andThen fun q _ hq => ?_
      rw [hq.lookahead]
      exact Parser.done_returns hq
    rw [hparse, hd.1]
  · rw [hl] at hl'
    cases hl'

theorem lexes_of_parse (h : parse source = .ok e) : ∃ w, Lexes source w ∧ e.Written w ∧ e.grouped = true := by
  obtain ⟨tokens, ht, hw, hg⟩ := written_of_parse h
  exact ⟨lexemes tokens, (tokenize_eq_ok_iff_segmented.1 ht).lexes, hw, hg⟩

theorem parse_of_lexes {w : List Lexeme} (h : Lexes source w) (hw : e.Written w) (hg : e.grouped = true) :
    parse source = .ok e := by
  obtain ⟨tokens, ht, rfl⟩ := h.exists_tokenize
  exact parse_of_written ht hw hg

/-! ## The expression that is read -/

/-- The tokens spell the expression, up to plus signs in front of operands, and its operations are grouped by levels and
as far as bindings reach. -/
structure Expr.Reads (e : Expr) (tokens : List Token) : Prop where
  hasBlank : e.hasBlank = false
  yield : e.yield = Lexeme.dropPlus true (lexemes tokens)
  grouped : e.grouped = true

theorem Expr.reads_iff : e.Reads tokens ↔ e.Written (lexemes tokens) ∧ e.grouped = true := by
  rw [Expr.written_iff]
  constructor
  · rintro ⟨hb, hy, hg⟩
    exact ⟨⟨hb, hy.symm⟩, hg⟩
  · rintro ⟨⟨hb, hy⟩, hg⟩
    exact ⟨hb, hy.symm, hg⟩

theorem parse_eq_ok_iff : parse source = .ok e ↔ ∃ tokens, tokenize source = .ok tokens ∧ e.Reads tokens := by
  simp only [Expr.reads_iff]
  exact ⟨written_of_parse, fun ⟨_, ht, hw, hg⟩ => parse_of_written ht hw hg⟩

/-- The expression that is read is the only one that the tokens spell and that is grouped like this. -/
theorem parse_unique (h : parse source = .ok e) :
    ∃ tokens, tokenize source = .ok tokens ∧ e.Reads tokens ∧ ∀ other : Expr, other.Reads tokens → other = e := by
  obtain ⟨tokens, ht, he⟩ := parse_eq_ok_iff.1 h
  refine ⟨tokens, ht, he, fun other ho => ?_⟩
  have hother : parse source = .ok other := parse_eq_ok_iff.2 ⟨tokens, ht, ho⟩
  rw [h] at hother
  cases hother
  rfl

theorem parse_unique_plus_sign : ∃ tokens, tokenize ['x', ' ', '-', ' ', '+', 'y'] = .ok tokens ∧
    (Expr.binop .sub (.var "x") (.var "y")).Reads tokens ∧
    ∀ other : Expr, other.Reads tokens → other = .binop .sub (.var "x") (.var "y") := by
  have hx : Spells ['x'] [' ', '-', ' ', '+', 'y'] (.name "x") :=
    .word (by decide) (by simp) (Delimited.blank _).stopsAt_isWordCharacter
  have hy : Spells ['y'] [] (.name "y") := .word (by decide) (by simp) Delimited.nil.stopsAt_isWordCharacter
  have hplus : Spells ['+'] ['y'] (.operator .add) := .operator .add fun _ h => by cases h; decide
  have hminus : Spells ['-'] [' ', '+', 'y'] (.operator .sub) := spells_minus (Delimited.blank _).stopsAt_isCharacter
  have hblank : Text.isBlank ' ' = true := by decide
  have right : Lexes [' ', '+', 'y'] [.operator .add, .name "y"] := ((Lexes.nil.spells hy).spells hplus).blank hblank
  have whole : Lexes ['x', ' ', '-', ' ', '+', 'y'] [.name "x", .operator .sub, .operator .add, .name "y"] :=
    ((right.spells hminus).blank hblank).spells hx
  obtain ⟨tokens, ht, hw⟩ := whole.exists_tokenize
  exact parse_unique (parse_eq_ok_iff.2 ⟨tokens, ht, rfl, by rw [hw]; rfl, rfl⟩)

/-! ## The sources that are read -/

/-- The levels never make a difference to whether a source is read: every text of the grammar is. -/
theorem parse_succeeds_iff_derives (source : List Char) : (∃ e, parse source = .ok e) ↔
    ∃ tokens, tokenize source = .ok tokens ∧ Derives .expression (lexemes tokens) := by
  constructor
  · rintro ⟨e, h⟩
    obtain ⟨tokens, ht, hw, -⟩ := written_of_parse h
    exact ⟨tokens, ht, derives_iff_accepting.2 ⟨_, hw.run [], _, rfl⟩⟩
  · rintro ⟨tokens, ht, hd⟩
    obtain ⟨s, hs, ha⟩ := derives_iff_accepting.1 hd
    cases h : parse source with
    | ok e => exact ⟨e, rfl⟩
    | error fault =>
        cases refuses_of_tokenize ht h with
        | token hu hrun hn _ =>
            rw [hu, lexemes, List.map_append, run_append_of_run hrun, List.map_cons, run, hn] at hs
            cases hs
        | ended hrun hna _ =>
            rw [hs] at hrun
            cases hrun
            exact absurd ha hna
        | lexical hf _ | operand hf _ _ _ _ => cases hf

/-! ## The place of a fault -/

/-- The token at the index is the first after which no expression can come of the text. -/
structure Offends (tokens : List Token) (k : Nat) : Prop where
  not_viable : ¬ Viable (lexemes (tokens.take (k + 1)))
  viable_before : ∀ j < k, Viable (lexemes (tokens.take (j + 1)))

theorem Offends.of_run {used rest : List Token} {token : Token} {t : Recognizer}
    (hu : Recognizer.start.run (lexemes used) = some t) (hn : t.next token.lexeme = none) :
    Offends (used ++ token :: rest) used.length := by
  constructor
  · rw [viable_iff_run]
    rintro ⟨s, hs⟩
    have htake : (used ++ token :: rest).take (used.length + 1) = used ++ [token] := List.take_length_add_append 1
    rw [htake, lexemes, List.map_append, run_append_of_run hu] at hs
    simp only [List.map_cons, run, hn] at hs
    cases hs
  · intro j hj
    have htake : (used ++ token :: rest).take (j + 1) = used.take (j + 1) := List.take_append_of_le_length hj
    have hv : Viable (lexemes used) := viable_iff_run.2 ⟨t, hu⟩
    rw [htake]
    rw [← List.take_append_drop (j + 1) used, lexemes, List.map_append] at hv
    exact hv.of_append

/-- A source of good tokens that is refused has its fault at the first offending token, or at its end if every token can
follow those before it and more was to come. -/
theorem parse_error_at_first_offence (ht : tokenize source = .ok tokens) (h : parse source = .error fault) :
    ∃ f, fault = .grammar f ∧
      ((∃ k token, tokens[k]? = some token ∧ Offends tokens k ∧ f.span = token.span) ∨
        ((∀ k, Viable (lexemes (tokens.take k))) ∧ ¬ Derives .expression (lexemes tokens) ∧
          f.span = ⟨source.length, 0⟩)) := by
  cases refuses_of_tokenize ht h with
  | @token used token _ _ _ hu hrun hn _ =>
      refine ⟨_, rfl, .inl ⟨used.length, token, by simp [hu], ?_, rfl⟩⟩
      rw [hu]
      exact .of_run hrun hn
  | ended hrun hna _ =>
      have hv (k : Nat) : Viable (lexemes (tokens.take k)) := by
        have hall : Viable (lexemes tokens) := viable_iff_run.2 ⟨_, hrun⟩
        rw [← List.take_append_drop k tokens, lexemes, List.map_append] at hall
        exact hall.of_append
      refine ⟨_, rfl, .inr ⟨hv, ?_, rfl⟩⟩
      rw [derives_iff_accepting, hrun]
      rintro ⟨s, hs, ha⟩
      cases hs
      exact hna ha
  | lexical hf _ | operand hf _ _ _ _ => cases hf

theorem parse_error_at_first_offence_two_names : ∃ (tokens : List Token) (f : GrammarFault),
    tokenize ['x', ' ', 'y'] = .ok tokens ∧ parse ['x', ' ', 'y'] = .error (.grammar f) ∧
      ((∃ k token, tokens[k]? = some token ∧ Offends tokens k ∧ f.span = token.span) ∨
        ((∀ k, Viable (lexemes (tokens.take k))) ∧ ¬ Derives .expression (lexemes tokens) ∧ f.span = ⟨3, 0⟩)) := by
  have hx : Spells ['x'] [' ', 'y'] (.name "x") :=
    .word (by decide) (by simp) (Delimited.blank _).stopsAt_isWordCharacter
  have hy : Spells ['y'] [] (.name "y") := .word (by decide) (by simp) Delimited.nil.stopsAt_isWordCharacter
  have ht : tokenize ['x', ' ', 'y'] = .ok [⟨.name "x", ⟨0, 1⟩⟩, ⟨.name "y", ⟨2, 1⟩⟩] :=
    tokenize_eq_ok_iff_segmented.2 (.cons hx (.blank_cons (by decide) (.cons hy (.blank (by simp)))))
  cases h : parse ['x', ' ', 'y'] with
  | ok e =>
      obtain ⟨tokens, ht', hw, -⟩ := written_of_parse h
      rw [ht] at ht'
      cases ht'
      cases hw.run []
  | error fault =>
      obtain ⟨f, rfl, hplace⟩ := parse_error_at_first_offence ht h
      exact ⟨_, f, ht, rfl, hplace⟩

end Abacus
