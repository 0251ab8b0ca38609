import Abacus.Proofs.Parsing.Theorems

/-!
# Sources with a lexical fault

The parser meets a lexical fault when it comes to the last token before it, or when that token was to start an operand:
then the token behind is read first. So of a lexical fault and an offending token in front of it, the token is reported,
unless it is the last one and stands where an operand starts.
-/

namespace Abacus

open Recognizer

variable {source : List Char} {tokens : List Token}

/-! ## Where operands start -/

/-- The token at the index stands where an operand starts: it is the first, or an operand must follow the one before. -/
def OperandAt (tokens : List Token) : Nat → Prop
  | 0 => True
  | k + 1 => ∃ before ∈ tokens[k]?, before.lexeme.opensOperand = true

theorem Recognizer.place_of_next {s t : Recognizer} {l : Lexeme} (h : s.next l = some t) :
    t.place = .operand ↔ l.opensOperand = true := by
  unfold next at h
  split at h
  case h_4 =>
    split at h
    · cases h
      simp [Lexeme.opensOperand]
    · cases h
  all_goals cases h <;> simp [Lexeme.opensOperand]

theorem operandAt_length_iff {used rest : List Token} {t : Recognizer}
    (h : Recognizer.start.run (lexemes used) = some t) : OperandAt (used ++ rest) used.length ↔ t.place = .operand := by
  rcases List.eq_nil_or_concat used with rfl | ⟨before, token, rfl⟩
  · cases h
    exact ⟨fun _ => rfl, fun _ => trivial⟩
  · rw [List.concat_eq_append, lexemes, List.map_append, run_append] at h
    obtain ⟨s, -, hs⟩ := Option.bind_eq_some_iff.1 h
    rw [List.map_singleton, run_singleton] at hs
    rw [place_of_next hs]
    simp [OperandAt]

/-! ## The first offending token -/

theorem Offends.unique {j k : Nat} (hj : Offends tokens j) (hk : Offends tokens k) : j = k := by
  rcases Nat.lt_trichotomy j k with hlt | rfl | hlt
  · exact absurd (hk.viable_before j hlt) hj.not_viable
  · rfl
  · exact absurd (hj.viable_before k hlt) hk.not_viable

theorem not_offends_of_viable (h : Viable (lexemes tokens)) (k : Nat) : ¬ Offends tokens k := by
  intro hk
  rw [← List.take_append_drop (k + 1) tokens, lexemes, List.map_append] at h
  exact hk.not_viable h.of_append

/-! ## The fault that is reported -/

/-- The fault with which a source is refused that has the given tokens and then the given lexical fault. -/
inductive Reported (tokens : List Token) (fault : LexicalFault) : Fault → Prop
  | viable : (∀ k, ¬ Offends tokens k) → Reported tokens fault (.lexical fault)
  | operand {k} : Offends tokens k → k + 1 = tokens.length → OperandAt tokens k →
      Reported tokens fault (.lexical fault)
  | token {k token cause} : Offends tokens k → tokens[k]? = some token →
      ¬ (k + 1 = tokens.length ∧ OperandAt tokens k) → Reported tokens fault (.grammar ⟨cause, token.span⟩)

theorem Refuses.reported {fault : LexicalFault} {f : Fault} (h : Refuses source (some fault) .start tokens f) :
    Reported tokens fault f := by
  cases h with
  | @token used token rest t cause hu hrun hn hlast =>
      subst hu
      refine .token (k := used.length) (.of_run hrun hn) (by simp) ?_
      rintro ⟨hlength, hoperand⟩
      -- The offending token is the last one, so the parser would have met the lexical fault before it judged it.
      have hrest : rest = [] := by simpa using hlength
      cases hlast ((operandAt_length_iff hrun).1 hoperand) hrest
  | ended _ _ hf => cases hf
  | lexical hf hrun =>
      cases hf
      exact .viable (not_offends_of_viable (viable_iff_run.2 ⟨_, hrun⟩))
  | @operand _ used token t hf hu hrun hplace hn =>
      cases hf
      subst hu
      exact .operand (.of_run hrun hn) (by simp) ((operandAt_length_iff hrun).2 hplace)

theorem exists_reported {fault : LexicalFault} (h : lex source = (tokens, some fault)) :
    ∃ f, parse source = .error f ∧ Reported tokens fault f := by
  cases hparse : parse source with
  | ok e =>
      obtain ⟨tokens', ht, -⟩ := written_of_parse hparse
      rw [tokenize_eq_ok_iff, h] at ht
      cases ht
  | error f =>
      have hr := refuses_of_parse hparse
      rw [h] at hr
      exact ⟨f, rfl, hr.reported⟩

theorem tokenize_of_parse_lexical {fault : LexicalFault} (h : parse source = .error (.lexical fault)) :
    tokenize source = .error fault := by
  rw [tokenize_eq_error_iff]
  cases refuses_of_parse h with
  | lexical hf _ => exact hf
  | operand hf _ _ _ _ => exact hf

/-- A source with a lexical fault is never read. The lexical fault is reported if no token in front of it offends, or if
the offending token is the last one and was to start an operand; otherwise the offending token is. No other lexical fault
is ever reported. -/
theorem parse_lexical_fault (source : List Char) :
    (∀ tokens fault, lex source = (tokens, some fault) →
      (∀ e, parse source ≠ .ok e) ∧
      ((∀ k, ¬ Offends tokens k) → parse source = .error (.lexical fault)) ∧
      (∀ k, Offends tokens k → ∃ token, tokens[k]? = some token ∧
        (k + 1 = tokens.length ∧ OperandAt tokens k → parse source = .error (.lexical fault)) ∧
        (¬ (k + 1 = tokens.length ∧ OperandAt tokens k) →
          ∃ cause, parse source = .error (.grammar ⟨cause, token.span⟩)))) ∧
    (∀ fault, parse source = .error (.lexical fault) → tokenize source = .error fault) := by
  refine ⟨fun tokens fault h => ?_, fun fault h => tokenize_of_parse_lexical h⟩
  obtain ⟨f, hparse, hf⟩ := exists_reported h
  rw [hparse]
  refine ⟨fun e he => (by cases he), fun hno => ?_, fun k hk => ?_⟩
  · cases hf with
    | viable => rfl
    | operand hk | token hk => exact absurd hk (hno _)
  · cases hf with
    | viable hno => exact absurd hk (hno k)
    | operand hk' hlast hoperand =>
        obtain rfl := hk.unique hk'
        have hlt : k < tokens.length := by omega
        exact ⟨_, List.getElem?_eq_getElem hlt, fun _ => rfl, fun hn => absurd ⟨hlast, hoperand⟩ hn⟩
    | token hk' ht hn =>
        obtain rfl := hk.unique hk'
        exact ⟨_, ht, fun hlast => absurd hlast hn, fun _ => ⟨_, rfl⟩⟩

/-- A last parenthesis that offends gives way to the fault behind it where an operand was to start, and only there. -/
theorem parse_lexical_fault_closeParen :
    parse ['x', '+', ')', '!', '!'] = .error (.lexical ⟨.unknownOperator ['!', '!'], ⟨3, 2⟩⟩) ∧
    ∃ cause, parse ['x', ')', '!', '!'] = .error (.grammar ⟨cause, ⟨1, 1⟩⟩) := by
  have hx : lex ['x', '+', ')', '!', '!'] =
      ([⟨.name "x", ⟨0, 1⟩⟩, ⟨.operator .add, ⟨1, 1⟩⟩, ⟨.closeParen, ⟨2, 1⟩⟩],
        some ⟨.unknownOperator ['!', '!'], ⟨3, 2⟩⟩) := by decide +kernel
  have hy : lex ['x', ')', '!', '!'] =
      ([⟨.name "x", ⟨0, 1⟩⟩, ⟨.closeParen, ⟨1, 1⟩⟩], some ⟨.unknownOperator ['!', '!'], ⟨2, 2⟩⟩) := by decide +kernel
  constructor
  · obtain ⟨-, -, h⟩ := (parse_lexical_fault _).1 _ _ hx
    obtain ⟨token, -, hoperand, -⟩ := h 2 (@Offends.of_run [_, _] [] _ _ rfl rfl)
    exact hoperand ⟨rfl, _, rfl, rfl⟩
  · obtain ⟨-, -, h⟩ := (parse_lexical_fault _).1 _ _ hy
    obtain ⟨token, ht, -, hother⟩ := h 1 (@Offends.of_run [_] [] _ _ rfl rfl)
    cases ht
    refine hother ?_
    rintro ⟨-, before, hbefore, hopens⟩
    cases hbefore
    cases hopens

end Abacus
