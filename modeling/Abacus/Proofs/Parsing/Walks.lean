import Abacus.Parser.Calls

/-!
# The way of a parser

The lookahead of a parser moves only by bumps, one token at a time. A lexical fault is raised by the bump that meets it,
and it is the last bump of the step: nothing catches it on the way out.
-/

namespace Abacus

namespace Parser

/-- The way from one parser by bumps, past the parsers listed, to the last. A lexical fault ends it. -/
inductive Walk : Parser → List Parser → Parser → Option LexicalFault → Prop
  | stay (p : Parser) : Walk p [] p none
  | move {p passed q fault?} : p.bump.result = .ok () → Walk p.bump.parser passed q fault? →
      Walk p (p.bump.parser :: passed) q fault?
  | fault {p fault} : p.bump.result = .error (.lexical fault) → Walk p [p.bump.parser] p.bump.parser (some fault)

theorem Walk.append {p q r : Parser} {passed passed' : List Parser} {fault? fault?' : Option LexicalFault}
    (h : Walk p passed q fault?) (hf : fault? = none) (h' : Walk q passed' r fault?') :
    Walk p (passed ++ passed') r fault?' := by
  induction h with
  | stay => exact h'
  | move hr _ ih => exact .move hr (ih hf h')
  | fault _ => cases hf

theorem Walk.exists_of_mem {p q r : Parser} {passed : List Parser} {fault? : Option LexicalFault}
    (h : Walk p passed q fault?) (hr : r ∈ passed) : ∃ u : Parser, r = u.bump.parser := by
  induction h with
  | stay => cases hr
  | @move p _ _ _ _ _ ih =>
      rcases List.mem_cons.1 hr with rfl | hr
      · exact ⟨p, rfl⟩
      · exact ih hr
  | @fault p _ _ => exact ⟨p, List.mem_singleton.1 hr⟩

theorem Walk.exists_of_fault {p q : Parser} {passed : List Parser} {fault : LexicalFault}
    (h : Walk p passed q (some fault)) : ∃ earlier, passed = earlier ++ [q] := by
  generalize hf : some fault = fault? at h
  induction h with
  | stay => cases hf
  | move _ _ ih =>
      obtain ⟨earlier, rfl⟩ := ih hf
      exact ⟨_ :: earlier, rfl⟩
  | fault _ => exact ⟨[], rfl⟩

end Parser

/-- The lexical fault among the outcomes of a step. -/
def Fault.lexical? {α : Type} : Except Fault α → Option LexicalFault
  | .error (.lexical fault) => some fault
  | .error (.grammar _) | .ok _ => none

theorem Fault.lexical?_map {α β : Type} (f : α → β) (result : Except Fault α) :
    lexical? (result.map f) = lexical? result := by
  rcases result with (fault | fault) | a <;> rfl

theorem Fault.lexical?_eq_some_iff {α : Type} {result : Except Fault α} {fault : LexicalFault} :
    lexical? result = some fault ↔ result = .error (.lexical fault) := by
  rcases result with (fault' | fault') | a <;> simp [lexical?]

namespace Step

open Abacus.Parser

variable {n : Nat} {α β : Type} {p : Parser} {step : Step n α}

/-- The step went from the parser by bumps, and it reports the lexical fault that it met, if it met one. -/
def Walks (p : Parser) (step : Step n α) : Prop := Walk p step.passed step.parser (Fault.lexical? step.result)

theorem Walks.widen {m : Nat} (h : step.Walks p) (hm : n ≤ m) : (step.widen hm).Walks p := h

theorem Walks.map (h : step.Walks p) (f : α → β) : (step.map f).Walks p := by
  rw [Walks, Step.map, Fault.lexical?_map]
  exact h

theorem Walks.andThen {next : α → (q : Parser) → q.size ≤ n → Step q.size β} (h : step.Walks p)
    (hn : ∀ a q hq, (next a q hq).Walks q) : (step.andThen next).Walks p := by
  cases hs : step.result with
  | error fault =>
      rw [andThen_of_error hs]
      rw [Walks, hs] at h
      cases fault <;> exact h
  | ok a =>
      rw [andThen_of_ok hs]
      rw [Walks, hs] at h
      exact h.append rfl (hn a _ _)

end Step

namespace Parser

open Step

theorem done_walks {α : Type} (p : Parser) (a : α) : (p.done a).Walks p := .stay p

theorem fail_walks {α : Type} (p : Parser) (cause : GrammarCause) (span : Span) :
    (p.fail (α := α) cause span).Walks p := .stay p

theorem bump_walks (p : Parser) : p.bump.Walks p := by
  have hp : p.bump.passed = [p.bump.parser] := by
    unfold bump
    split
    · rfl
    · split <;> rfl
  rw [Walks, hp]
  cases h : p.bump.result with
  | ok => exact .move h (.stay _)
  | error fault =>
      cases fault with
      | lexical fault => exact .fault h
      | grammar fault =>
          unfold bump at h
          split at h
          · cases h
          · split at h <;> cases h

theorem expect_walks (p : Parser) (kind : Token.Kind) : (p.expect kind).Walks p := by
  unfold expect
  split
  · exact fail_walks ..
  · split
    · exact ((bump_walks p).map _).widen _
    · exact fail_walks ..

mutual
theorem expr_walks (p : Parser) (level : Int) : (p.expr level).Walks p := by
  rw [Parser.expr]
  exact (primary_walks p).andThen fun left q _ => operators_walks q left level
termination_by 4 * p.size + 2

theorem operators_walks (p : Parser) (left : Expr) (level : Int) : (p.operators left level).Walks p := by
  rw [Parser.operators]
  split
  · rename_i h
    have := ahead_lt_size h
    split
    · refine Walks.widen ((bump_walks p).andThen fun _ q _ => ?_) _
      exact (expr_walks q _).andThen fun right r _ => operators_walks r _ level
    · exact done_walks ..
  · exact done_walks ..
termination_by 4 * p.size

theorem primary_walks (p : Parser) : p.primary.Walks p := by
  rw [Parser.primary]
  split
  · exact fail_walks ..
  · rename_i lexeme span h
    have := ahead_lt_size h
    refine Walks.widen ((bump_walks p).andThen fun _ q _ => ?_) _
    cases lexeme with
    | name name => exact call_walks q name
    | number value => exact done_walks ..
    | openParen => exact (expr_walks q 0).andThen fun _ r _ => (expect_walks r _).map _
    | operator op =>
        by_cases hop : op ∈ Operator.signs
        · simp only [if_pos hop]
          exact (expr_walks q _).map _
        · simp only [if_neg hop]
          exact fail_walks ..
    | letWord => exact letIn_walks q
    | closeParen | inWord | equals => exact fail_walks ..
termination_by 4 * p.size + 1

theorem call_walks (p : Parser) (name : String) : (p.call name).Walks p := by
  rw [Parser.call]
  split
  · rename_i h
    have := ahead_lt_size h
    refine Walks.widen ((bump_walks p).andThen fun _ q _ => ?_) _
    exact (expr_walks q 0).andThen fun _ r _ => (expect_walks r _).map _
  · exact done_walks ..
termination_by 4 * p.size

theorem letIn_walks (p : Parser) : p.letIn.Walks p := by
  rw [Parser.letIn]
  refine ((expect_walks p _).map _).andThen fun name q _ => ?_
  refine (expect_walks q _).andThen fun _ q _ => ?_
  refine (expr_walks q 0).andThen fun bound q _ => ?_
  exact (expect_walks q _).andThen fun _ q _ => (expr_walks q 0).map _
termination_by 4 * p.size + 3
end

theorem parse_walks (p : Parser) : p.parse.Walks p := by
  refine (expr_walks p 0).andThen fun e q _ => ?_
  cases q.lookahead? with
  | none => exact done_walks ..
  | some token => exact fail_walks ..

theorem perform_walks (p : Parser) (call : Call) : (p.perform call).Walks p := by
  cases call with
  | bump => exact ((bump_walks p).map _).widen p.ahead_le_size
  | expect kind => exact (expect_walks p kind).map _
  | primary => exact (primary_walks p).map _
  | expr level => exact (expr_walks p level).map _
  | letIn => exact (letIn_walks p).map _
  | parse => exact (parse_walks p).map _

end Parser

end Abacus
