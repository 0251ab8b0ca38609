import Abacus.Attempt.Report
import Abacus.Proofs.Attempt.Evaluation
import Abacus.Proofs.Parsing.Walks
import Abacus.Proofs.Report.Status

/-!
# Attempts to report do not break down

The tokens that are listed and those that the parser reads are read without a breakdown, and an expression that was parsed
has no blank node. So the attempt at a report is the report.
-/

namespace Abacus

/-! ## Tokens -/

theorem Tokenizer.attemptDrain_eq (t : Tokenizer) : t.attemptDrain = .ok t.drain := by
  have ha := t.attemptNext_eq
  rw [attemptDrain]
  split
  · rename_i h
    rw [ha] at h
    cases h
  · rename_i h
    rw [ha] at h
    rw [drain_of_next_eq_none (Except.ok.inj h)]
  · rename_i h
    rw [ha] at h
    have hn := Except.ok.inj h
    have := rest_lt_of_next hn
    rw [attemptDrain_eq, drain_of_next_eq_some hn]
    rfl
termination_by t.cursor.rest.length

namespace Parser

theorem attemptBump_eq (p : Parser) : p.attemptBump = .ok p.bump.parser := by
  rw [attemptBump, Tokenizer.attemptNext_eq]
  cases hn : p.tokenizer.next with
  | mk token? t =>
      cases token? with
      | none =>
          rw [(bump_of_next_eq_none hn).2]
          rfl
      | some token =>
          rw [(bump_of_next_eq_some hn).2]
          rfl

theorem attemptMoves_of_walk {p q : Parser} {passed : List Parser} {fault? : Option LexicalFault}
    (h : Walk p passed q fault?) : p.attemptMoves passed.length = .ok q := by
  induction h with
  | stay p => rfl
  | @move p _ _ _ _ _ ih =>
      rw [List.length_cons, attemptMoves, p.attemptBump_eq]
      exact ih
  | @fault p _ _ =>
      rw [List.length_singleton, attemptMoves, p.attemptBump_eq]
      rfl

end Parser

namespace Report

open Abacus.Parser

theorem attemptExpression_eq (source : List Char) (env : Env) (settings : Settings) :
    attemptExpression source env settings = .ok (ofExpression source env settings, env) := by
  have hwalk : ((start source).bump.andThen fun _ p _ => p.parse).Walks (start source) :=
    (bump_walks _).andThen fun _ p _ => parse_walks p
  rw [attemptExpression, ofExpression, attemptMoves_of_walk hwalk, Breakdown.ok_bind]
  cases hs : ((start source).bump.andThen fun _ p _ => p.parse).result with
  | error fault => rfl
  | ok e =>
      obtain ⟨tokens, -, hw, -⟩ := written_of_parse hs
      simp only [Expr.attempt_eq hw.hasBlank, Breakdown.ok_bind, Expr.env_eval]
      rfl

theorem attempt_eq (source : List Char) (env : Env) (settings : Settings) :
    attempt source env settings = .ok (ofSource source env settings, env) := by
  rw [attempt, ofSource]
  split
  · rw [Tokenizer.attemptDrain_eq, Breakdown.ok_bind]
    simp only [attemptExpression_eq, Breakdown.ok_bind]
    rfl
  · exact attemptExpression_eq source env settings

end Report

end Abacus
