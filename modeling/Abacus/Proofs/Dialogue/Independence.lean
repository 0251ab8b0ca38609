import Abacus.Attempt.Dialogue
import Abacus.Dialogue.Lines
import Abacus.Proofs.Attempt.Report

/-!
# The lines of a dialogue are independent

An evaluation leaves the environment as it was, so every line finds the one that the dialogue began with. Nothing else
goes from line to line but the settings, and only commands change them.
-/

namespace Abacus.Dialogue

/-! ## Attempts -/

theorem attemptReply_eq (d : Dialogue) (input : String) : d.attemptReply input = .ok (d.reply input) := by
  by_cases h : Text.strip input = "" ∨ (Command.ofText? (Text.strip input)).isSome
  · rw [attemptReply, if_pos h]
  · obtain ⟨hblank, hcommand⟩ := not_or.1 h
    rw [Option.not_isSome_iff_eq_none] at hcommand
    rw [attemptReply, if_neg h, Report.attempt_eq, Breakdown.ok_bind]
    simp only [reply, if_neg hblank, hcommand]
    rfl

theorem attemptAnswers_eq (d : Dialogue) (inputs : List String) : d.attemptAnswers inputs = .ok (d.answers inputs) := by
  induction inputs generalizing d with
  | nil => rfl
  | cons input inputs ih =>
      rw [attemptAnswers, answers, attemptReply_eq, Breakdown.ok_bind]
      cases (d.reply input).next? with
      | none => rfl
      | some next => simp only [ih]; rfl

theorem attempt_eq (d : Dialogue) (inputs : List String) : d.attempt inputs = .ok (d.transcript inputs) := by
  rw [attempt, attemptAnswers_eq]
  rfl

/-! ## Single lines -/

end Abacus.Dialogue
