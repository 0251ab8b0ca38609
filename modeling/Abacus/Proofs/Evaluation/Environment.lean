import Abacus.Evaluation.Session

/-!
# The environment after an evaluation

A scope that is closed leaves the environment that it was opened in, whatever the body did in it, if the body leaves its
own. So by induction every evaluation leaves the environment as it was, with a value or with an error.
-/

namespace Abacus

namespace Evaluation

theorem env_map (f : Binary64 → Binary64) (e : Evaluation) : (e.map f).env = e.env := rfl

theorem env_andThen {first : Evaluation} {next : Binary64 → Env → Evaluation}
    (h : ∀ value, (next value first.env).env = first.env) : (first.andThen next).env = first.env := by
  unfold andThen
  split
  · rfl
  · exact h _

theorem env_within {env : Env} {name : String} {value : Binary64} {body : Env → Evaluation}
    (h : (body (env.insert name value)).env = env.insert name value) : (within env name value body).env = env := by
  rw [within, h]
  exact Env.restore_insert env name value

end Evaluation

namespace Expr

open Evaluation

theorem env_eval (e : Expr) (env : Env) : (e.eval env).env = env := by
  induction e generalizing env with
  | literal | blank => rfl
  | var name =>
      rw [eval]
      split <;> rfl
  | binop op l r ihl ihr =>
      rw [eval, env_andThen, ihl]
      intro x
      rw [env_map, ihr]
  | call _ e ih | paren e ih => exact ih env
  | negate e ih => exact (env_map _ _).trans (ih env)
  | letIn name bound body ihb ihe =>
      rw [eval, env_andThen, ihb]
      intro value
      exact env_within (ihe _)

end Expr

namespace Session

theorem after_of_not_isChange {step : Step} (env : Env) (h : step.isChange = false) : step.after env = env := by
  cases step with
  | evaluate e => exact e.env_eval env
  | assign | delete => cases h

theorem run_filter_isChange (env : Env) (steps : List Step) : run env (steps.filter Step.isChange) = run env steps := by
  induction steps generalizing env with
  | nil => rfl
  | cons step steps ih =>
      cases h : step.isChange with
      | true => rw [List.filter_cons_of_pos h]; exact ih (step.after env)
      | false =>
          rw [List.filter_cons_of_neg (by simp [h]), ih]
          exact congrArg (run · steps) (after_of_not_isChange env h).symm

/-- An evaluation changes nothing in its environment, whatever comes of it. So after any number of steps of a session the
environment is what the assignments and deletions among them have made of the first one. -/
theorem env_of_changes (env : Env) (steps : List Step) :
    (∀ e : Expr, (e.eval env).env = env) ∧
    ∀ n, run env (steps.take n) = run env ((steps.take n).filter Step.isChange) :=
  ⟨fun e => e.env_eval env, fun n => (run_filter_isChange env (steps.take n)).symm⟩

end Session

end Abacus
