import Abacus.Attempt.Evaluation
import Abacus.Proofs.Attempt.Operators
import Abacus.Proofs.Evaluation.Environment

/-!
# Attempts to evaluate do not break down

The body of a scope leaves its environment as it was. So where the scope ends its name is bound still, and it can be
taken out.
-/

namespace Abacus

namespace Env

theorem attemptRestore_insert (env : Env) (name : String) (value : Binary64) :
    (env.insert name value).attemptRestore name (env.get? name) = .ok env := by
  have hrestore := restore_insert env name value
  cases h : env.get? name with
  | some old =>
      rw [h] at hrestore
      exact congrArg Except.ok hrestore
  | none =>
      have hbound : (env.insert name value).get? name ≠ none := by simp [get?_insert]
      rw [h] at hrestore
      rw [attemptRestore, attemptErase, if_neg hbound]
      exact congrArg Except.ok hrestore

end Env

namespace Evaluation

theorem attemptThen_eq {first : Evaluation} {next : Binary64 → Env → Except Breakdown Evaluation}
    {next' : Binary64 → Env → Evaluation} (h : ∀ value env, next value env = .ok (next' value env)) :
    first.attemptThen next = .ok (first.andThen next') := by
  obtain ⟨result, env, events⟩ := first
  cases result with
  | error error => rfl
  | ok value =>
      simp only [attemptThen, h]
      rfl

theorem attemptMap_eq {f : Binary64 → Except Breakdown Binary64} {f' : Binary64 → Binary64}
    (h : ∀ value, f value = .ok (f' value)) (e : Evaluation) : e.attemptMap f = .ok (e.map f') := by
  obtain ⟨result, env, events⟩ := e
  cases result with
  | error error => rfl
  | ok value =>
      simp only [attemptMap, h]
      rfl

theorem attemptWithin_eq {env : Env} {name : String} {value : Binary64} {body : Env → Except Breakdown Evaluation}
    {body' : Env → Evaluation} (h : ∀ env, body env = .ok (body' env)) (he : ∀ env, (body' env).env = env) :
    attemptWithin env name value body = .ok (within env name value body') := by
  rw [attemptWithin, within, h, Breakdown.ok_bind, he, Env.attemptRestore_insert, Breakdown.ok_bind,
    Env.restore_insert]
  rfl

end Evaluation

namespace Expr

open Evaluation

theorem attempt_eq {e : Expr} (hb : e.hasBlank = false) (env : Env) : e.attempt env = .ok (e.eval env) := by
  induction e generalizing env with
  | literal => rfl
  | var name =>
      rw [attempt, eval]
      cases env.get? name <;> rfl
  | binop op l r ihl ihr =>
      simp only [hasBlank, Bool.or_eq_false_iff] at hb
      rw [attempt, eval, ihl hb.1, Breakdown.ok_bind]
      refine attemptThen_eq fun x env => ?_
      rw [ihr hb.2, Breakdown.ok_bind]
      exact attemptMap_eq (op.attempt_eq x) _
  | call _ e ih | paren e ih => exact ih hb env
  | negate e ih =>
      rw [attempt, eval, ih hb]
      rfl
  | letIn name bound body ihb ihe =>
      simp only [hasBlank, Bool.or_eq_false_iff] at hb
      rw [attempt, eval, ihb hb.1, Breakdown.ok_bind]
      exact attemptThen_eq fun value env => attemptWithin_eq (ihe hb.2) body.env_eval
  | blank => cases hb

end Expr

end Abacus
