import Abacus.Evaluation.Lookups
import Abacus.Proofs.Evaluation.Environment

/-!
# Evaluation and lexical scope

Since every part of an expression leaves the environment as it was, the next part starts where lexical scope says. The
values, the errors and the environments at the lookups are those of lexical scope.
-/

namespace Abacus

namespace Evaluation

theorem result_map (f : Binary64 → Binary64) (e : Evaluation) : (e.map f).result = e.result.map f := rfl

theorem result_andThen (first : Evaluation) (next : Binary64 → Env → Evaluation) :
    (first.andThen next).result = first.result.bind fun value => (next value first.env).result := by
  unfold andThen
  split
  · rename_i h
    rw [h]
    rfl
  · rename_i h
    rw [h]
    rfl

theorem result_within (env : Env) (name : String) (value : Binary64) (body : Env → Evaluation) :
    (within env name value body).result = (body (env.insert name value)).result := rfl

end Evaluation

namespace Expr

open Evaluation

theorem result_eval (e : Expr) (env : Env) : (e.eval env).result = e.valueIn env.scope := by
  induction e generalizing env with
  | literal | blank => rfl
  | var name =>
      rw [eval, valueIn, Env.scope]
      cases env.get? name <;> rfl
  | binop op l r ihl ihr =>
      simp only [eval, valueIn, result_andThen, result_map, env_eval, ihl, ihr]
      cases l.valueIn env.scope <;> cases r.valueIn env.scope <;> rfl
  | call _ e ih | paren e ih => exact ih env
  | negate e ih => rw [eval, valueIn, result_map, ih]
  | letIn name bound body ihb ihe =>
      simp only [eval, valueIn, result_andThen, result_within, env_eval, ihb, ihe, Env.scope_insert]
      rfl

/-- Only the name that is reported as unbound is looked up in vain. -/
theorem lookups_missing (e : Expr) (env : Env) :
    ((e.lookups env).filter fun l => (l.2.get? l.1).isNone).map Prod.fst = EvalError.missing (e.eval env).result := by
  induction e generalizing env with
  | literal | blank => rfl
  | var name =>
      rw [lookups, eval]
      cases h : env.get? name <;> simp [h, EvalError.missing]
  | binop op l r ihl ihr =>
      rw [lookups, List.filter_append, List.map_append, ihl, eval, result_andThen]
      cases (l.eval env).result with
      | ok x =>
          simp only [ihr, EvalError.missing, List.nil_append]
          exact (EvalError.missing_map _ _).symm
      | error err => simp [Except.bind]
  | call _ e ih | paren e ih => exact ih env
  | negate e ih => rw [lookups, ih, eval, result_map, EvalError.missing_map]
  | letIn name bound body ihb ihe =>
      rw [lookups, List.filter_append, List.map_append, ihb, eval, result_andThen]
      cases (bound.eval env).result with
      | ok value => exact ihe _
      | error err => simp [Except.bind]

/-- The environments at the lookups, when evaluation starts inside the bodies of some bindings. -/
theorem lookups_eq_surroundings (e : Expr) {env : Env} {scope : Scope} {bindings : List (String × Binary64)}
    (h : env.scope = scope.overlay bindings) :
    (e.lookups env).map (fun l => (l.1, l.2.scope)) =
      (e.surroundings scope bindings).map fun s => (s.1, scope.overlay s.2) := by
  induction e generalizing env bindings with
  | literal | blank => rfl
  | var name => simp [lookups, surroundings, h]
  | binop _ l r ihl ihr =>
      simp only [lookups, surroundings, result_eval, env_eval, h, List.map_append, ihl h]
      cases l.valueIn (scope.overlay bindings) with
      | ok _ => simp only [ihr h]
      | error _ => rfl
  | call _ e ih | paren e ih | negate e ih => exact ih h
  | letIn name bound body ihb ihe =>
      simp only [lookups, surroundings, result_eval, env_eval, h, List.map_append, ihb h]
      cases bound.valueIn (scope.overlay bindings) with
      | ok value =>
          have hbody : (env.insert name value).scope = scope.overlay ((name, value) :: bindings) := by
            rw [Env.scope_insert, h, Scope.overlay_cons]
          simp only [ihe hbody]
      | error _ => rfl

/-- Evaluation in one environment that is changed and restored has the outcome of lexical scope, and at every lookup the
environment is the first one overlaid with the bindings of the bodies around the place. -/
theorem eval_lexical (env : Env) (e : Expr) :
    (e.eval env).result = e.valueIn env.scope ∧
    (e.lookups env).map (fun l => (l.1, l.2.scope)) =
      (e.surroundings env.scope []).map fun s => (s.1, env.scope.overlay s.2) :=
  ⟨e.result_eval env, e.lookups_eq_surroundings (Scope.overlay_nil env.scope).symm⟩

end Expr

end Abacus
