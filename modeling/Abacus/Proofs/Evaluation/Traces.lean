import Abacus.Proofs.Evaluation.Scoping

/-!
# Traces of evaluations

A scope records its binding before whatever its body records, and the end of its name behind it, on every way out. So by
induction every trace is nested. The bindings in it are those whose bound expression has a value, one record for each.
-/

namespace Abacus

namespace Evaluation

theorem events_map (f : Binary64 → Binary64) (e : Evaluation) : (e.map f).events = e.events := rfl

theorem events_andThen_of_ok {first : Evaluation} {value : Binary64} (h : first.result = .ok value)
    (next : Binary64 → Env → Evaluation) :
    (first.andThen next).events = first.events ++ (next value first.env).events := by
  unfold andThen
  rw [h]

theorem events_andThen_of_error {first : Evaluation} {error : EvalError} (h : first.result = .error error)
    (next : Binary64 → Env → Evaluation) : (first.andThen next).events = first.events := by
  unfold andThen
  rw [h]

theorem events_within (env : Env) (name : String) (value : Binary64) (body : Env → Evaluation) :
    (within env name value body).events = .bind name value :: (body (env.insert name value)).events ++ [.unbind name] :=
  rfl

/-! ## Nesting -/

theorem nested_andThen {first : Evaluation} {next : Binary64 → Env → Evaluation} (h : Nested first.events)
    (hn : ∀ value env, Nested (next value env).events) : Nested (first.andThen next).events := by
  cases hr : first.result with
  | ok value =>
      rw [events_andThen_of_ok hr]
      exact h.append (hn value first.env)
  | error error =>
      rw [events_andThen_of_error hr]
      exact h

theorem nested_within {env : Env} {name : String} {value : Binary64} {body : Env → Evaluation}
    (h : Nested (body (env.insert name value)).events) : Nested (within env name value body).events := by
  rw [events_within]
  exact .scope h .nil

end Evaluation

namespace Expr

open Evaluation

theorem nested_eval (e : Expr) (env : Env) : Nested (e.eval env).events := by
  induction e generalizing env with
  | literal | blank => exact .nil
  | var name =>
      rw [eval]
      split <;> exact .nil
  | binop op l r ihl ihr =>
      refine nested_andThen (ihl env) fun x env' => ?_
      rw [events_map]
      exact ihr env'
  | call _ e ih | paren e ih => exact ih env
  | negate e ih =>
      rw [eval, events_map]
      exact ih env
  | letIn name bound body ihb ihe => exact nested_andThen (ihb env) fun value env' => nested_within (ihe _)

/-! ## Bindings -/

theorem boundOutcomes_names (e : Expr) (scope? : Option Scope) :
    (e.boundOutcomes scope?).map Prod.fst = e.boundNames := by
  induction e generalizing scope? with
  | literal | var | blank => rfl
  | binop op l r ihl ihr => rw [boundOutcomes, boundNames, List.map_append, ihl, ihr]
  | call _ e ih | paren e ih | negate e ih => exact ih scope?
  | letIn name bound body ihb ihe =>
      simp only [boundOutcomes, boundNames, List.map_append, List.map_cons, ihb, ihe]

theorem onward?_of_ok {e : Expr} {scope : Scope} {value : Binary64} (h : e.valueIn scope = .ok value)
    (next : Scope → Binary64 → Scope) : e.onward? next (some scope) = some (next scope value) := by
  rw [onward?, Option.bind_some, h]
  rfl

theorem onward?_of_error {e : Expr} {scope : Scope} {error : EvalError} (h : e.valueIn scope = .error error)
    (next : Scope → Binary64 → Scope) : e.onward? next (some scope) = none := by
  rw [onward?, Option.bind_some, h]
  rfl

/-- Where evaluation does not come to, nothing is entered. -/
theorem entered_of_unreached (e : Expr) : (e.boundOutcomes none).filterMap entered? = [] := by
  induction e with
  | literal | var | blank => rfl
  | binop op l r ihl ihr =>
      rw [boundOutcomes, List.filterMap_append, ihl]
      exact ihr
  | call _ e ih | paren e ih | negate e ih => exact ih
  | letIn name bound body ihb ihe =>
      rw [boundOutcomes, List.filterMap_append, ihb]
      exact ihe

theorem bindings_eval (e : Expr) (env : Env) :
    (e.eval env).events.filterMap ScopeEvent.binding? =
      (e.boundOutcomes (some env.scope)).filterMap entered? := by
  induction e generalizing env with
  | literal | blank => rfl
  | var name =>
      rw [eval]
      split <;> rfl
  | binop op l r ihl ihr =>
      rw [eval, boundOutcomes, List.filterMap_append, ← ihl]
      cases hl : l.valueIn env.scope with
      | ok x =>
          rw [events_andThen_of_ok ((l.result_eval env).trans hl), events_map, env_eval, List.filterMap_append, ihr,
            onward?_of_ok hl]
      | error error =>
          rw [events_andThen_of_error ((l.result_eval env).trans hl), onward?_of_error hl, entered_of_unreached,
            List.append_nil]
  | call _ e ih | paren e ih => exact ih env
  | negate e ih =>
      rw [eval, events_map]
      exact ih env
  | letIn name bound body ihb ihe =>
      rw [eval, boundOutcomes, List.filterMap_append, ← ihb]
      cases hb : bound.valueIn env.scope with
      | ok value =>
          have hbody := ihe (env.insert name value)
          rw [Env.scope_insert] at hbody
          have hentered : entered? (name, some (.ok value)) = some (name, value) := rfl
          rw [events_andThen_of_ok ((bound.result_eval env).trans hb), events_within, env_eval, List.filterMap_append,
            onward?_of_ok hb, Option.map_some, hb, List.filterMap_cons_some hentered, ← hbody]
          simp [ScopeEvent.binding?]
      | error error =>
          have hentered : entered? (name, some (.error error)) = none := rfl
          rw [events_andThen_of_error ((bound.result_eval env).trans hb), onward?_of_error hb, Option.map_some, hb,
            List.filterMap_cons_none hentered, entered_of_unreached, List.append_nil]

/-- With a value or with an error, the trace of an evaluation is nested. Of all bindings in the expression it has one record
for each that is entered, and none for one whose bound expression fails or to which evaluation does not come. -/
theorem trace_nested (e : Expr) (env : Env) :
    Nested (e.eval env).events ∧
    (e.eval env).events.filterMap ScopeEvent.binding? =
      (e.boundOutcomes (some env.scope)).filterMap entered? ∧
    (e.boundOutcomes (some env.scope)).map Prod.fst = e.boundNames :=
  ⟨e.nested_eval env, e.bindings_eval env, e.boundOutcomes_names (some env.scope)⟩

end Expr

end Abacus
