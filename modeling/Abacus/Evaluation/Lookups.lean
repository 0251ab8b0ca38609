import Abacus.Evaluation.Lexical

/-!
# Lookups

Where a name is looked up, evaluation sees the environment as it is at that time. Lexical scope demands that it be the
first environment, overlaid with the bindings of the bodies around the place.
-/

namespace Abacus

/-- The scope overlaid with bindings, the innermost of which come first. -/
def Scope.overlay (scope : Scope) (bindings : List (String × Binary64)) : Scope :=
  fun name => (bindings.lookup name).or (scope name)

namespace Expr

/-- The names that evaluation looks up, in order, each with the environment at that time. -/
def lookups (env : Env) : Expr → List (String × Env)
  | .literal _ | .blank => []
  | .var name => [(name, env)]
  | .binop _ l r =>
    l.lookups env ++ match (l.eval env).result with
      | .ok _ => r.lookups (l.eval env).env
      | .error _ => []
  | .call _ e | .paren e | .negate e => e.lookups env
  | .letIn name bound body =>
    bound.lookups env ++ match (bound.eval env).result with
      | .ok value => body.lookups ((bound.eval env).env.insert name value)
      | .error _ => []

/-- The names that are looked up where nothing ever changes, in order, each with the bindings of the bodies around it. The
innermost come first, in front of those given. -/
def surroundings (scope : Scope) (bindings : List (String × Binary64)) :
    Expr → List (String × List (String × Binary64))
  | .literal _ | .blank => []
  | .var name => [(name, bindings)]
  | .binop _ l r =>
    l.surroundings scope bindings ++ match l.valueIn (scope.overlay bindings) with
      | .ok _ => r.surroundings scope bindings
      | .error _ => []
  | .call _ e | .paren e | .negate e => e.surroundings scope bindings
  | .letIn name bound body =>
    bound.surroundings scope bindings ++ match bound.valueIn (scope.overlay bindings) with
      | .ok value => body.surroundings scope ((name, value) :: bindings)
      | .error _ => []

end Expr

/-- The name that an outcome reports as unbound, if it reports one. -/
def EvalError.missing : Except EvalError Binary64 → List String
  | .error (.unbound name) => [name]
  | _ => []

theorem EvalError.missing_map (f : Binary64 → Binary64) (result : Except EvalError Binary64) :
    missing (result.map f) = missing result := by
  cases result <;> rfl

/-! ## Overlays -/

theorem Scope.overlay_nil (scope : Scope) : scope.overlay [] = scope := rfl

theorem Scope.overlay_cons (scope : Scope) (name : String) (value : Binary64) (bindings : List (String × Binary64)) :
    scope.overlay ((name, value) :: bindings) = (scope.overlay bindings).extend name value := by
  funext other
  by_cases h : other = name
  · simp [overlay, extend, h]
  · simp [overlay, extend, h, Env.lookup_cons_of_ne h]

end Abacus
