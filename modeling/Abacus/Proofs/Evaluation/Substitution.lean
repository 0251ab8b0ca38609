import Abacus.Expr.Variables
import Abacus.Proofs.Evaluation.Scoping

/-!
# Bindings and substitution

To bind a name for an expression, or to put the number in its free places, is the same. A binding of the same name
further inside hides the outer one, and a binding of another name can be made before or after it.
-/

namespace Abacus

namespace Scope

variable (scope : Scope)

theorem extend_extend (name : String) (v w : Binary64) : (scope.extend name v).extend name w = scope.extend name w := by
  funext other
  by_cases h : other = name <;> simp [extend, h]

theorem extend_comm {name name' : String} (h : name ≠ name') (v w : Binary64) :
    (scope.extend name v).extend name' w = (scope.extend name' w).extend name v := by
  funext other
  by_cases hn : other = name
  · subst hn
    simp [extend, h]
  · simp [extend, hn]

end Scope

namespace Expr

theorem valueIn_substitute (e : Expr) (scope : Scope) (name : String) (value : Binary64) :
    (e.substitute name value).valueIn scope = e.valueIn (scope.extend name value) := by
  induction e generalizing scope with
  | literal | blank => rfl
  | var other =>
      by_cases h : other = name <;> simp [substitute, valueIn, Scope.extend, h]
  | binop op l r ihl ihr => rw [substitute, valueIn, valueIn, ihl, ihr]
  | call _ e ih | paren e ih => exact ih scope
  | negate e ih => rw [substitute, valueIn, valueIn, ih]
  | letIn other bound body ihb ihe =>
      rw [substitute, valueIn, valueIn, ihb]
      by_cases h : other = name
      · subst h
        simp only [↓reduceIte, Scope.extend_extend]
      · simp only [if_neg h, ihe, Scope.extend_comm scope (Ne.symm h)]

/-- A binding has the outcome of its body with the number of the bound expression in the free places of the name. It
fails as the bound expression does, if that has no number. -/
theorem eval_letIn_substitute (env : Env) (name : String) (bound body : Expr) :
    ((letIn name bound body).eval env).result = match (bound.eval env).result with
      | .ok value => ((body.substitute name value).eval env).result
      | .error error => .error error := by
  simp only [result_eval, valueIn]
  cases bound.valueIn env.scope with
  | ok value => exact (body.valueIn_substitute env.scope name value).symm
  | error error => rfl

end Expr

end Abacus
