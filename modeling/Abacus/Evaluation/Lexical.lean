import Abacus.Evaluation

/-!
# Lexical scope

The value of an expression where nothing ever changes: a binding extends the environment of its body and of nothing
else.
-/

namespace Abacus

/-- What each name stands for. -/
abbrev Scope := String → Option Binary64

def Env.scope (env : Env) : Scope := env.get?

def Scope.extend (scope : Scope) (name : String) (value : Binary64) : Scope :=
  fun other => if other = name then some value else scope other

/-- The value of an expression, or the first error in order of evaluation. -/
def Expr.valueIn (scope : Scope) : Expr → Except EvalError Binary64
  | .literal value => .ok value
  | .var name => (scope name).elim (.error (.unbound name)) .ok
  | .binop op l r => do
    let x ← l.valueIn scope
    let y ← r.valueIn scope
    return op.apply x y
  | .call _ arg => arg.valueIn scope
  | .paren inner => inner.valueIn scope
  | .negate inner => (inner.valueIn scope).map Binary64.neg
  | .letIn name bound body => do
    let value ← bound.valueIn scope
    body.valueIn (scope.extend name value)
  | .blank => .error (.noRule Expr.blank.kindName)

theorem Env.scope_insert (env : Env) (name : String) (value : Binary64) :
    (env.insert name value).scope = env.scope.extend name value := by
  funext other; exact get?_insert env name other value

/-! ## Traces -/

/-- Every binding is closed by the end of the same name, inside out. -/
inductive Nested : List ScopeEvent → Prop
  | nil : Nested []
  | scope {name value inner rest} : Nested inner → Nested rest →
      Nested (.bind name value :: inner ++ .unbind name :: rest)

theorem Nested.append {v w : List ScopeEvent} (hv : Nested v) (hw : Nested w) : Nested (v ++ w) := by
  induction hv with
  | nil => exact hw
  | scope hi _ _ ih => simpa using Nested.scope hi ih

/-- The name and the value that an event binds, if it binds one. -/
def ScopeEvent.binding? : ScopeEvent → Option (String × Binary64)
  | .bind name value => some (name, value)
  | .unbind _ => none

/-- The names of all bindings in an expression, each binding behind those in its bound expression and before those in its
body. -/
def Expr.boundNames : Expr → List String
  | .literal _ | .var _ | .blank => []
  | .binop _ l r => l.boundNames ++ r.boundNames
  | .call _ e | .paren e | .negate e => e.boundNames
  | .letIn name bound body => bound.boundNames ++ name :: body.boundNames

/-- The scope in which evaluation goes on behind an expression, none if it does not come there. -/
def Expr.onward? (e : Expr) (next : Scope → Binary64 → Scope) (scope? : Option Scope) : Option Scope :=
  scope?.bind fun scope => (e.valueIn scope).toOption.map (next scope)

/-- The same bindings, each with the outcome of its bound expression, or with none if evaluation does not come to it. The
scope is none if evaluation does not come to the whole expression. -/
def Expr.boundOutcomes (scope? : Option Scope) : Expr → List (String × Option (Except EvalError Binary64))
  | .literal _ | .var _ | .blank => []
  | .binop _ l r => l.boundOutcomes scope? ++ r.boundOutcomes (l.onward? (fun scope _ => scope) scope?)
  | .call _ e | .paren e | .negate e => e.boundOutcomes scope?
  | .letIn name bound body =>
    bound.boundOutcomes scope? ++ (name, scope?.map fun scope => bound.valueIn scope) ::
      body.boundOutcomes (bound.onward? (fun scope value => scope.extend name value) scope?)

/-- The name and the value of a binding that is entered: one whose bound expression has a value. -/
def entered? : String × Option (Except EvalError Binary64) → Option (String × Binary64)
  | (name, some (.ok value)) => some (name, value)
  | _ => none

end Abacus
