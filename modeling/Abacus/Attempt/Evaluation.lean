import Abacus.Attempt.Operators
import Abacus.Evaluation

/-!
# Attempts to evaluate

An unbound variable is an error that evaluation reports. It breaks down where an operator does, where the end of a scope
takes a name out of an environment that does not have it, and on a blank node.
-/

namespace Abacus

namespace Env

/-- Takes out a name that is bound. -/
def attemptErase (env : Env) (name : String) : Except Breakdown Env :=
  if env.get? name = none then .error (.unboundName name) else .ok (env.erase name)

def attemptRestore (env : Env) (name : String) : Option Binary64 → Except Breakdown Env
  | some value => .ok (env.insert name value)
  | none => env.attemptErase name

end Env

namespace Evaluation

/-- Goes on with the value in the environment left, unless there is an error. -/
def attemptThen (first : Evaluation) (next : Binary64 → Env → Except Breakdown Evaluation) :
    Except Breakdown Evaluation :=
  match first.result with
  | .error _ => .ok first
  | .ok value => do
    let second ← next value first.env
    return { second with events := first.events ++ second.events }

def attemptMap (f : Binary64 → Except Breakdown Binary64) (e : Evaluation) : Except Breakdown Evaluation :=
  match e.result with
  | .error _ => .ok e
  | .ok value => do
    let value ← f value
    return { e with result := .ok value }

/-- An evaluation inside the scope of a name. -/
def attemptWithin (env : Env) (name : String) (value : Binary64) (body : Env → Except Breakdown Evaluation) :
    Except Breakdown Evaluation := do
  let inner ← body (env.insert name value)
  let after ← inner.env.attemptRestore name (env.get? name)
  return ⟨inner.result, after, .bind name value :: inner.events ++ [.unbind name]⟩

end Evaluation

def Expr.attempt (env : Env) : Expr → Except Breakdown Evaluation
  | .literal value => .ok ⟨.ok value, env, []⟩
  | .var name =>
    match env.get? name with
    | some value => .ok ⟨.ok value, env, []⟩
    | none => .ok ⟨.error (.unbound name), env, []⟩
  | .binop op l r => do
    let first ← l.attempt env
    first.attemptThen fun x env => do
      let second ← r.attempt env
      second.attemptMap (op.attempt x)
  | .call _ arg => arg.attempt env
  | .paren inner => inner.attempt env
  | .negate inner => do
    let e ← inner.attempt env
    return e.map Binary64.neg
  | .letIn name bound body => do
    let first ← bound.attempt env
    first.attemptThen fun value env => Evaluation.attemptWithin env name value fun env => body.attempt env
  | .blank => .error (.noRule Expr.blank.kindName)

end Abacus
