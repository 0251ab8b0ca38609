import Abacus.Env
import Abacus.Expr.Echo

/-!
# Evaluation

An expression is evaluated in one environment that is changed on the way: a `let` binds its name for its body and then
gives the name back what it had, also when the body fails. Bindings and their ends are recorded in the order in which
they happen. The left operand is evaluated before the right one, and the name of a call has no meaning.
-/

namespace Abacus

inductive EvalError where
  | unbound (name : String)
  | noRule (kind : String)
  deriving DecidableEq

def EvalError.message : EvalError → String
  | .unbound name => "unbound variable: " ++ name
  | .noRule kind => "No evaluator for node kind '" ++ kind ++ "'"

/-- What happens to the scope of a name. -/
inductive ScopeEvent where
  | bind (name : String) (value : Binary64)
  | unbind (name : String)
  deriving DecidableEq

def ScopeEvent.message : ScopeEvent → String
  | .bind name value => "bind " ++ name ++ " = " ++ value.echo
  | .unbind name => "unbind " ++ name

/-- The value or the error, the environment afterwards and the events on the way. -/
structure Evaluation where
  result : Except EvalError Binary64
  env : Env
  events : List ScopeEvent

namespace Evaluation

/-- Goes on with the value in the environment left, unless there is an error. -/
def andThen (first : Evaluation) (next : Binary64 → Env → Evaluation) : Evaluation :=
  match first.result with
  | .error _ => first
  | .ok value =>
    let second := next value first.env
    { second with events := first.events ++ second.events }

def map (f : Binary64 → Binary64) (e : Evaluation) : Evaluation := { e with result := e.result.map f }

/-- An evaluation inside the scope of a name, which is closed on every way out. -/
def within (env : Env) (name : String) (value : Binary64) (body : Env → Evaluation) : Evaluation :=
  let inner := body (env.insert name value)
  { result := inner.result
    env := inner.env.restore name (env.get? name)
    events := .bind name value :: inner.events ++ [.unbind name] }

end Evaluation

def Expr.eval (env : Env) : Expr → Evaluation
  | .literal value => ⟨.ok value, env, []⟩
  | .var name =>
    match env.get? name with
    | some value => ⟨.ok value, env, []⟩
    | none => ⟨.error (.unbound name), env, []⟩
  | .binop op l r => (l.eval env).andThen fun x env => (r.eval env).map (op.apply x)
  | .call _ arg => arg.eval env
  | .paren inner => inner.eval env
  | .negate inner => (inner.eval env).map Binary64.neg
  | .letIn name bound body =>
    (bound.eval env).andThen fun value env => .within env name value fun env => body.eval env
  | .blank => ⟨.error (.noRule Expr.blank.kindName), env, []⟩

end Abacus
