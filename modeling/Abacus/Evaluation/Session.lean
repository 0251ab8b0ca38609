import Abacus.Evaluation

/-!
# Sessions

A session keeps one environment over a sequence of evaluations, assignments and deletions.
-/

namespace Abacus.Session

inductive Step where
  | evaluate (e : Expr)
  | assign (name : String) (value : Binary64)
  /-- Takes a name out of the environment, if it is there. -/
  | delete (name : String)

namespace Step

def after (env : Env) : Step → Env
  | evaluate e => (e.eval env).env
  | assign name value => env.insert name value
  | delete name => env.erase name

/-- Whether a step is there to change the environment. -/
def isChange : Step → Bool
  | evaluate _ => false
  | assign .. | delete _ => true

end Step

/-- The environment after a sequence of steps. -/
def run (env : Env) (steps : List Step) : Env := steps.foldl Step.after env

end Abacus.Session
