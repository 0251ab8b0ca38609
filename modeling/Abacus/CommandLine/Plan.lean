import Abacus.CommandLine.Request
import Abacus.Dialogue

/-!
# Plans

What a request leads to: a text to print at once, a report on one expression, or a dialogue. The journal goes to the
error stream, if it is asked for.
-/

namespace Abacus.CommandLine

/-- What a run leaves: its status and the two streams that it wrote. -/
structure Outcome where
  status : Nat
  output : String
  errors : String

def usageText : String := "usage: climb [-h] [-D NAME=VALUE] [--tokens] [--json] [--repl] [-v] [source]\n"

def helpText : String := usageText ++ "
Parse and evaluate an arithmetic expression.

positional arguments:
  source                Expression to evaluate

options:
  -h, --help            show this help message and exit
  -D NAME=VALUE, --define NAME=VALUE
                        Bind a variable before evaluating (repeatable)
  --tokens              Print the token stream first
  --json                Print the AST as JSON
  --repl                Launch interactive REPL instead of evaluating one
                        expression
  -v, --verbose         Log debug output to stderr
"

def Refusal.outcome : Refusal → Outcome
  | .help => ⟨0, helpText, ""⟩
  | .usage e => ⟨2, "", usageText ++ "climb: error: " ++ e.message ++ "\n"⟩

inductive Plan where
  | stop (outcome : Outcome)
  | report (source : List Char) (env : Env) (settings : Settings) (verbose : Bool)
  | converse (dialogue : Dialogue) (verbose : Bool)

namespace Plan

/-- A dialogue is held if it is asked for, or if there is no source. -/
def ofRequest (r : Request) (env : Env) : Plan :=
  let settings : Settings := ⟨r.showTokens, r.asJson⟩
  match r.source? with
  | none => .converse ⟨env, settings⟩ r.verbose
  | some source =>
    if r.interactive then .converse ⟨env, settings⟩ r.verbose
    else .report source.toList env settings r.verbose

def ofArguments (arguments : List String) : Except EmptyDefinition Plan :=
  match Request.ofArguments arguments with
  | .error refusal => .ok (.stop refusal.outcome)
  | .ok request => request.env.map (ofRequest request)

def journal (verbose : Bool) (events : List Event) : String :=
  if verbose then String.join (events.map Event.line) else ""

/-- What a plan leads to when the lines of `input` are all that is said. -/
def outcome (input : List Char) : Plan → Outcome
  | .stop outcome => outcome
  | .report source env settings verbose =>
    let r := Report.ofSource source env settings
    ⟨r.status, r.output, journal verbose r.events⟩
  | .converse dialogue verbose =>
    let (output, events) := dialogue.transcript ((Dialogue.lines input).map String.ofList)
    ⟨0, output, journal verbose events⟩

end Plan

end Abacus.CommandLine
