import Abacus.Expr.Record
import Abacus.Journal

/-!
# Reports

What the program prints for one expression: its tokens if asked for, the expression, and its value. A fault of any stage
ends the report with a message.
-/

namespace Abacus

structure Settings where
  showTokens : Bool
  asJson : Bool
  deriving DecidableEq

structure Report where
  status : Nat
  output : String
  events : List Event

/-- A text and a line break. -/
def Report.line (s : String) : String := s ++ "\n"

/-- Tokens of a source, each with the line it stands on, and a lexical fault behind them. -/
def Report.listing (source : List Char) (tokens : List Token) (fault? : Option LexicalFault) : String :=
  String.join (tokens.map fun token => line (token.listing.describe source)) ++
    String.join (fault?.toList.map fun fault => line (fault.diagnostic.render source))

/-- Every token of a source, and its lexical fault. -/
def listTokens (source : List Char) : String := Report.listing source (lex source).1 (lex source).2

namespace Report

/-- Text and events that come before a report. -/
def after (output : String) (events : List Event) (r : Report) : Report :=
  { r with output := output ++ r.output, events := events ++ r.events }

def ofFault (source : List Char) (fault : Fault) : Report where
  status := 1
  output := line (fault.diagnostic.render source)
  events := [.rejected fault.diagnostic.kind source]

def ofEvaluation (e : Evaluation) : Report where
  status := match e.result with
    | .ok _ => 0
    | .error _ => 1
  output := match e.result with
    | .ok value => line value.echo
    | .error error => line ("error: " ++ error.message)
  events := e.events.map .scope

def shown (settings : Settings) (e : Expr) : String :=
  line (if settings.asJson then e.record.json else e.echo)

/-- The report on an expression without its tokens. -/
def ofExpression (source : List Char) (env : Env) (settings : Settings) : Report :=
  let step := (Parser.start source).bump.andThen fun _ p _ => p.parse
  let events := parseEvents step.result step.parser
  match step.result with
  | .error fault => (ofFault source fault).after "" events
  | .ok e => (ofEvaluation (e.eval env)).after (shown settings e) events

def ofSource (source : List Char) (env : Env) (settings : Settings) : Report :=
  if settings.showTokens then (ofExpression source env settings).after (listTokens source) (lexEvents source)
  else ofExpression source env settings

end Report

end Abacus
