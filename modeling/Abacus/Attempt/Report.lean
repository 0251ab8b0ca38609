import Abacus.Attempt.Evaluation
import Abacus.Proofs.Attempt.Tokens
import Abacus.Report

/-!
# Attempts to report

A report by attempts: the tokens are listed, the lookahead of the parser moves and the expression is evaluated by
operations that may break down. A parser has no such operation of its own, it only moves its lookahead. A fault and an
unbound variable end the report with a message, a breakdown leaves no report.
-/

namespace Abacus

/-- The tokens still to come, and the tokenizer after them. -/
def Tokenizer.attemptDrain (t : Tokenizer) : Except Breakdown (List Token × Tokenizer) :=
  match h : t.attemptNext with
  | .error breakdown => .error breakdown
  | .ok (none, last) => .ok ([], last)
  | .ok (some token, after) =>
    have := rest_lt_of_next (Except.ok.inj (t.attemptNext_eq.symm.trans h))
    do
      let later ← after.attemptDrain
      return (token :: later.1, later.2)
termination_by t.cursor.rest.length

namespace Parser

def attemptBump (p : Parser) : Except Breakdown Parser := do
  let (token?, t) ← p.tokenizer.attemptNext
  return if token?.isSome then ⟨t, token?⟩ else ⟨t.popFault.2, none⟩

/-- The parser after a number of moves of its lookahead. -/
def attemptMoves (p : Parser) : Nat → Except Breakdown Parser
  | 0 => .ok p
  | n + 1 => do
    let q ← p.attemptBump
    q.attemptMoves n

end Parser

namespace Report

/-- The report on an expression without its tokens, and the environment that evaluation leaves. -/
def attemptExpression (source : List Char) (env : Env) (settings : Settings) : Except Breakdown (Report × Env) := do
  let step := (Parser.start source).bump.andThen fun _ p _ => p.parse
  let last ← (Parser.start source).attemptMoves step.passed.length
  let events := parseEvents step.result last
  match step.result with
  | .error fault => return ((ofFault source fault).after "" events, env)
  | .ok e =>
    let evaluation ← e.attempt env
    return ((ofEvaluation evaluation).after (shown settings e) events, evaluation.env)

def attempt (source : List Char) (env : Env) (settings : Settings) : Except Breakdown (Report × Env) := do
  if settings.showTokens then
    let (tokens, last) ← (Tokenizer.ofSource source).attemptDrain
    let fault? := last.popFault.1
    let (report, env) ← attemptExpression source env settings
    return (report.after (listing source tokens fault?) (readEvents tokens fault?), env)
  attemptExpression source env settings

end Report

end Abacus
