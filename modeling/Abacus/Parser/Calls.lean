import Abacus.Parser

/-!
# Calls of a parser

A parser is asked to move its lookahead, to take a token of a kind, or to read a part of an expression. The calls come in
any order; each goes on with the parser that the one before it left, also where that one failed.
-/

namespace Abacus.Parser

/-- The parser of a source, with its first lookahead. -/
def ofSource (source : List Char) : Except Fault Parser :=
  let opened := (start source).bump
  opened.result.map fun _ => opened.parser

inductive Call where
  | bump
  | expect (kind : Token.Kind)
  | primary
  | expr (level : Int)
  /-- A binding behind the word that starts it. -/
  | letIn
  | parse

inductive Answer where
  | moved
  | token (token : Token)
  | expr (e : Expr)

def perform (p : Parser) : Call → Step p.size Answer
  | .bump => (p.bump.map fun _ => .moved).widen p.ahead_le_size
  | .expect kind => (p.expect kind).map .token
  | .primary => p.primary.map .expr
  | .expr level => (p.expr level).map .expr
  | .letIn => p.letIn.map .expr
  | .parse => p.parse.map .expr

/-- A call, the parser that it was made of, and what came of it. -/
structure Reply where
  call : Call
  before : Parser
  result : Except Fault Answer
  /-- The parsers on the way, one behind each move of the lookahead. -/
  passed : List Parser
  after : Parser

/-- The tokens that are taken on a way past some parsers: the lookahead in front of each move. -/
def taken (p : Parser) : List Parser → List Token
  | [] => []
  | q :: passed => p.lookahead?.toList ++ q.taken passed

def Reply.taken (r : Reply) : List Token := r.before.taken r.passed

def reply (p : Parser) (call : Call) : Reply :=
  let step := p.perform call
  ⟨call, p, step.result, step.passed, step.parser⟩

def replies (p : Parser) : List Call → List Reply
  | [] => []
  | call :: calls => p.reply call :: (p.reply call).after.replies calls

/-- A parser of the source that some calls lead to, or that one of them passes on its way. -/
inductive Reachable (source : List Char) : Parser → Prop
  | opened {p} : ofSource source = .ok p → Reachable source p
  | after {p} (call : Call) : Reachable source p → Reachable source (p.reply call).after
  | passed {p q} (call : Call) : Reachable source p → q ∈ (p.reply call).passed → Reachable source q

end Abacus.Parser
