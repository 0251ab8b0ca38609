import Abacus.Evaluation
import Abacus.Parser
import Abacus.Token.Listing

/-!
# Journals

A journal tells what happened on the way to an answer: the tokens that were read, the faults, the expression that was
parsed, and the scopes of names. Each entry has a channel and a message.
-/

namespace Abacus

inductive Event where
  | read (token : Token)
  | lexicalFault (fault : LexicalFault)
  | grammarFault (fault : GrammarFault)
  | parsed (e : Expr)
  | rejected (kind : Diagnostic.Kind) (source : List Char)
  | scope (event : ScopeEvent)

namespace Event

/-- A message and the place that it is about. -/
def located (message : String) (span : Span) : String := message ++ " at " ++ span.constructorForm

def channel : Event → String
  | read _ | lexicalFault _ => "climb.lexer"
  | grammarFault _ | parsed _ => "climb.parser"
  | rejected .. => "climb.cli"
  | scope _ => "climb.eval"

def message : Event → String
  | read token => located ("token " ++ token.listing.constructorForm) token.span
  | lexicalFault fault => located ("lexical error: " ++ fault.cause.message) fault.span
  | grammarFault fault => located ("syntax error: " ++ fault.cause.message) fault.span
  | parsed e => "parsed " ++ e.echo
  | rejected kind source => kind.label ++ " error in " ++ Text.quote (String.ofList source)
  | scope event => event.message

def line (e : Event) : String := e.channel ++ ": " ++ e.message ++ "\n"

/-- The entry for a fault. -/
def ofFault : Fault → Event
  | .lexical fault => lexicalFault fault
  | .grammar fault => grammarFault fault

end Event

/-- The tokens that a parser has read: those of its source that end where its tokenizer stands, or before. -/
def Parser.tokensRead (p : Parser) : List Token :=
  (lex p.tokenizer.cursor.source).1.takeWhile fun token => token.span.stop ≤ p.tokenizer.cursor.position

/-- The entries of reading tokens up to their end or a fault. -/
def readEvents (tokens : List Token) (fault? : Option LexicalFault) : List Event :=
  tokens.map .read ++ fault?.toList.map .lexicalFault

/-- The entries of reading every token of a source. -/
def lexEvents (source : List Char) : List Event := readEvents (lex source).1 (lex source).2

/-- The entries of a parse with the given outcome: the tokens read, and how it ended. -/
def parseEvents (outcome : Except Fault Expr) (p : Parser) : List Event :=
  p.tokensRead.map .read ++ [match outcome with
    | .ok e => .parsed e
    | .error fault => .ofFault fault]

end Abacus
