import Abacus.Source.Excerpt
import Abacus.Text.CharLiteral
import Abacus.Text.Quoted
import Abacus.Token.Basic

/-!
# Faults

A fault is a cause and the span it is found at. Lexical faults end the tokens of a source; grammatical faults end its
parse. Every cause has one message.
-/

namespace Abacus

inductive LexicalCause where
  | illegalStart (c : Char)
  | endAfterPoint
  | illegalAfterPoint (c : Char)
  | unknownOperator (run : List Char)
  deriving DecidableEq

def LexicalCause.message : LexicalCause → String
  | .illegalStart c => "illegal start of token: " ++ Text.charLiteral c
  | .endAfterPoint => "illegal end of input after decimal point"
  | .illegalAfterPoint c => "illegal character after decimal point: " ++ Text.charLiteral c
  | .unknownOperator run => "unknown binary operator: " ++ String.ofList run

inductive GrammarCause where
  | endForOperand
  | endFor (wanted : Token.Kind)
  | otherThan (wanted found : Token.Kind)
  | afterExpression (found : Token.Kind)
  | operatorForOperand (op : Operator)
  | noOperand (found : Token.Kind)
  deriving DecidableEq

def GrammarCause.message : GrammarCause → String
  | .endForOperand => "illegal eof"
  | .endFor wanted => "expected " ++ wanted.label ++ ", got eof"
  | .otherThan wanted found => "expected " ++ wanted.label ++ ", got " ++ found.label
  | .afterExpression found => "unexpected token " ++ found.label ++ ", expected eof"
  | .operatorForOperand op => "unexpected binary operator: " ++ op.symbol
  | .noOperand found => "unexpected token: " ++ found.label

structure LexicalFault where
  cause : LexicalCause
  span : Span
  deriving DecidableEq

structure GrammarFault where
  cause : GrammarCause
  span : Span
  deriving DecidableEq

inductive Fault where
  | lexical (fault : LexicalFault)
  | grammar (fault : GrammarFault)
  deriving DecidableEq

/-- Whether a result is the given fault can be decided, whatever else it could be. -/
instance decidableEqError {ε α : Type} [DecidableEq ε] (fault : ε) : (result : Except ε α) →
    Decidable (result = .error fault)
  | .ok _ => isFalse nofun
  | .error other => decidable_of_iff (other = fault) ⟨congrArg _, Except.error.inj⟩

/-- Whether a result is the given value can be decided, whatever the fault could be. -/
instance decidableEqOk {ε α : Type} [DecidableEq α] (a : α) : (result : Except ε α) → Decidable (result = .ok a)
  | .ok other => decidable_of_iff (other = a) ⟨congrArg _, Except.ok.inj⟩
  | .error _ => isFalse nofun

/-! ## Reports -/

namespace Diagnostic

inductive Kind where
  | lexical
  | grammar
  | general
  deriving DecidableEq

def Kind.label : Kind → String
  | .lexical => "lexical"
  | .grammar => "syntax"
  | .general => "span"

def Kind.constructorName : Kind → String
  | .lexical => "LexicalError"
  | .grammar => "ParseError"
  | .general => "SpanError"

end Diagnostic

/-- A message about a place in a source. -/
structure Diagnostic where
  kind : Diagnostic.Kind
  message : String
  span : Span

namespace Diagnostic

/-- The message, the line it is about and a mark below it. -/
def render (source : List Char) (d : Diagnostic) : String :=
  "error: " ++ d.message ++ "\n" ++ (Excerpt.ofSpan source d.span).text

def constructorForm (d : Diagnostic) : String :=
  d.kind.constructorName ++ "(" ++ Text.quote d.message ++ ", " ++ d.span.constructorForm ++ ")"

end Diagnostic

def LexicalFault.diagnostic (f : LexicalFault) : Diagnostic := ⟨.lexical, f.cause.message, f.span⟩

def GrammarFault.diagnostic (f : GrammarFault) : Diagnostic := ⟨.grammar, f.cause.message, f.span⟩

def Fault.diagnostic : Fault → Diagnostic
  | .lexical fault => fault.diagnostic
  | .grammar fault => fault.diagnostic

end Abacus
