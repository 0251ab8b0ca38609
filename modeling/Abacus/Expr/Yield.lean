import Abacus.Expr.Basic
import Abacus.Token.Basic

/-!
# The lexemes of an expression

The yield of an expression is what its leaves and its words spell from left to right. A plus sign in front of an operand
leaves no node, so the lexemes of a source are compared with a yield after such signs are dropped.
-/

namespace Abacus

namespace Expr

def yield : Expr → List Lexeme
  | literal value => [.number value]
  | var name => [.name name]
  | binop op l r => l.yield ++ .operator op :: r.yield
  | call name arg => .name name :: .openParen :: arg.yield ++ [.closeParen]
  | paren inner => .openParen :: inner.yield ++ [.closeParen]
  | negate inner => .operator .sub :: inner.yield
  | letIn name bound body => .letWord :: .name name :: .equals :: bound.yield ++ .inWord :: body.yield
  | blank => []

end Expr

namespace Lexeme

/-- Whether an operand must follow: behind an operator, an opening parenthesis, an equals sign and the word `in`. -/
def opensOperand : Lexeme → Bool
  | operator _ | openParen | equals | inWord => true
  | _ => false

/-- The lexemes without the plus signs in front of operands; the flag tells whether an operand must come first. -/
def dropPlus (operand : Bool) : List Lexeme → List Lexeme
  | [] => []
  | l :: rest =>
    if operand && l == .operator .add then dropPlus true rest else l :: dropPlus l.opensOperand rest

theorem dropPlus_of_not_plus {l : Lexeme} {rest : List Lexeme} (operand : Bool) (h : l ≠ .operator .add) :
    dropPlus operand (l :: rest) = l :: dropPlus l.opensOperand rest := by
  simp [dropPlus, h]

end Lexeme

end Abacus
