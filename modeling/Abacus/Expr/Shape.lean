import Abacus.Expr.Basic
import Abacus.Token.Scan

/-!
# Shapes of expressions

Not every expression can be written without further parentheses. One is well grouped if each operator's operands bind at
least as tightly as their places demand, no sign stands over an operation, and no left operand ends in a binding, whose
body would take what follows.
-/

namespace Abacus.Expr

/-- Whether the text of an expression ends with the body of a binding. -/
def endsInLet : Expr → Bool
  | letIn .. => true
  | binop _ _ r => r.endsInLet
  | negate inner => inner.endsInLet
  | _ => false

def isBinop : Expr → Bool
  | binop .. => true
  | _ => false

/-- Whether an expression may be the left operand of `op` as far as levels go. -/
def fitsLeft (op : Operator) : Expr → Bool
  | binop inner _ _ =>
    inner.precedence > op.precedence || (inner.precedence == op.precedence && op.associativity == .left)
  | _ => true

def fitsRight (op : Operator) : Expr → Bool
  | binop inner _ _ =>
    inner.precedence > op.precedence || (inner.precedence == op.precedence && op.associativity == .right)
  | _ => true

def grouped : Expr → Bool
  | literal _ | var _ | blank => true
  | binop op l r => l.fitsLeft op && !l.endsInLet && r.fitsRight op && l.grouped && r.grouped
  | call _ e | paren e => e.grouped
  | negate e => !e.isBinop && e.grouped
  | letIn _ b e => b.grouped && e.grouped

/-- A letter, then letters and digits, but no keyword. -/
def isName (s : String) : Bool :=
  match s.toList with
  | [] => false
  | c :: cs => Text.isLetter c && cs.all Scan.isWordCharacter && (Lexeme.keywords.lookup s).isNone

/-- Whether every name could be read. -/
def named : Expr → Bool
  | literal _ | blank => true
  | var n => isName n
  | binop _ l r => l.named && r.named
  | call n e => isName n && e.named
  | paren e | negate e => e.named
  | letIn n b e => isName n && b.named && e.named

/-- Whether a property holds of every number. -/
def allLiterals (p : Binary64 → Bool) : Expr → Bool
  | literal x => p x
  | var _ | blank => true
  | binop _ l r => l.allLiterals p && r.allLiterals p
  | call _ e | paren e | negate e => e.allLiterals p
  | letIn _ b e => b.allLiterals p && e.allLiterals p

/-- Numbers as they are read: not NaN, and without a sign. -/
def unsigned (x : Binary64) : Bool := !x.isNaN && !x.isNegative

/-- The shape of every expression that is read from a source. -/
def canonical (e : Expr) : Bool := !e.hasBlank && e.grouped && e.named && e.allLiterals unsigned

/-- Without blank nodes, which cannot be compared, and without NaN, which equals nothing. -/
def comparable (e : Expr) : Bool := !e.hasBlank && e.allLiterals (!·.isNaN)

/-- Numbers that are neither infinite nor NaN, and without a sign. -/
def finiteUnsigned : Binary64 → Bool
  | .finite negative _ => !negative
  | _ => false

/-- An expression of any shape without blank nodes, whose names could be read and whose numbers are finite and without a
sign. -/
def legible : Expr → Bool
  | literal x => finiteUnsigned x
  | var n => isName n
  | binop _ l r => l.legible && r.legible
  | call n e => isName n && e.legible
  | paren e | negate e => e.legible
  | letIn n b e => isName n && b.legible && e.legible
  | blank => false

/-- The expression with every signed number replaced by its opposite behind a minus. -/
def unfoldSigns : Expr → Expr
  | literal x => if x.isNegative then negate (literal x.neg) else literal x
  | var n => var n
  | binop op l r => binop op l.unfoldSigns r.unfoldSigns
  | call n e => call n e.unfoldSigns
  | paren e => paren e.unfoldSigns
  | negate e => negate e.unfoldSigns
  | letIn n b e => letIn n b.unfoldSigns e.unfoldSigns
  | blank => blank

end Abacus.Expr
