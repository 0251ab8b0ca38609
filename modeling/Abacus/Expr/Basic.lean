import Abacus.Operator

/-!
# Expressions

Seven kinds of node, and a blank node that has no source text and no value. Parentheses are kept as nodes, so that an
expression can be written as it was read.
-/

namespace Abacus

inductive Expr where
  | literal (value : Binary64)
  | var (name : String)
  | binop (op : Operator) (lhs rhs : Expr)
  | call (name : String) (arg : Expr)
  | paren (inner : Expr)
  | negate (inner : Expr)
  | letIn (name : String) (bound body : Expr)
  | blank
  deriving DecidableEq

instance : Inhabited Expr := ⟨.blank⟩

/-- An operand behind a sign: only a minus is kept. -/
def Operator.signed (op : Operator) (operand : Expr) : Expr := if op = .sub then .negate operand else operand

namespace Expr

/-- Whether a blank node occurs. -/
def hasBlank : Expr → Bool
  | literal _ | var _ => false
  | binop _ l r => l.hasBlank || r.hasBlank
  | call _ e | paren e | negate e => e.hasBlank
  | letIn _ b e => b.hasBlank || e.hasBlank
  | blank => true

/-! ## Equality

Two expressions are equal if they have the same shape, names and operators, and equal numbers. The comparison goes from
left to right and stops at the first difference. Two blank nodes cannot be compared.
-/

/-- The second answer counts only if the first is yes. -/
def bothEqual (first second : Option Bool) : Option Bool :=
  match first with
  | some true => second
  | _ => first

/-- Whether two expressions are equal, none if the comparison meets two blank nodes. -/
def equal? : Expr → Expr → Option Bool
  | literal x, literal y => some (x.same y)
  | var a, var b => some (a == b)
  | binop o l r, binop p m s =>
    if o = p then bothEqual (equal? l m) (equal? r s) else some false
  | call f e, call g d => if f = g then equal? e d else some false
  | paren e, paren d | negate e, negate d => equal? e d
  | letIn n b e, letIn m c d => if n = m then bothEqual (equal? b c) (equal? e d) else some false
  | blank, blank => none
  | _, _ => some false

/-- The number of different values among two expressions, none if a blank node occurs in either. -/
def distinct? (a b : Expr) : Option Nat :=
  if a.hasBlank || b.hasBlank then none else (a.equal? b).map fun equal => if equal then 1 else 2

end Expr

end Abacus
