import Abacus.Expr.Basic
import Abacus.Numeral.Echo
import Abacus.Numeral.Plain
import Abacus.Text.Quoted

/-!
# Written expressions

The echo puts brackets around every operation, to show how operands are grouped. The source text has no brackets but
those that were read; it is what a parser reads back. The constructor form names the kind, the value and the children of
every node.
-/

namespace Abacus.Expr

/-! ## Nodes -/

/-- The value that a node carries beside its children. -/
inductive Value where
  | number (value : Binary64)
  | text (s : String)
  | operator (op : Operator)

def kindName : Expr → String
  | literal _ => "literal"
  | var _ => "var"
  | binop .. => "binop"
  | call .. => "call"
  | paren _ => "paren"
  | negate _ => "negate"
  | letIn .. => "let"
  | blank => "expr"

def value? : Expr → Option Value
  | literal value => some (.number value)
  | var name | call name _ | letIn name _ _ => some (.text name)
  | binop op _ _ => some (.operator op)
  | paren _ | negate _ | blank => none

/-! ## The three forms -/

def Value.constructorForm : Value → String
  | .number value => value.echo
  | .text s => Text.quote s
  | .operator op => op.constructorForm

/-- The kind and the value of a node, before its children. -/
def header (e : Expr) : String :=
  e.kindName ++ (e.value?.map fun value => ", value=" ++ value.constructorForm).getD ""

def constructorForm : Expr → String
  | e@(binop _ l r) | e@(letIn _ l r) =>
    "Expr(" ++ e.header ++ ", children=[" ++ l.constructorForm ++ ", " ++ r.constructorForm ++ "])"
  | e@(call _ d) | e@(paren d) | e@(negate d) =>
    "Expr(" ++ e.header ++ ", children=[" ++ d.constructorForm ++ "])"
  | e => "Expr(" ++ e.header ++ ")"

def echo : Expr → String
  | literal value => value.echo
  | var name => name
  | binop op l r => "[" ++ l.echo ++ " " ++ op.symbol ++ " " ++ r.echo ++ "]"
  | call name arg => name ++ "(" ++ arg.echo ++ ")"
  | paren inner => "(" ++ inner.echo ++ ")"
  | negate inner => "-" ++ inner.echo
  | letIn name bound body => "let " ++ name ++ " = " ++ bound.echo ++ " in " ++ body.echo
  | blank => constructorForm blank

/-- A minus in front of a text, kept apart from a minus that the text starts with: two in a row are one symbol. -/
def negated (source : String) : String :=
  if source.toList.head? = some '-' then "- " ++ source else "-" ++ source

/-- The source text of an expression, none if it has a blank node. -/
def source? : Expr → Option String
  | literal value => some value.plain
  | var name => some name
  | binop op l r => do return (← l.source?) ++ " " ++ op.symbol ++ " " ++ (← r.source?)
  | call name arg => do return name ++ "(" ++ (← arg.source?) ++ ")"
  | paren inner => do return "(" ++ (← inner.source?) ++ ")"
  | negate inner => inner.source?.map negated
  | letIn name bound body => do return "let " ++ name ++ " = " ++ (← bound.source?) ++ " in " ++ (← body.source?)
  | blank => none

theorem source?_eq_none_iff {e : Expr} : e.source? = none ↔ e.hasBlank = true := by
  induction e with
  | literal | var | blank => simp [source?, hasBlank]
  | call _ e _ | paren e _ | negate e _ => cases h : e.source? <;> simp_all [source?, hasBlank]
  | binop _ l r hl hr | letIn _ l r hl hr =>
    cases h : l.source? <;> cases h' : r.source? <;> simp_all [source?, hasBlank]

end Abacus.Expr
