import Abacus.Binary64.Arithmetic
import Abacus.Binary64.Power

/-!
# Operators

Twelve binary operators in four levels, of which the power binds tightest and groups to the right. Two of them serve as
signs in front of an operand.
-/

namespace Abacus

inductive Associativity where
  | left
  | right
  deriving DecidableEq

def Associativity.label : Associativity → String
  | .left => "LEFT"
  | .right => "RIGHT"

inductive Operator where
  | lt | le | gt | ge | eq | ne
  | add | sub
  | mul | div | rem
  | pow
  deriving DecidableEq

namespace Operator

/-- Every operator, from the loosest to the tightest. -/
def all : List Operator := [lt, le, gt, ge, eq, ne, add, sub, mul, div, rem, pow]

def symbol : Operator → String
  | lt => "<"
  | le => "<="
  | gt => ">"
  | ge => ">="
  | eq => "=="
  | ne => "!="
  | add => "+"
  | sub => "-"
  | mul => "*"
  | div => "/"
  | rem => "%"
  | pow => "**"

def precedence : Operator → Nat
  | lt | le | gt | ge | eq | ne => 0
  | add | sub => 1
  | mul | div | rem => 2
  | pow => 3

def associativity : Operator → Associativity
  | pow => .right
  | _ => .left

/-- The level of an operand behind a sign, above every binary operator. -/
def signLevel : Int := 4

/-- The operators that are signs in front of an operand. -/
def signs : List Operator := [add, sub]

/-- The level of an operator's right operand. -/
def rightLevel (op : Operator) : Int :=
  match op.associativity with
  | .left => op.precedence + 1
  | .right => op.precedence

def ofSymbol? (s : String) : Option Operator := all.find? (·.symbol == s)

/-- The characters that make up operators. A run of them is read as one symbol. -/
def characters : List Char := "!#$%*+-/<=>?@\\^|~".toList

def isCharacter (c : Char) : Bool := characters.contains c

/-- A comparison yields one or zero. -/
def truth (holds : Bool) : Binary64 := if holds then .one else .zero

def apply : Operator → Binary64 → Binary64 → Binary64
  | lt, x, y => truth (x.lt y)
  | le, x, y => truth (x.le y)
  | gt, x, y => truth (y.lt x)
  | ge, x, y => truth (y.le x)
  | eq, x, y => truth (x.same y)
  | ne, x, y => truth (!x.same y)
  | add, x, y => x.add y
  | sub, x, y => x.sub y
  | mul, x, y => x.mul y
  | div, x, y => x.div y
  | rem, x, y => x.rem y
  | pow, x, y => x.pow y

/-- The form in which an operator is named, apart from its use. -/
def constructorForm (op : Operator) : String := "Operator('" ++ op.symbol ++ "')"

/-! ## Symbols -/

theorem mem_all (op : Operator) : op ∈ all := by cases op <;> decide

theorem ofSymbol?_symbol (op : Operator) : ofSymbol? op.symbol = some op := by cases op <;> decide

theorem symbol_inj {a b : Operator} (h : a.symbol = b.symbol) : a = b := by
  have := ofSymbol?_symbol a
  rw [h, ofSymbol?_symbol, Option.some.injEq] at this
  exact this.symm

theorem isCharacter_of_mem_symbol {op : Operator} {c : Char} (h : c ∈ op.symbol.toList) : isCharacter c = true := by
  cases op <;> simp [symbol] at h <;> rcases h with rfl | rfl <;> decide

end Operator

end Abacus
