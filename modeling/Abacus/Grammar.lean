import Abacus.Token.Basic

/-!
# The grammar

The grammar of expressions, without levels: it says which lexemes form an expression, not how they are grouped.
-/

namespace Abacus

inductive Category where
  | expression
  | operand
  deriving DecidableEq

/-- The lexemes form an expression or an operand. -/
inductive Derives : Category → List Lexeme → Prop
  | operand {w} : Derives .operand w → Derives .expression w
  | binop {v w} (op : Operator) :
      Derives .expression v → Derives .expression w → Derives .expression (v ++ .operator op :: w)
  | number (value : Binary64) : Derives .operand [.number value]
  | var (name : String) : Derives .operand [.name name]
  | call {w} (name : String) : Derives .expression w →
      Derives .operand (.name name :: .openParen :: w ++ [.closeParen])
  | paren {w} : Derives .expression w → Derives .operand (.openParen :: w ++ [.closeParen])
  | signed {w} (op : Operator) : op ∈ Operator.signs → Derives .operand w → Derives .operand (.operator op :: w)
  | letIn {v w} (name : String) : Derives .expression v → Derives .expression w →
      Derives .operand (.letWord :: .name name :: .equals :: v ++ .inWord :: w)

/-- The lexemes can be continued to an expression. -/
def Viable (w : List Lexeme) : Prop := ∃ v, Derives .expression (w ++ v)

theorem Derives.ne_nil {c : Category} {w : List Lexeme} (h : Derives c w) : w ≠ [] := by
  induction h with
  | operand _ ih => exact ih
  | _ => simp

theorem Viable.of_append {v w : List Lexeme} (h : Viable (v ++ w)) : Viable v := by
  obtain ⟨u, hu⟩ := h
  exact ⟨w ++ u, by rwa [List.append_assoc] at hu⟩

end Abacus
