import Abacus.Expr.Basic

/-!
# Variables

The free occurrences of an expression come in the order in which evaluation meets them. The name of a call is no
variable. Substitution of a number goes into the bound part of every binding, but not into a body that binds the name
anew.
-/

namespace Abacus.Expr

def freeVars : Expr → List String
  | literal _ | blank => []
  | var n => [n]
  | binop _ l r => l.freeVars ++ r.freeVars
  | call _ e | paren e | negate e => e.freeVars
  | letIn n b e => b.freeVars ++ e.freeVars.filter (· != n)

def substitute (name : String) (value : Binary64) : Expr → Expr
  | literal x => literal x
  | var n => if n = name then literal value else var n
  | binop op l r => binop op (l.substitute name value) (r.substitute name value)
  | call f e => call f (e.substitute name value)
  | paren e => paren (e.substitute name value)
  | negate e => negate (e.substitute name value)
  | letIn n b e => letIn n (b.substitute name value) (if n = name then e else e.substitute name value)
  | blank => blank

theorem substitute_of_not_free {name : String} {e : Expr} (value : Binary64) (h : name ∉ e.freeVars) :
    e.substitute name value = e := by
  induction e with
  | literal | blank => rfl
  | var n => simp only [freeVars, List.mem_singleton] at h; simp [substitute, Ne.symm h]
  | binop _ l r hl hr =>
    simp only [freeVars, List.mem_append, not_or] at h
    simp [substitute, hl h.1, hr h.2]
  | call _ e ih | paren e ih | negate e ih => simp [substitute, ih h]
  | letIn n b e hb he =>
    simp only [freeVars, List.mem_append, not_or] at h
    by_cases hn : n = name
    · simp [substitute, hb h.1, hn]
    · have he' : name ∉ e.freeVars := fun hm => h.2 (List.mem_filter.2 ⟨hm, by simp [Ne.symm hn]⟩)
      simp [substitute, hb h.1, he he']

end Abacus.Expr
