import Abacus.Expr.Shape
import Abacus.Expr.Yield
import Abacus.Proofs.Grammar.Recognizer

/-!
# Lexemes that write an expression

An expression is written by its yield, with any number of plus signs in front of its operands. The lexemes that write it
are those from which `Lexeme.dropPlus` leaves the yield.
-/

namespace Abacus

/-- The lexemes write the expression. Nothing is said about the grouping of operands. -/
inductive Expr.Written : Expr → List Lexeme → Prop
  | literal (value : Binary64) : Written (.literal value) [.number value]
  | var (name : String) : Written (.var name) [.name name]
  | binop {l r v w} (op : Operator) : Written l v → Written r w → Written (.binop op l r) (v ++ .operator op :: w)
  | call {e w} (name : String) : Written e w → Written (.call name e) (.name name :: .openParen :: w ++ [.closeParen])
  | paren {e w} : Written e w → Written (.paren e) (.openParen :: w ++ [.closeParen])
  | negate {e w} : Written e w → Written (.negate e) (.operator .sub :: w)
  | plus {e w} : e.isBinop = false → Written e w → Written e (.operator .add :: w)
  | letIn {b e v w} (name : String) : Written b v → Written e w →
      Written (.letIn name b e) (.letWord :: .name name :: .equals :: v ++ .inWord :: w)

theorem Expr.Written.ne_nil {e : Expr} {w : List Lexeme} (h : e.Written w) : w ≠ [] := by
  cases h <;> simp

/-! ## Dropping plus signs -/

namespace Lexeme

theorem dropPlus_true_add (w : List Lexeme) : dropPlus true (.operator .add :: w) = dropPlus true w := rfl

theorem dropPlus_false (l : Lexeme) (w : List Lexeme) : dropPlus false (l :: w) = l :: dropPlus l.opensOperand w := rfl

/-- What is left starts with the first lexeme that is no plus sign. -/
theorem exists_of_dropPlus_eq_cons {w r : List Lexeme} {l : Lexeme} (h : dropPlus true w = l :: r) :
    ∃ n v, w = List.replicate n (.operator .add) ++ l :: v ∧ dropPlus l.opensOperand v = r := by
  induction w with
  | nil => cases h
  | cons x w ih =>
      by_cases hx : x = .operator .add
      · subst hx
        obtain ⟨n, v, rfl, hv⟩ := ih h
        exact ⟨n + 1, v, rfl, hv⟩
      · rw [dropPlus_of_not_plus _ hx, List.cons.injEq] at h
        obtain ⟨rfl, hr⟩ := h
        exact ⟨0, w, rfl, hr⟩

theorem exists_of_dropPlus_false_eq_cons {w r : List Lexeme} {l : Lexeme} (h : dropPlus false w = l :: r) :
    ∃ v, w = l :: v ∧ dropPlus l.opensOperand v = r := by
  cases w with
  | nil => cases h
  | cons x w =>
      rw [dropPlus_false, List.cons.injEq] at h
      obtain ⟨rfl, h⟩ := h
      exact ⟨w, rfl, h⟩

end Lexeme

namespace Expr

open Lexeme (dropPlus)

theorem Written.hasBlank {e : Expr} {w : List Lexeme} (h : Written e w) : e.hasBlank = false := by
  induction h with
  | literal | var => rfl
  | binop _ _ _ hl hr | letIn _ _ _ hl hr => simp [Expr.hasBlank, hl, hr]
  | call _ _ ih | paren _ ih | negate _ ih => exact ih
  | plus _ _ ih => exact ih

theorem written_yield {e : Expr} (h : e.hasBlank = false) : Written e e.yield := by
  induction e with
  | blank => cases h
  | literal value => exact .literal value
  | var name => exact .var name
  | binop op l r hl hr =>
      simp only [Expr.hasBlank, Bool.or_eq_false_iff] at h
      exact (hl h.1).binop op (hr h.2)
  | call name a ih => exact (ih h).call name
  | paren a ih => exact (ih h).paren
  | negate a ih => exact (ih h).negate
  | letIn name b a hb ha =>
      simp only [Expr.hasBlank, Bool.or_eq_false_iff] at h
      exact (hb h.1).letIn name (ha h.2)

theorem Written.dropPlus_append {e : Expr} {w : List Lexeme} (h : Written e w) (r : List Lexeme) :
    dropPlus true (w ++ r) = e.yield ++ dropPlus false r := by
  induction h generalizing r with
  | literal | var => rfl
  | binop op _ _ hl hr =>
      rw [List.append_assoc, hl, List.cons_append, Lexeme.dropPlus_false]
      simp [Lexeme.opensOperand, hr, yield]
  | call _ _ ih | paren _ ih => simp [dropPlus, Lexeme.opensOperand, ih, yield]
  | negate _ ih => simp [dropPlus, Lexeme.opensOperand, ih, yield]
  | plus _ _ ih => rw [List.cons_append, Lexeme.dropPlus_true_add, ih]
  | letIn _ _ _ hb he => simp [dropPlus, Lexeme.opensOperand, hb, he, yield]

theorem Written.replicate_plus {e : Expr} {w : List Lexeme} (hb : e.isBinop = false) (h : Written e w) (n : Nat) :
    Written e (List.replicate n (.operator .add) ++ w) := by
  induction n with
  | zero => exact h
  | succ n ih => exact ih.plus hb

theorem exists_written_of_dropPlus {e : Expr} (hb : e.hasBlank = false) {w r : List Lexeme}
    (h : dropPlus true w = e.yield ++ r) : ∃ v u, w = v ++ u ∧ Written e v ∧ dropPlus false u = r := by
  -- Plus signs in front of an operation belong to its left operand, those in front of any other node to the node.
  induction e generalizing w r with
  | blank => cases hb
  | literal value =>
      obtain ⟨n, u, rfl, hu⟩ := Lexeme.exists_of_dropPlus_eq_cons h
      exact ⟨_, u, by simp, (Written.literal value).replicate_plus rfl n, hu⟩
  | var name =>
      obtain ⟨n, u, rfl, hu⟩ := Lexeme.exists_of_dropPlus_eq_cons h
      exact ⟨_, u, by simp, (Written.var name).replicate_plus rfl n, hu⟩
  | binop op a b iha ihb =>
      simp only [Expr.hasBlank, Bool.or_eq_false_iff] at hb
      simp only [yield, List.cons_append, List.append_assoc] at h
      obtain ⟨v, u, rfl, hv, hu⟩ := iha hb.1 h
      obtain ⟨u', rfl, hu'⟩ := Lexeme.exists_of_dropPlus_false_eq_cons hu
      obtain ⟨x, y, rfl, hx, hy⟩ := ihb hb.2 hu'
      exact ⟨_, y, by simp, hv.binop op hx, hy⟩
  | call name a ih =>
      simp only [yield, List.cons_append, List.append_assoc] at h
      obtain ⟨n, u, rfl, hu⟩ := Lexeme.exists_of_dropPlus_eq_cons h
      obtain ⟨u', rfl, hu'⟩ := Lexeme.exists_of_dropPlus_false_eq_cons hu
      obtain ⟨x, y, rfl, hx, hy⟩ := ih hb hu'
      obtain ⟨z, rfl, hz⟩ := Lexeme.exists_of_dropPlus_false_eq_cons hy
      exact ⟨_, z, by simp, (hx.call name).replicate_plus rfl n, hz⟩
  | paren a ih =>
      simp only [yield, List.cons_append, List.append_assoc] at h
      obtain ⟨n, u, rfl, hu⟩ := Lexeme.exists_of_dropPlus_eq_cons h
      obtain ⟨x, y, rfl, hx, hy⟩ := ih hb hu
      obtain ⟨z, rfl, hz⟩ := Lexeme.exists_of_dropPlus_false_eq_cons hy
      exact ⟨_, z, by simp, hx.paren.replicate_plus rfl n, hz⟩
  | negate a ih =>
      obtain ⟨n, u, rfl, hu⟩ := Lexeme.exists_of_dropPlus_eq_cons h
      obtain ⟨x, y, rfl, hx, hy⟩ := ih hb hu
      exact ⟨_, y, by simp, hx.negate.replicate_plus rfl n, hy⟩
  | letIn name a b iha ihb =>
      simp only [Expr.hasBlank, Bool.or_eq_false_iff] at hb
      simp only [yield, List.cons_append, List.append_assoc] at h
      obtain ⟨n, u, rfl, hu⟩ := Lexeme.exists_of_dropPlus_eq_cons h
      obtain ⟨u₁, rfl, hu₁⟩ := Lexeme.exists_of_dropPlus_false_eq_cons hu
      obtain ⟨u₂, rfl, hu₂⟩ := Lexeme.exists_of_dropPlus_false_eq_cons hu₁
      obtain ⟨x, y, rfl, hx, hy⟩ := iha hb.1 hu₂
      obtain ⟨z, rfl, hz⟩ := Lexeme.exists_of_dropPlus_false_eq_cons hy
      obtain ⟨x', z', rfl, hx', hz'⟩ := ihb hb.2 hz
      exact ⟨_, z', by simp, (hx.letIn name hx').replicate_plus rfl n, hz'⟩

/-- An expression without blank nodes is written by the lexemes from which its yield is left. -/
theorem written_iff {e : Expr} {w : List Lexeme} :
    Written e w ↔ e.hasBlank = false ∧ dropPlus true w = e.yield := by
  constructor
  · intro h
    have hd := h.dropPlus_append []
    rw [List.append_nil] at hd
    exact ⟨h.hasBlank, hd.trans (List.append_nil _)⟩
  · rintro ⟨hb, hd⟩
    obtain ⟨v, u, rfl, hv, hu⟩ := exists_written_of_dropPlus hb (hd.trans (List.append_nil _).symm)
    cases u with
    | nil => rwa [List.append_nil]
    | cons l u => cases hu

/-! ## The place after an expression -/

/-- Whether the text of an expression ends with a name that is no call. -/
def endsInName : Expr → Bool
  | var _ => true
  | binop _ _ e | negate e | letIn _ _ e => e.endsInName
  | _ => false

theorem Written.run {e : Expr} {w : List Lexeme} (h : Written e w) (σ : List Recognizer.Opening) :
    Recognizer.run ⟨.operand, σ⟩ w = some ⟨.operator e.endsInName, σ⟩ := by
  induction h generalizing σ with
  | literal | var => rfl
  | binop op _ _ hl hr =>
      rw [Recognizer.run_append_of_run (hl σ), Recognizer.run_cons_of_next (Recognizer.next_operator_operator ..), hr]
      rfl
  | call name _ ih =>
      rw [List.cons_append, List.cons_append, Recognizer.run_cons_of_next rfl, Recognizer.run_cons_of_next rfl,
        Recognizer.run_append_of_run (ih _), Recognizer.run_singleton, Recognizer.next_operator_closeParen]
      rfl
  | paren _ ih =>
      rw [List.cons_append, Recognizer.run_cons_of_next rfl, Recognizer.run_append_of_run (ih _),
        Recognizer.run_singleton, Recognizer.next_operator_closeParen]
      rfl
  | negate _ ih => exact ih σ
  | plus _ _ ih => exact ih σ
  | letIn name _ _ hb he =>
      rw [List.cons_append, List.cons_append, List.cons_append, Recognizer.run_cons_of_next rfl,
        Recognizer.run_cons_of_next rfl, Recognizer.run_cons_of_next rfl, Recognizer.run_append_of_run (hb _),
        Recognizer.run_cons_of_next (Recognizer.next_operator_inWord ..), he]
      rfl

end Expr

end Abacus
