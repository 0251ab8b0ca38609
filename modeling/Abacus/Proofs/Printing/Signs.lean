import Abacus.Evaluation
import Abacus.Proofs.Printing.Canonical

/-!
# Signed numbers in the source text

The source text has no signed numbers, so a number with a sign is read as a minus in front of its opposite. That changes
neither how the operations are grouped nor what the expression evaluates to, down to the signs of zeros.
-/

namespace Abacus

theorem Binary64.isNaN_neg (x : Binary64) : x.neg.isNaN = x.isNaN := by
  cases x <;> rfl

namespace Expr

/-! ## Shape -/

theorem isBinop_unfoldSigns (e : Expr) : e.unfoldSigns.isBinop = e.isBinop := by
  cases e with
  | literal x => rw [unfoldSigns]; split <;> rfl
  | _ => rfl

theorem endsInLet_unfoldSigns (e : Expr) : e.unfoldSigns.endsInLet = e.endsInLet := by
  induction e with
  | literal x => rw [unfoldSigns]; split <;> rfl
  | var | call | paren | letIn | blank => rfl
  | binop _ _ _ _ ih | negate _ ih => exact ih

theorem fitsLeft_unfoldSigns (op : Operator) (e : Expr) : e.unfoldSigns.fitsLeft op = e.fitsLeft op := by
  cases e with
  | literal x => rw [unfoldSigns]; split <;> rfl
  | _ => rfl

theorem fitsRight_unfoldSigns (op : Operator) (e : Expr) : e.unfoldSigns.fitsRight op = e.fitsRight op := by
  cases e with
  | literal x => rw [unfoldSigns]; split <;> rfl
  | _ => rfl

theorem grouped_unfoldSigns (e : Expr) : e.unfoldSigns.grouped = e.grouped := by
  induction e with
  | literal x => rw [unfoldSigns]; split <;> rfl
  | var | blank => rfl
  | binop op l r ihl ihr =>
      simp only [unfoldSigns, grouped, fitsLeft_unfoldSigns, endsInLet_unfoldSigns, fitsRight_unfoldSigns, ihl, ihr]
  | call _ _ ih | paren _ ih => exact ih
  | negate e ih => simp only [unfoldSigns, grouped, isBinop_unfoldSigns, ih]
  | letIn _ _ _ ihb ihe => simp only [unfoldSigns, grouped, ihb, ihe]

theorem allLiterals_not_isNaN_unfoldSigns (e : Expr) :
    e.unfoldSigns.allLiterals (!·.isNaN) = e.allLiterals (!·.isNaN) := by
  induction e with
  | literal x =>
      rw [unfoldSigns]
      split
      · simp only [allLiterals, Binary64.isNaN_neg]
      · rfl
  | var | blank => rfl
  | call _ _ ih | paren _ ih | negate _ ih => exact ih
  | binop _ _ _ ihl ihr | letIn _ _ _ ihl ihr => simp only [unfoldSigns, allLiterals, ihl, ihr]

/-! ## Evaluation -/

theorem eval_unfoldSigns (e : Expr) (env : Env) : e.unfoldSigns.eval env = e.eval env := by
  induction e generalizing env with
  | literal x =>
      rw [unfoldSigns]
      split
      · simp only [eval, Evaluation.map, Except.map, Binary64.neg_neg]
      · rfl
  | var | blank => rfl
  | binop op l r ihl ihr => simp only [unfoldSigns, eval, ihl, ihr]
  | call _ _ ih | paren _ ih => exact ih env
  | negate e ih => simp only [unfoldSigns, eval, ih]
  | letIn name bound body ihb ihe => simp only [unfoldSigns, eval, ihb, ihe]

/-! ## Reading back -/

variable {e : Expr}

theorem parse_source_eq_unfoldSigns (hb : e.hasBlank = false) (hg : e.grouped = true) (hn : e.named = true)
    (hl : e.allLiterals (!·.isNaN) = true) {text : String} (hs : e.source? = some text) :
    parse text.toList = .ok e.unfoldSigns := by
  have hyield : Written e.unfoldSigns e.unfoldSigns.yield := written_yield (e.hasBlank_unfoldSigns.trans hb)
  exact parse_of_lexes (lexes_source hn hl hs) hyield (e.grouped_unfoldSigns.trans hg)

/-- The source text of a well-grouped expression is read as the expression with each signed number behind a minus, and
that has the same evaluation in every environment. -/
theorem parse_source_unfoldSigns (hb : e.hasBlank = false) (hg : e.grouped = true) (hn : e.named = true)
    (hl : e.allLiterals (!·.isNaN) = true) :
    ∃ text again, e.source? = some text ∧ parse text.toList = .ok again ∧ again = e.unfoldSigns ∧
      again.equal? e.unfoldSigns = some true ∧ ∀ env, again.eval env = e.eval env := by
  cases hs : e.source? with
  | none =>
      rw [source?_eq_none_iff, hb] at hs
      cases hs
  | some text =>
      have hequal : e.unfoldSigns.equal? e.unfoldSigns = some true :=
        equal?_self (e.hasBlank_unfoldSigns.trans hb) (e.allLiterals_not_isNaN_unfoldSigns.trans hl)
      exact ⟨text, e.unfoldSigns, rfl, parse_source_eq_unfoldSigns hb hg hn hl hs, rfl, hequal, e.eval_unfoldSigns⟩

/-- Signs behind an equals sign, left of a power and behind another sign. -/
theorem parse_source_unfoldSigns_power :
    ∃ text again, (letIn "x" (literal (.finite true .zero))
        (binop .pow (literal (.infinite true)) (negate (literal (.finite true .one))))).source? = some text ∧
      parse text.toList = .ok again ∧
      again = letIn "x" (negate (literal .zero))
        (binop .pow (negate (literal (.infinite false))) (negate (negate (literal .one)))) ∧
      again.equal? (letIn "x" (negate (literal .zero))
        (binop .pow (negate (literal (.infinite false))) (negate (negate (literal .one))))) = some true ∧
      ∀ env, again.eval env = (letIn "x" (literal (.finite true .zero))
        (binop .pow (literal (.infinite true)) (negate (literal (.finite true .one))))).eval env :=
  parse_source_unfoldSigns (by decide) (by decide) (by decide) (by decide)

end Expr

end Abacus
