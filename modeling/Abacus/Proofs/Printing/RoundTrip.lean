import Abacus.Proofs.Expr.Equality
import Abacus.Proofs.Parsing.Canonical
import Abacus.Proofs.Printing.Source

/-!
# Reading back

The source text of a canonical expression is read as that expression. Every expression that is read is canonical, so its
text is read as the same expression again.
-/

namespace Abacus

namespace Expr

variable {e : Expr}

/-! ## Signs -/

theorem allLiterals_imp {p q : Binary64 → Bool} (hpq : ∀ x, p x = true → q x = true) (h : e.allLiterals p = true) :
    e.allLiterals q = true := by
  induction e with
  | literal x => exact hpq x h
  | var | blank => rfl
  | call _ _ ih | paren _ ih | negate _ ih => exact ih h
  | binop _ _ _ ihl ihr | letIn _ _ _ ihl ihr =>
      simp only [allLiterals, Bool.and_eq_true] at h ⊢
      exact ⟨ihl h.1, ihr h.2⟩

theorem isNaN_eq_false_of_unsigned {x : Binary64} (h : unsigned x = true) : (!x.isNaN) = true := by
  simp only [unsigned, Bool.and_eq_true] at h
  exact h.1

theorem unfoldSigns_eq_self (h : e.allLiterals unsigned = true) : e.unfoldSigns = e := by
  induction e with
  | literal x =>
      simp only [allLiterals, unsigned, Bool.and_eq_true, Bool.not_eq_true'] at h
      simp [unfoldSigns, h.2]
  | var | blank => rfl
  | call _ _ ih | paren _ ih | negate _ ih => simp [unfoldSigns, ih h]
  | binop _ _ _ ihl ihr | letIn _ _ _ ihl ihr =>
      simp only [allLiterals, Bool.and_eq_true] at h
      simp [unfoldSigns, ihl h.1, ihr h.2]

/-! ## Canonical expressions -/

theorem parse_of_canonical (h : e.canonical = true) {text : String} (hs : e.source? = some text) :
    parse text.toList = .ok e := by
  obtain ⟨hb, hg, hn, hl⟩ := canonical_iff.1 h
  have hnan := allLiterals_imp (fun _ => isNaN_eq_false_of_unsigned) hl
  have hlexes := lexes_source hn hnan hs
  rw [unfoldSigns_eq_self hl] at hlexes
  exact parse_of_lexes hlexes (written_yield hb) hg

end Expr

/-- The source text of an expression that was read is read again, as an expression that equals the first, is shown in
the same way and has the same source text. -/
theorem parse_source_of_parse {source : List Char} {e : Expr} (h : parse source = .ok e) :
    ∃ text again, e.source? = some text ∧ parse text.toList = .ok again ∧ again = e ∧ again.equal? e = some true ∧
      again.echo = e.echo ∧ again.source? = some text := by
  have hc := canonical_of_parse h
  obtain ⟨hb, -, -, hl⟩ := Expr.canonical_iff.1 hc
  have hnan := Expr.allLiterals_imp (fun _ => Expr.isNaN_eq_false_of_unsigned) hl
  cases hs : e.source? with
  | none =>
      rw [Expr.source?_eq_none_iff, hb] at hs
      cases hs
  | some text =>
      have hparse : parse text.toList = .ok e := Expr.parse_of_canonical hc hs
      exact ⟨text, e, rfl, hparse, rfl, Expr.equal?_self hb hnan, rfl, hs⟩

theorem parse_source_of_parse_signs :
    ∃ text again, (Expr.letIn "x" (.negate (.var "y")) (.binop .pow (.negate (.negate (.var "x"))) (.var "x"))).source?
        = some text ∧ parse text.toList = .ok again ∧
      again = .letIn "x" (.negate (.var "y")) (.binop .pow (.negate (.negate (.var "x"))) (.var "x")) ∧
      again.equal? (.letIn "x" (.negate (.var "y")) (.binop .pow (.negate (.negate (.var "x"))) (.var "x")))
        = some true ∧
      again.echo = "let x = -y in [--x ** x]" ∧ again.source? = some text := by
  have h : parse "let x = -y in - -x ** x".toList =
      .ok (.letIn "x" (.negate (.var "y")) (.binop .pow (.negate (.negate (.var "x"))) (.var "x"))) :=
    Expr.parse_of_canonical (by decide) (by rfl)
  exact parse_source_of_parse h

end Abacus
