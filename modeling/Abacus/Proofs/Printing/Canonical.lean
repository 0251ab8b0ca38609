import Abacus.Proofs.Printing.RoundTrip

/-!
# Which expressions are read back

An expression that is read is canonical, and an equal one can differ from it only in the signs of zeros. The source text
shows those signs: it has a lexeme more for each, so it is read as an expression of more lexemes.
-/

namespace Abacus.Expr

variable {e : Expr}

/-! ## Signs in the source text -/

theorem length_yield_le (e : Expr) : e.yield.length ≤ e.unfoldSigns.yield.length := by
  induction e with
  | literal x =>
      rw [unfoldSigns]
      split <;> simp [yield]
  | var | blank => exact Nat.le_refl _
  | call _ _ ih | paren _ ih | negate _ ih =>
      simp only [unfoldSigns, yield, List.length_append, List.length_cons]
      omega
  | binop _ _ _ ihl ihr | letIn _ _ _ ihl ihr =>
      simp only [unfoldSigns, yield, List.length_append, List.length_cons]
      omega

/-- Only signed numbers make the source text longer. -/
theorem allLiterals_not_isNegative (h : e.unfoldSigns.yield.length ≤ e.yield.length) :
    e.allLiterals (!·.isNegative) = true := by
  induction e with
  | literal x =>
      cases hx : x.isNegative with
      | false => simp [allLiterals, hx]
      | true => simp [unfoldSigns, hx, yield] at h
  | var | blank => rfl
  | call _ _ ih | paren _ ih | negate _ ih =>
      simp only [unfoldSigns, yield, List.length_append, List.length_cons] at h
      exact ih (by omega)
  | binop _ l r ihl ihr | letIn _ l r ihl ihr =>
      have hl := l.length_yield_le
      have hr := r.length_yield_le
      simp only [unfoldSigns, yield, List.length_append, List.length_cons] at h
      simp only [allLiterals, Bool.and_eq_true]
      exact ⟨ihl (by omega), ihr (by omega)⟩

theorem allLiterals_and {p q : Binary64 → Bool} (hp : e.allLiterals p = true) (hq : e.allLiterals q = true) :
    e.allLiterals (fun x => p x && q x) = true := by
  induction e with
  | literal => simp only [allLiterals] at hp hq ⊢; rw [hp, hq]; rfl
  | var | blank => rfl
  | call _ _ ih | paren _ ih | negate _ ih => exact ih hp hq
  | binop _ _ _ ihl ihr | letIn _ _ _ ihl ihr =>
      simp only [allLiterals, Bool.and_eq_true] at hp hq ⊢
      exact ⟨ihl hp.1 hq.1, ihr hp.2 hq.2⟩

theorem hasBlank_unfoldSigns (e : Expr) : e.unfoldSigns.hasBlank = e.hasBlank := by
  induction e with
  | literal x => rw [unfoldSigns]; split <;> rfl
  | var | blank => rfl
  | call _ _ ih | paren _ ih | negate _ ih => exact ih
  | binop _ _ _ ihl ihr | letIn _ _ _ ihl ihr => simp only [unfoldSigns, hasBlank, ihl, ihr]

/-! ## Reading the source text -/

theorem hasBlank_eq_false_of_source? {text : String} (hs : e.source? = some text) : e.hasBlank = false := by
  rw [← Bool.not_eq_true, ← source?_eq_none_iff, hs]
  exact Option.some_ne_none text

/-- What is read from the source text has the lexemes of the expression, a minus for each signed number among them. -/
theorem yield_of_parse_source (hn : e.named = true) (hl : e.allLiterals (!·.isNaN) = true) {text : String}
    (hs : e.source? = some text) {again : Expr} (h : parse text.toList = .ok again) :
    again.yield = e.unfoldSigns.yield := by
  have hb := hasBlank_eq_false_of_source? hs
  obtain ⟨tokens, ht, hw⟩ := (lexes_source hn hl hs).exists_tokenize
  obtain ⟨tokens', ht', hwritten, -⟩ := written_of_parse h
  obtain rfl : tokens = tokens' := Except.ok.inj (ht.symm.trans ht')
  rw [hw] at hwritten
  have hyield : Written e.unfoldSigns e.unfoldSigns.yield := written_yield (e.hasBlank_unfoldSigns.trans hb)
  exact (written_iff.1 hwritten).2.symm.trans (written_iff.1 hyield).2

theorem canonical_of_parse_source {text : String} (hs : e.source? = some text) {again : Expr}
    (h : parse text.toList = .ok again) (he : again.equal? e = some true) : e.canonical = true := by
  have halike := equal?_eq_true_iff.1 he
  obtain ⟨-, hg, hn, -⟩ := canonical_iff.1 (canonical_of_parse h)
  rw [halike.grouped] at hg
  rw [halike.named] at hn
  have hnan := halike.allLiterals_not_isNaN
  have hyield := yield_of_parse_source hn hnan hs h
  -- Both count the lexemes of `again`, so the source text has no minus for the sign of a number.
  have hlength : e.unfoldSigns.yield.length = e.yield.length := by rw [← hyield, halike.length_yield]
  have hsigns := allLiterals_not_isNegative (Nat.le_of_eq hlength)
  exact canonical_iff.2 ⟨hasBlank_eq_false_of_source? hs, hg, hn, allLiterals_and hnan hsigns⟩

/-- The source text of an expression is read as an equal expression exactly if the expression is canonical. -/
theorem parse_source_equal_iff (e : Expr) :
    (∃ text again, e.source? = some text ∧ parse text.toList = .ok again ∧ again.equal? e = some true) ↔
      e.canonical = true := by
  constructor
  · rintro ⟨text, again, hs, hp, he⟩
    exact canonical_of_parse_source hs hp he
  · intro h
    obtain ⟨hb, -, -, hl⟩ := canonical_iff.1 h
    cases hs : e.source? with
    | none =>
        rw [source?_eq_none_iff, hb] at hs
        cases hs
    | some text =>
        have hnan := allLiterals_imp (fun _ => isNaN_eq_false_of_unsigned) hl
        exact ⟨text, e, rfl, parse_of_canonical h hs, equal?_self hb hnan⟩

end Abacus.Expr
