import Abacus.Proofs.Parsing.Outcome

/-!
# What the parser reads

Whatever a parser has ahead, an expression that it reads is written by the tokens that it takes and is grouped by
levels, and what it leaves cannot extend the expression. Where it fails, no text could go on.
-/

namespace Abacus

variable {source : List Char} {fault? : Option LexicalFault}

namespace Expr

/-- An expression that was read at a level, from the tokens it took, in front of those it left. -/
structure ReadAt (level : Int) (e : Expr) (used rest : List Token) : Prop where
  written : e.Written (lexemes used)
  grouped : e.grouped = true
  bindsAt : e.BindsAt level
  precedes : e.Precedes (lexemes rest)
  stopsBelow : StopsBelow level (lexemes rest)

/-- The same for an operand. -/
structure ReadAsOperand (e : Expr) (used rest : List Token) : Prop where
  written : e.Written (lexemes used)
  grouped : e.grouped = true
  isBinop : e.isBinop = false
  precedes : e.Precedes (lexemes rest)

end Expr

namespace Parser

open Step Recognizer

theorem stopsBelow_of_lookahead {p : Parser} {tokens : List Token} (hp : p.Supplies source fault? tokens)
    (h : ∀ op span, p.lookahead? = some ⟨.operator op, span⟩ → False) (level : Int) :
    StopsBelow level (lexemes tokens) := by
  rw [hp.lookahead] at h
  match tokens with
  | [] => trivial
  | ⟨.operator op, span⟩ :: _ => exact (h op span rfl).elim
  | ⟨.number _, _⟩ :: _ | ⟨.name _, _⟩ :: _ | ⟨.openParen, _⟩ :: _ | ⟨.closeParen, _⟩ :: _ | ⟨.letWord, _⟩ :: _
  | ⟨.inWord, _⟩ :: _ | ⟨.equals, _⟩ :: _ => trivial

theorem precedes_var_of_lookahead {p : Parser} {name : String} {tokens : List Token}
    (hp : p.Supplies source fault? tokens) (h : ∀ span, p.lookahead? = some ⟨.openParen, span⟩ → False) :
    (Expr.var name).Precedes (lexemes tokens) := by
  rw [hp.lookahead] at h
  match tokens with
  | [] => trivial
  | ⟨.openParen, span⟩ :: _ => exact (h span rfl).elim
  | ⟨.operator _, _⟩ :: _ => exact ⟨rfl, rfl⟩
  | ⟨.number _, _⟩ :: _ | ⟨.name _, _⟩ :: _ | ⟨.closeParen, _⟩ :: _ | ⟨.letWord, _⟩ :: _ | ⟨.inWord, _⟩ :: _
  | ⟨.equals, _⟩ :: _ => trivial

/-- Behind an expression that is complete, only an open part can be closed. -/
theorem next_eq_none_of_precedes {e : Expr} {σ : List Opening} {l : Lexeme} {w : List Lexeme}
    (he : e.Precedes (l :: w)) (hs : StopsBelow 0 (l :: w)) (hc : ∀ o ∈ σ.head?, l ≠ o.closer) :
    next ⟨.operator e.endsInName, σ⟩ l = none := by
  cases l with
  | operator op => simp only [StopsBelow] at hs; omega
  | openParen =>
      simp only [Expr.Precedes] at he
      rw [he]
      rfl
  | closeParen =>
      cases σ with
      | nil => cases e.endsInName <;> rfl
      | cons o σ =>
          cases o with
          | parenthesis => exact absurd rfl (hc .parenthesis rfl)
          | bound => cases e.endsInName <;> rfl
  | inWord =>
      cases σ with
      | nil => cases e.endsInName <;> rfl
      | cons o σ =>
          cases o with
          | parenthesis => cases e.endsInName <;> rfl
          | bound => exact absurd rfl (hc .bound rfl)
  | number _ | name _ | letWord | equals => cases e.endsInName <;> rfl

theorem eq_closer_of_kind {l : Lexeme} {o : Opening} (h : l.kind = o.closer.kind) : l = o.closer := by
  cases o with
  | parenthesis =>
      cases l with
      | closeParen => rfl
      | _ => cases h
  | bound =>
      cases l with
      | inWord => rfl
      | _ => cases h

theorem expect_closer_meets {p : Parser} {e : Expr} {o : Opening} {σ : List Opening} {tokens : List Token}
    (hp : p.Supplies source fault? tokens) (he : e.Precedes (lexemes tokens)) (hs : StopsBelow 0 (lexemes tokens)) :
    (p.expect o.closer.kind).Meets source fault? ⟨.operator e.endsInName, o :: σ⟩ tokens
      fun _ used _ => lexemes used = [o.closer] := by
  refine (expect_meets (Lexeme.kind_mem_all _) hp (by simp) (by rintro ⟨c, hc⟩; cases hc) ?_ ?_).imp ?_
  · intro l hl
    rw [eq_closer_of_kind hl]
    cases o with
    | parenthesis => exact ⟨_, next_operator_closeParen ..⟩
    | bound => exact ⟨_, next_operator_inWord ..⟩
  · intro token ht hk
    cases tokens with
    | nil => cases ht
    | cons token' rest =>
        cases ht
        refine next_eq_none_of_precedes he hs ?_
        rintro o' ho hl
        cases ho
        exact hk (congrArg Lexeme.kind hl)
  · rintro token used _ ⟨rfl, hk⟩
    simp [eq_closer_of_kind hk]

theorem expectName_meets {p : Parser} {σ : List Opening} {tokens : List Token}
    (hp : p.Supplies source fault? tokens) :
    p.expectName.Meets source fault? ⟨.boundName, σ⟩ tokens fun name used _ => lexemes used = [.name name] := by
  refine Meets.map (rfl : run _ (lexemes []) = some _)
    (expect_meets (by decide) hp (by simp) (by rintro ⟨c, hc⟩; cases hc) ?_ ?_) _ ?_
  · intro l hl
    cases l <;> cases hl
    exact ⟨_, rfl⟩
  · rintro ⟨l, span⟩ - hk
    cases l with
    | name => exact absurd rfl hk
    | _ => rfl
  · rintro ⟨l, span⟩ _ _ ⟨rfl, hk⟩
    cases l <;> cases hk
    rfl

theorem expect_equals_meets {p : Parser} {σ : List Opening} {tokens : List Token}
    (hp : p.Supplies source fault? tokens) :
    (p.expect .equals).Meets source fault? ⟨.equalsSign, σ⟩ tokens fun _ used _ => lexemes used = [.equals] := by
  refine (expect_meets (by decide) hp (by simp) (by rintro ⟨c, hc⟩; cases hc) ?_ ?_).imp ?_
  · intro l hl
    cases l <;> cases hl
    exact ⟨_, rfl⟩
  · rintro ⟨l, span⟩ - hk
    cases l with
    | equals => exact absurd rfl hk
    | _ => rfl
  · rintro ⟨l, span⟩ _ _ ⟨rfl, hk⟩
    cases l <;> cases hk
    rfl

theorem readAsOperand_signed {op : Operator} (hop : op ∈ Operator.signs) {e : Expr} {span : Span}
    {used rest : List Token} (h : e.ReadAt Operator.signLevel used rest) :
    (op.signed e).ReadAsOperand (⟨.operator op, span⟩ :: used) rest := by
  have hb : e.isBinop = false := Expr.isBinop_eq_false_of_bindsAt h.bindsAt (by decide)
  have hop : op = .add ∨ op = .sub := by simpa [Operator.signs] using hop
  rcases hop with rfl | rfl
  · exact ⟨h.written.plus hb, h.grouped, hb, h.precedes⟩
  · refine ⟨h.written.negate, ?_, rfl, (Expr.precedes_negate_iff hb).2 h.precedes⟩
    simp [Operator.signed, Expr.grouped, hb, h.grouped]

mutual
theorem expr_meets (p : Parser) (level : Int) (σ : List Opening) {tokens : List Token}
    (hp : p.Supplies source fault? tokens) :
    (p.expr level).Meets source fault? ⟨.operand, σ⟩ tokens (Expr.ReadAt level) := by
  rw [Parser.expr]
  -- An operand binds at every level, so the loop over the operators starts with its invariant.
  refine Meets.andThen (rfl : run _ (lexemes []) = some _) (primary_meets p σ hp) ?_
  intro left q hq used rest hs h
  exact operators_meets q left level σ hs h.written h.grouped (Expr.bindsAt_of_isBinop_eq_false h.isBinop level)
    h.precedes
termination_by 4 * p.size + 2

theorem operators_meets (p : Parser) (left : Expr) (level : Int) (σ : List Opening) {used tokens : List Token}
    (hp : p.Supplies source fault? tokens) (hw : left.Written (lexemes used)) (hg : left.grouped = true)
    (hb : left.BindsAt level) (hl : left.Precedes (lexemes tokens)) :
    (p.operators left level).Meets source fault? ⟨.operand, σ⟩ (used ++ tokens) (Expr.ReadAt level) := by
  rw [Parser.operators]
  split
  · rename_i op span h
    have := ahead_lt_size h
    obtain ⟨rest, rfl⟩ := hp.exists_of_lookahead h
    split
    · rename_i hlevel
      refine (Meets.andThen (hw.run σ) (bump_meets hp (next_operator_operator ..)) ?_).widen _
      rintro _ q hq _ rest' hs rfl
      have hop : run ⟨.operand, σ⟩ (lexemes (used ++ [⟨.operator op, span⟩])) = some ⟨.operand, σ⟩ := by
        rw [lexemes, List.map_append, run_append_of_run (hw.run σ)]
        exact (run_singleton ..).trans (next_operator_operator ..)
      refine Meets.andThen hop (expr_meets q op.rightLevel σ hs) ?_
      intro right r hr used' rest'' hs' h'
      have hw' : (Expr.binop op left right).Written (lexemes (used ++ [⟨.operator op, span⟩] ++ used')) := by
        simpa [lexemes] using hw.binop op h'.written
      have hfit : right.fitsRight op = true := Expr.fitsRight_iff.2 h'.bindsAt
      -- The operation is the next left operand. It is grouped because `left` may precede this operator.
      refine operators_meets r (.binop op left right) level σ hs' hw' ?_ hlevel ?_
      · simp [Expr.grouped, hl.1, hl.2, hfit, hg, h'.grouped]
      · exact (Expr.precedes_binop_iff hfit).2 ⟨h'.precedes, h'.stopsBelow⟩
    · rename_i hlevel
      exact done_meets hp ⟨hw, hg, hb, hl, Int.not_le.1 hlevel⟩
  · rename_i h
    exact done_meets hp ⟨hw, hg, hb, hl, stopsBelow_of_lookahead hp h level⟩
termination_by 4 * p.size

theorem primary_meets (p : Parser) (σ : List Opening) {tokens : List Token}
    (hp : p.Supplies source fault? tokens) :
    p.primary.Meets source fault? ⟨.operand, σ⟩ tokens Expr.ReadAsOperand := by
  rw [Parser.primary]
  split
  · rename_i h
    obtain rfl := hp.eq_nil_of_lookahead h
    rw [hp.endSpan]
    exact meets_of_error rfl (.ended rfl (by rintro ⟨c, hc⟩; cases hc) hp.fault_eq .endForOperand)
  · rename_i lexeme span h
    have := ahead_lt_size h
    obtain ⟨rest, rfl⟩ := hp.exists_of_lookahead h
    refine Meets.widen ?_ _
    cases lexeme with
    | name name =>
        refine Meets.andThen (rfl : run _ (lexemes []) = some _) (bump_meets hp rfl) ?_
        rintro _ q hq _ rest' hs rfl
        exact call_meets q name σ hs
    | number value =>
        refine Meets.andThen (rfl : run _ (lexemes []) = some _) (bump_meets hp rfl) ?_
        rintro _ q hq _ rest' hs rfl
        exact done_meets hs ⟨.literal value, rfl, rfl, Expr.precedes_of_ends rfl rfl rfl _⟩
    | openParen =>
        refine Meets.andThen (rfl : run _ (lexemes []) = some _) (bump_meets hp rfl) ?_
        rintro _ q hq _ rest' hs rfl
        refine Meets.andThen (rfl : run _ (lexemes [⟨.openParen, span⟩]) = some ⟨.operand, .parenthesis :: σ⟩)
          (expr_meets q 0 _ hs) ?_
        intro inner r hr used _ hs' h'
        have hrun : run ⟨.operand, σ⟩ (lexemes (⟨.openParen, span⟩ :: used)) =
            some ⟨.operator inner.endsInName, .parenthesis :: σ⟩ :=
          (run_cons_of_next rfl _).trans (h'.written.run _)
        refine Meets.map hrun (expect_closer_meets hs' h'.precedes h'.stopsBelow) _ ?_
        intro _ used' _ hused
        refine ⟨?_, h'.grouped, rfl, Expr.precedes_of_ends rfl rfl rfl _⟩
        simpa [lexemes, hused, Opening.closer] using h'.written.paren
    | operator op =>
        by_cases hop : op ∈ Operator.signs
        · simp only [if_pos hop]
          refine Meets.andThen (rfl : run _ (lexemes []) = some _) (bump_meets hp (next_operand_sign hop σ)) ?_
          rintro _ q hq _ rest' hs rfl
          refine Meets.map ?_ (expr_meets q Operator.signLevel σ hs) _ ?_
          · exact (run_singleton ..).trans (next_operand_sign hop σ)
          · intro operand used _ h'
            exact readAsOperand_signed hop h'
        · simp only [if_neg hop]
          -- The token behind the operator is read before the operator is refused.
          exact bump_andThen_fail_meets hp rfl (if_neg hop) (.operatorForOperand op)
    | letWord =>
        refine Meets.andThen (rfl : run _ (lexemes []) = some _) (bump_meets hp rfl) ?_
        rintro _ q hq _ rest' hs rfl
        exact letIn_meets q σ hs
    | closeParen | inWord | equals => exact bump_andThen_fail_meets hp rfl rfl (.noOperand _)
termination_by 4 * p.size + 1

theorem call_meets (p : Parser) (name : String) (σ : List Opening) {span : Span} {tokens : List Token}
    (hp : p.Supplies source fault? tokens) :
    (p.call name).Meets source fault? ⟨.operand, σ⟩ (⟨.name name, span⟩ :: tokens) Expr.ReadAsOperand := by
  rw [Parser.call]
  split
  · rename_i span' h
    have := ahead_lt_size h
    obtain ⟨rest, rfl⟩ := hp.exists_of_lookahead h
    refine (Meets.andThen (rfl : run _ (lexemes [⟨.name name, span⟩]) = some _) (bump_meets hp rfl) ?_).widen _
    rintro _ q hq _ rest' hs rfl
    refine Meets.andThen (rfl : run _ (lexemes [⟨.name name, span⟩, ⟨.openParen, span'⟩]) =
      some ⟨.operand, .parenthesis :: σ⟩) (expr_meets q 0 _ hs) ?_
    intro arg r hr used _ hs' h'
    have hrun : run ⟨.operand, σ⟩ (lexemes (⟨.name name, span⟩ :: ⟨.openParen, span'⟩ :: used)) =
        some ⟨.operator arg.endsInName, .parenthesis :: σ⟩ :=
      (run_cons_of_next rfl _).trans ((run_cons_of_next rfl _).trans (h'.written.run _))
    refine Meets.map hrun (expect_closer_meets hs' h'.precedes h'.stopsBelow) _ ?_
    intro _ used' _ hused
    refine ⟨?_, h'.grouped, rfl, Expr.precedes_of_ends rfl rfl rfl _⟩
    simpa [lexemes, hused, Opening.closer] using h'.written.call name
  · rename_i h
    have hvar : (Expr.var name).ReadAsOperand [⟨.name name, span⟩] tokens :=
      ⟨.var name, rfl, rfl, precedes_var_of_lookahead hp h⟩
    exact done_meets hp hvar
termination_by 4 * p.size

theorem letIn_meets (p : Parser) (σ : List Opening) {span : Span} {tokens : List Token}
    (hp : p.Supplies source fault? tokens) :
    p.letIn.Meets source fault? ⟨.operand, σ⟩ (⟨.letWord, span⟩ :: tokens) Expr.ReadAsOperand := by
  rw [Parser.letIn]
  refine Meets.andThen (rfl : run _ (lexemes [⟨.letWord, span⟩]) = some ⟨.boundName, σ⟩) (expectName_meets hp) ?_
  intro name q hq used₁ _ hs₁ h₁
  have hrun₁ : run ⟨.operand, σ⟩ (lexemes (⟨.letWord, span⟩ :: used₁)) = some ⟨.equalsSign, σ⟩ := by
    simp only [lexemes, List.map_cons, h₁]
    rfl
  refine Meets.andThen hrun₁ (expect_equals_meets hs₁) ?_
  intro _ q' hq' used₂ _ hs₂ h₂
  have hrun₂ : run ⟨.operand, σ⟩ (lexemes (⟨.letWord, span⟩ :: used₁ ++ used₂)) = some ⟨.operand, .bound :: σ⟩ := by
    rw [lexemes, List.map_append, run_append_of_run hrun₁, ← lexemes, h₂]
    rfl
  refine Meets.andThen hrun₂ (expr_meets q' 0 _ hs₂) ?_
  intro b r hr used₃ _ hs₃ h₃
  have hrun₃ : run ⟨.operand, σ⟩ (lexemes (⟨.letWord, span⟩ :: used₁ ++ used₂ ++ used₃)) =
      some ⟨.operator b.endsInName, .bound :: σ⟩ := by
    rw [lexemes, List.map_append, run_append_of_run hrun₂]
    exact h₃.written.run _
  refine Meets.andThen hrun₃ (expect_closer_meets hs₃ h₃.precedes h₃.stopsBelow) ?_
  intro _ r' hr' used₄ _ hs₄ h₄
  have hrun₄ : run ⟨.operand, σ⟩ (lexemes (⟨.letWord, span⟩ :: used₁ ++ used₂ ++ used₃ ++ used₄)) =
      some ⟨.operand, σ⟩ := by
    rw [lexemes, List.map_append, run_append_of_run hrun₃, ← lexemes, h₄]
    exact (run_singleton ..).trans (next_operator_inWord ..)
  refine Meets.map hrun₄ (expr_meets r' 0 σ hs₄) _ ?_
  intro e used₅ rest h₅
  refine ⟨?_, ?_, rfl, Expr.precedes_letIn_iff.2 ⟨h₅.precedes, h₅.stopsBelow⟩⟩
  · simpa [lexemes, h₁, h₂, h₄, Opening.closer] using h₃.written.letIn name h₅.written
  · simp [Expr.grouped, h₃.grouped, h₅.grouped]
termination_by 4 * p.size + 3
end

end Parser

end Abacus
