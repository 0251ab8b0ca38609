import Abacus.Proofs.Parsing.Outcome

/-!
# Every grouped expression is read

A parser that has the lexemes of a grouped expression ahead reads that expression from them, whatever stands behind them
that does not extend it. So no two grouped expressions are written by the lexemes of one source.
-/

namespace Abacus

variable {source : List Char}

namespace Step

variable {n : Nat} {α β : Type} {step : Step n α} {a : α} {rest : List Token}

/-- The step yields the value and leaves the tokens; no fault stands behind them. -/
def Returns (source : List Char) (a : α) (rest : List Token) (step : Step n α) : Prop :=
  step.result = .ok a ∧ step.parser.Supplies source none rest

theorem Returns.widen {m : Nat} (h : step.Returns source a rest) (hm : n ≤ m) :
    (step.widen hm).Returns source a rest := h

theorem Returns.behind (h : step.Returns source a rest) (passed : List Parser) :
    (step.behind passed).Returns source a rest := h

theorem Returns.map (h : step.Returns source a rest) (f : α → β) : (step.map f).Returns source (f a) rest :=
  ⟨by rw [Step.map, h.1]; rfl, h.2⟩

theorem Returns.andThen {next : α → (p : Parser) → p.size ≤ n → Step p.size β} {b : β} {rest' : List Token}
    (h : step.Returns source a rest)
    (hn : ∀ q hq, q.Supplies source none rest → (next a q hq).Returns source b rest') :
    (step.andThen next).Returns source b rest' := by
  rw [andThen_of_ok h.1]
  exact ((hn _ _ h.2).behind _).widen _

end Step

namespace Parser

open Step

variable {p : Parser} {e : Expr} {token : Token} {rest tokens : List Token} {level : Int}

theorem done_returns {α : Type} {a : α} (hp : p.Supplies source none rest) : (p.done a).Returns source a rest :=
  ⟨rfl, hp⟩

theorem bump_returns (hp : p.Supplies source none (token :: rest)) : p.bump.Returns source () rest := by
  cases hp with
  | token ht =>
      rcases bump_cases (p := ⟨_, some token⟩) ht with ⟨hr, hq, -⟩ | ⟨fault, -, hf, -, -⟩
      · exact ⟨hr, hq⟩
      · cases hf

theorem expect_returns (hp : p.Supplies source none (token :: rest)) :
    (p.expect token.kind).Returns source token rest := by
  unfold expect
  rw [hp.lookahead]
  simp only [List.head?_cons, if_true]
  exact ((bump_returns hp).map _).widen _

theorem operators_returns (hp : p.Supplies source none tokens) (hs : StopsBelow level (lexemes tokens)) :
    (p.operators e level).Returns source e tokens := by
  rw [Parser.operators]
  split
  · rename_i op span h
    obtain ⟨rest, rfl⟩ := hp.exists_of_lookahead h
    rw [if_neg (Int.not_le.2 hs)]
    exact done_returns hp
  · exact done_returns hp

theorem operators_cons_returns {op : Operator} {span : Span} {a : Expr} {rest' : List Token}
    (hp : p.Supplies source none (⟨.operator op, span⟩ :: rest)) (hl : level ≤ op.precedence)
    (hn : ∀ q : Parser, q.Supplies source none rest →
      ((q.expr op.rightLevel).andThen fun right r _ => r.operators (.binop op e right) level).Returns source a rest') :
    (p.operators e level).Returns source a rest' := by
  rw [Parser.operators]
  split
  · rename_i op' span' h
    rw [hp.lookahead] at h
    cases h
    rw [if_pos hl]
    exact ((bump_returns hp).andThen fun q _ hq => hn q hq).widen _
  · rename_i h
    exact (h op span (by rw [hp.lookahead]; rfl)).elim

/-! ## Operands by their first lexeme -/

variable {span : Span} {a : Expr} {rest' : List Token}

theorem primary_number_returns {value : Binary64} (hp : p.Supplies source none (⟨.number value, span⟩ :: rest)) :
    p.primary.Returns source (.literal value) rest := by
  rw [Parser.primary]
  split <;> rename_i h <;> rw [hp.lookahead] at h <;> cases h
  exact ((bump_returns hp).andThen fun q _ hq => done_returns hq).widen _

theorem primary_name_returns {name : String} (hp : p.Supplies source none (⟨.name name, span⟩ :: rest))
    (hn : ∀ q : Parser, q.Supplies source none rest → (q.call name).Returns source e rest') :
    p.primary.Returns source e rest' := by
  rw [Parser.primary]
  split <;> rename_i h <;> rw [hp.lookahead] at h <;> cases h
  exact ((bump_returns hp).andThen fun q _ hq => hn q hq).widen _

theorem primary_openParen_returns (hp : p.Supplies source none (⟨.openParen, span⟩ :: rest))
    (hn : ∀ q : Parser, q.Supplies source none rest → ((q.expr 0).andThen fun inner r _ =>
      (r.expect .closeParen).map fun _ => .paren inner).Returns source e rest') :
    p.primary.Returns source e rest' := by
  rw [Parser.primary]
  split <;> rename_i h <;> rw [hp.lookahead] at h <;> cases h
  exact ((bump_returns hp).andThen fun q _ hq => hn q hq).widen _

theorem primary_sign_returns (op : Operator) (hop : op ∈ Operator.signs)
    (hp : p.Supplies source none (⟨.operator op, span⟩ :: rest))
    (hn : ∀ q : Parser, q.Supplies source none rest → (q.expr Operator.signLevel).Returns source e rest') :
    p.primary.Returns source (op.signed e) rest' := by
  rw [Parser.primary]
  split <;> rename_i h <;> rw [hp.lookahead] at h <;> cases h
  simp only [if_pos hop]
  exact ((bump_returns hp).andThen fun q _ hq => (hn q hq).map _).widen _

theorem primary_letWord_returns (hp : p.Supplies source none (⟨.letWord, span⟩ :: rest))
    (hn : ∀ q : Parser, q.Supplies source none rest → q.letIn.Returns source e rest') :
    p.primary.Returns source e rest' := by
  rw [Parser.primary]
  split <;> rename_i h <;> rw [hp.lookahead] at h <;> cases h
  exact ((bump_returns hp).andThen fun q _ hq => hn q hq).widen _

theorem call_openParen_returns {name : String} (hp : p.Supplies source none (⟨.openParen, span⟩ :: rest))
    (hn : ∀ q : Parser, q.Supplies source none rest → ((q.expr 0).andThen fun arg r _ =>
      (r.expect .closeParen).map fun _ => .call name arg).Returns source e rest') :
    (p.call name).Returns source e rest' := by
  rw [Parser.call]
  split
  · exact ((bump_returns hp).andThen fun q _ hq => hn q hq).widen _
  · rename_i h
    exact (h span (by rw [hp.lookahead]; rfl)).elim

theorem call_var_returns {name : String} (hp : p.Supplies source none rest)
    (hr : (Expr.var name).Precedes (lexemes rest)) : (p.call name).Returns source (.var name) rest := by
  rw [Parser.call]
  split
  · rename_i h
    obtain ⟨rest, rfl⟩ := hp.exists_of_lookahead h
    cases hr
  · exact done_returns hp

theorem expr_returns_of_primary (h : p.primary.Returns source e rest)
    (hn : ∀ q : Parser, q.Supplies source none rest → (q.operators e level).Returns source a rest') :
    (p.expr level).Returns source a rest' := by
  rw [Parser.expr]
  exact h.andThen fun q _ hq => hn q hq

/-! ## Expressions -/

/-- The tokens of an expression take a parser to the operators behind it. The induction is on the lexemes that write the
expression; its right operands and inner parts are followed by nothing that extends them. -/
theorem expr_returns {w : List Lexeme} (hw : e.Written w) {used : List Token} (hu : lexemes used = w)
    (hg : e.grouped = true) (hb : e.BindsAt level) (hr : e.Precedes (lexemes rest))
    (hp : p.Supplies source none (used ++ rest))
    (hn : ∀ q : Parser, q.Supplies source none rest → (q.operators e level).Returns source a rest') :
    (p.expr level).Returns source a rest' := by
  induction hw generalizing p level used rest a rest' with
  | literal value =>
      obtain ⟨⟨l, span⟩, rfl, rfl⟩ := List.map_eq_singleton_iff.1 hu
      exact expr_returns_of_primary (primary_number_returns hp) hn
  | var name =>
      obtain ⟨⟨l, span⟩, rfl, rfl⟩ := List.map_eq_singleton_iff.1 hu
      exact expr_returns_of_primary (primary_name_returns hp fun q hq => call_var_returns hq hr) hn
  | @binop l r v w op _ _ ihl ihr =>
      obtain ⟨used₁, _, rfl, hu₁, hu⟩ := List.map_eq_append_iff.1 hu
      obtain ⟨⟨_, span⟩, used₂, rfl, rfl, hu₂⟩ := List.map_eq_cons_iff.1 hu
      simp only [Expr.grouped, Bool.and_eq_true, Bool.not_eq_true'] at hg
      obtain ⟨⟨⟨⟨hfl, hel⟩, hfr⟩, hgl⟩, hgr⟩ := hg
      obtain ⟨hpr, hsr⟩ := (Expr.precedes_binop_iff hfr).1 hr
      have hpl : l.Precedes (lexemes (⟨.operator op, span⟩ :: used₂ ++ rest)) := ⟨hfl, hel⟩
      rw [List.append_assoc] at hp
      -- The parser comes to the operator with the left operand in hand, takes it and the right operand, and goes on.
      refine ihl hu₁ hgl (Expr.bindsAt_of_fitsLeft hfl hb) hpl hp fun q hq => ?_
      refine operators_cons_returns hq hb fun q' hq' => ?_
      have right : (q'.expr op.rightLevel).Returns source r rest :=
        ihr hu₂ hgr (Expr.fitsRight_iff.1 hfr) hpr hq' fun _ h => operators_returns h hsr
      exact right.andThen fun q'' _ hq'' => hn q'' hq''
  | @call e w name _ ih =>
      obtain ⟨⟨_, span⟩, _, rfl, rfl, hu₁⟩ := List.map_eq_cons_iff.1 hu
      obtain ⟨⟨_, span'⟩, _, rfl, rfl, hu₂⟩ := List.map_eq_cons_iff.1 hu₁
      obtain ⟨used, _, rfl, hue, hu₃⟩ := List.map_eq_append_iff.1 hu₂
      obtain ⟨⟨_, span''⟩, rfl, rfl⟩ := List.map_eq_singleton_iff.1 hu₃
      refine expr_returns_of_primary (primary_name_returns hp fun q hq => ?_) hn
      refine call_openParen_returns hq fun q' hq' => ?_
      replace hq' : q'.Supplies source none (used ++ ⟨.closeParen, span''⟩ :: rest) := by simpa using hq'
      have hpe : e.Precedes (lexemes (⟨.closeParen, span''⟩ :: rest)) := trivial
      have arg : (q'.expr 0).Returns source e (⟨.closeParen, span''⟩ :: rest) :=
        ih hue hg (Expr.bindsAt_zero e) hpe hq' fun _ h => operators_returns h trivial
      exact arg.andThen fun q'' _ hq'' => (expect_returns hq'').map _
  | @paren e w _ ih =>
      obtain ⟨⟨_, span⟩, _, rfl, rfl, hu₁⟩ := List.map_eq_cons_iff.1 hu
      obtain ⟨used, _, rfl, hue, hu₂⟩ := List.map_eq_append_iff.1 hu₁
      obtain ⟨⟨_, span'⟩, rfl, rfl⟩ := List.map_eq_singleton_iff.1 hu₂
      refine expr_returns_of_primary (primary_openParen_returns hp fun q hq => ?_) hn
      replace hq : q.Supplies source none (used ++ ⟨.closeParen, span'⟩ :: rest) := by simpa using hq
      have hpe : e.Precedes (lexemes (⟨.closeParen, span'⟩ :: rest)) := trivial
      have inner : (q.expr 0).Returns source e (⟨.closeParen, span'⟩ :: rest) :=
        ih hue hg (Expr.bindsAt_zero e) hpe hq fun _ h => operators_returns h trivial
      exact inner.andThen fun q' _ hq' => (expect_returns hq').map _
  | @negate e w _ ih =>
      obtain ⟨⟨_, span⟩, used, rfl, rfl, hue⟩ := List.map_eq_cons_iff.1 hu
      simp only [Expr.grouped, Bool.and_eq_true, Bool.not_eq_true'] at hg
      -- No operator binds at the level of a sign, so the operand takes none of those behind it.
      have hpe : e.Precedes (lexemes rest) := (Expr.precedes_negate_iff hg.1).1 hr
      refine expr_returns_of_primary (primary_sign_returns .sub (by decide) hp fun q hq => ?_) hn
      exact ih hue hg.2 (Expr.bindsAt_of_isBinop_eq_false hg.1 _) hpe hq fun _ h =>
        operators_returns h (stopsBelow_signLevel _)
  | @plus e w hbe _ ih =>
      obtain ⟨⟨_, span⟩, used, rfl, rfl, hue⟩ := List.map_eq_cons_iff.1 hu
      refine expr_returns_of_primary (primary_sign_returns .add (by decide) hp fun q hq => ?_) hn
      exact ih hue hg (Expr.bindsAt_of_isBinop_eq_false hbe _) hr hq fun _ h =>
        operators_returns h (stopsBelow_signLevel _)
  | @letIn b e v w name _ _ ihb ihe =>
      obtain ⟨⟨_, span₁⟩, _, rfl, rfl, hu₁⟩ := List.map_eq_cons_iff.1 hu
      obtain ⟨⟨_, span₂⟩, _, rfl, rfl, hu₂⟩ := List.map_eq_cons_iff.1 hu₁
      obtain ⟨⟨_, span₃⟩, _, rfl, rfl, hu₃⟩ := List.map_eq_cons_iff.1 hu₂
      obtain ⟨used, _, rfl, hub, hu₄⟩ := List.map_eq_append_iff.1 hu₃
      obtain ⟨⟨_, span₄⟩, used', rfl, rfl, hue⟩ := List.map_eq_cons_iff.1 hu₄
      simp only [Expr.grouped, Bool.and_eq_true] at hg
      obtain ⟨hpe, hse⟩ := Expr.precedes_letIn_iff.1 hr
      refine expr_returns_of_primary (primary_letWord_returns hp fun q hq => ?_) hn
      rw [Parser.letIn]
      refine ((expect_returns hq).map _).andThen fun q _ hq => ?_
      refine (expect_returns hq).andThen fun q _ hq => ?_
      replace hq : q.Supplies source none (used ++ ⟨.inWord, span₄⟩ :: (used' ++ rest)) := by simpa using hq
      have hpb : b.Precedes (lexemes (⟨.inWord, span₄⟩ :: (used' ++ rest))) := trivial
      have bound : (q.expr 0).Returns source b (⟨.inWord, span₄⟩ :: (used' ++ rest)) :=
        ihb hub hg.1 (Expr.bindsAt_zero b) hpb hq fun _ h => operators_returns h trivial
      refine bound.andThen fun q _ hq => ?_
      refine (expect_returns hq).andThen fun q _ hq => ?_
      have body : (q.expr 0).Returns source e rest :=
        ihe hue hg.2 (Expr.bindsAt_zero e) hpe hq fun _ h => operators_returns h hse
      exact body.map _

end Parser

end Abacus
