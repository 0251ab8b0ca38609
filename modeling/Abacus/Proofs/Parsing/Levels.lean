import Abacus.Proofs.Parsing.Calls
import Abacus.Proofs.Parsing.Soundness

/-!
# What a level takes

To read at a level is to read at a tighter one and to go on from there with the operators that are left. So of the tokens
that an expression takes at a level, an expression at a tighter level takes the first ones.
-/

namespace Abacus

variable {source : List Char}

/-! ## Steps in a row -/

namespace Step

variable {n : Nat} {α β γ : Type}

theorem ext_of {s t : Step n α} (hr : s.result = t.result) (hp : s.parser = t.parser) (hw : s.passed = t.passed) :
    s = t := by
  cases s
  cases t
  cases hr
  cases hp
  cases hw
  rfl

theorem andThen_assoc (s : Step n α) (f : α → (p : Parser) → p.size ≤ n → Step p.size β)
    (g : β → (p : Parser) → p.size ≤ n → Step p.size γ) :
    (s.andThen f).andThen g =
      s.andThen fun a p hp => (f a p hp).andThen fun b q hq => g b q (Nat.le_trans hq hp) := by
  cases hs : s.result with
  | error fault =>
      have hsf : (s.andThen f).result = .error fault := by rw [andThen_of_error hs]
      rw [andThen_of_error hsf, andThen_of_error hs, andThen_of_error hs]
  | ok a =>
      rw [andThen_of_ok hs]
      cases hf : (f a s.parser s.size_le).result with
      | error fault =>
          rw [andThen_of_error (by exact hf), andThen_of_ok hs, andThen_of_error hf]
          rfl
      | ok b =>
          rw [andThen_of_ok (by exact hf), andThen_of_ok hs, andThen_of_ok hf]
          exact ext_of rfl rfl (List.append_assoc ..)

theorem widen_andThen {m : Nat} (s : Step n α) (h : n ≤ m) (f : α → (p : Parser) → p.size ≤ m → Step p.size β) :
    (s.widen h).andThen f = (s.andThen fun a p hp => f a p (Nat.le_trans hp h)).widen h := by
  cases hs : s.result with
  | error fault =>
      rw [andThen_of_error hs, andThen_of_error (by exact hs)]
      rfl
  | ok a =>
      rw [andThen_of_ok hs, andThen_of_ok (by exact hs)]
      rfl

end Step

namespace Parser

open Step

variable {p q : Parser} {left : Expr} {level tighter : Int} {k : Nat}

theorem done_andThen {α β : Type} (p : Parser) (a : α) (f : α → (q : Parser) → q.size ≤ p.size → Step q.size β) :
    (p.done a).andThen f = f a p (Nat.le_refl _) := by
  rw [andThen_of_ok (a := a) rfl]
  rfl

/-! ## One level behind another -/

theorem operators_of_le_precedence {op : Operator} {span : Span} (hl : p.lookahead? = some ⟨.operator op, span⟩)
    (h : level ≤ op.precedence) : p.operators left level =
      (p.bump.andThen fun _ q _ =>
        (q.expr op.rightLevel).andThen fun right r _ => r.operators (.binop op left right) level).widen
        p.ahead_le_size := by
  rw [Parser.operators]
  split
  · rename_i hl'
    rw [hl] at hl'
    cases hl'
    rw [if_pos h]
  · rename_i hl'
    exact (hl' op span hl).elim

/-- The loop over the operators at a level goes on where that at a tighter level stops. -/
theorem operators_of_le (p : Parser) (left : Expr) (h : level ≤ tighter) :
    p.operators left level = (p.operators left tighter).andThen fun e q _ => q.operators e level := by
  conv => rhs; rw [Parser.operators]
  split
  · rename_i op span hl
    have := ahead_lt_size hl
    split
    · rename_i ht
      rw [operators_of_le_precedence hl (Int.le_trans h ht), widen_andThen, andThen_assoc]
      congr 2
      funext _ q hq
      rw [andThen_assoc]
      congr 1
      funext right r hr
      exact operators_of_le r _ h
    · rw [done_andThen]
  · rw [done_andThen]
termination_by p.size

theorem expr_of_le (p : Parser) (h : level ≤ tighter) :
    p.expr level = (p.expr tighter).andThen fun e q _ => q.operators e level := by
  rw [Parser.expr, Parser.expr, andThen_assoc]
  congr 1
  funext left q _
  exact operators_of_le q left h

/-! ## Tokens on a way -/

theorem taken_append (p : Parser) (passed more : List Parser) : p.taken passed <+: p.taken (passed ++ more) := by
  induction passed generalizing p with
  | nil => exact List.nil_prefix
  | cons q passed ih => exact (List.prefix_append_right_inj _).2 (ih q)

theorem Supplies.unique {fault? fault?' : Option LexicalFault} {tokens tokens' : List Token}
    (h : p.Supplies source fault? tokens) (h' : p.Supplies source fault?' tokens') : tokens = tokens' := by
  cases h with
  | token ht =>
      cases h' with
      | token ht' => rw [← ht.tokens_eq, ← ht'.tokens_eq]
  | ended _ _ =>
      cases h' with
      | ended _ _ => rfl

theorem StandsAt.taken_cons {r : Parser} {passed : List Parser} (h : p.StandsAt source k)
    (hr : r.taken passed = ((lex source).1.drop (k + 1)).take passed.length) :
    p.taken (r :: passed) = ((lex source).1.drop k).take (passed.length + 1) := by
  rw [taken, hr, h.lookahead]
  by_cases hk : k < (lex source).1.length
  · rw [List.getElem?_eq_getElem hk, List.drop_eq_getElem_cons hk]
    rfl
  · rw [List.getElem?_eq_none (by omega), List.drop_of_length_le (by omega), List.drop_of_length_le (by omega)]
    simp

/-- A way from a place takes the tokens from there on, one with each move. -/
theorem StandsAt.taken_of_walk {passed : List Parser} {fault? : Option LexicalFault} (h : p.StandsAt source k)
    (hw : Walk p passed q fault?) : p.taken passed = ((lex source).1.drop k).take passed.length := by
  induction hw generalizing k with
  | stay => simp [taken]
  | move _ _ ih => exact h.taken_cons (ih h.bump.1)
  | fault _ => exact h.taken_cons (by simp [taken])

theorem ofSource_of_bump (h : (start source).bump.result = .ok ()) : ofSource source = .ok (start source).bump.parser := by
  rw [ofSource, h]
  rfl

/-- A parser that some calls lead to stands at a place. -/
theorem Reachable.exists_standsAt (h : Reachable source p) : ∃ k, p.StandsAt source k := by
  induction h with
  | opened h => exact ⟨0, (standsAt_of_ofSource h).1⟩
  | after call _ ih =>
      obtain ⟨k, hk⟩ := ih
      exact ⟨_, hk.reply call⟩
  | @passed p q call _ hq ih =>
      obtain ⟨k, hk⟩ := ih
      obtain ⟨i, hi, rfl⟩ := List.getElem_of_mem hq
      refine ⟨_, (hk.walk (reply_walk p call)).2 (i + 1) _ ?_⟩
      rw [List.getElem?_cons_succ, List.getElem?_eq_getElem hi]

/-! ## The contract of a level -/

/-- What a call that reads an expression at a level keeps to. -/
structure Reply.ReadsAt (source : List Char) (level : Int) (e : Expr) (r : Reply) : Prop where
  taken_ne_nil : r.taken ≠ []
  /-- The tokens that are taken stand in the source one behind the other, from the lookahead before the call to the one
  after it. -/
  stretch : ∃ earlier later, (lex source).1 = earlier ++ r.taken ++ later ∧
    r.before.lookahead? = r.taken.head? ∧ r.after.lookahead? = later.head?
  /-- They write the expression. -/
  written : e.Written (lexemes r.taken)
  /-- An operator behind the expression does not bind at the level, and there is none behind the body of a binding. -/
  operator_after : ∀ op span, r.after.lookahead? = some ⟨.operator op, span⟩ →
    (op.precedence : Int) < level ∧ e.endsInLet = false
  /-- The operator of an operation binds at the level. -/
  operator_of : ∀ op left right, e = .binop op left right → level ≤ op.precedence

theorem reply_expr_eq_ok {e : Expr} (h : (p.expr level).result = .ok e) :
    (p.reply (.expr level)).result = .ok (.expr e) := by
  simp only [reply, perform, Step.map, h]
  rfl

theorem exists_of_reply_expr {a : Answer} (h : (p.reply (.expr level)).result = .ok a) :
    ∃ e, (p.expr level).result = .ok e ∧ a = .expr e := by
  simp only [reply, perform, Step.map] at h
  cases he : (p.expr level).result with
  | error fault => rw [he] at h; cases h
  | ok e => rw [he] at h; cases h; exact ⟨e, rfl, rfl⟩

theorem StandsAt.readsAt {e : Expr} (h : p.StandsAt source k) (he : (p.expr level).result = .ok e) :
    (p.reply (.expr level)).ReadsAt source level e := by
  obtain ⟨used, rest, htokens, hq, hread⟩ := (expr_meets p level [] h).of_ok he
  have htaken : (p.reply (.expr level)).taken = ((lex source).1.drop k).take (p.expr level).passed.length :=
    h.taken_of_walk (reply_walk p (.expr level))
  have hrest : rest = (lex source).1.drop (k + (p.expr level).passed.length) :=
    hq.unique (h.reply (.expr level))
  have hused : (p.reply (.expr level)).taken = used := by
    have hall : (p.reply (.expr level)).taken ++ rest = used ++ rest := by
      rw [← htokens, htaken, hrest, ← List.drop_drop, List.take_append_drop]
    exact List.append_cancel_right hall
  have hne : used ≠ [] := by
    rintro rfl
    exact hread.written.ne_nil rfl
  rw [← hused] at hread hne htokens
  refine ⟨hne, ⟨(lex source).1.take k, rest, ?_, ?_, hq.lookahead⟩, hread.written, ?_, ?_⟩
  · rw [List.append_assoc, ← htokens, List.take_append_drop]
  · obtain ⟨token, tokens, hcons⟩ := List.exists_cons_of_ne_nil hne
    have hfirst : p.lookahead? = ((lex source).1.drop k).head? := Supplies.lookahead h
    rw [htokens, hcons] at hfirst
    rw [hcons]
    exact hfirst
  · intro op span hl
    obtain ⟨later, rfl⟩ := hq.exists_of_lookahead hl
    exact ⟨hread.stopsBelow, hread.precedes.2⟩
  · rintro op left right rfl
    exact hread.bindsAt

theorem exists_expr_of_le {e : Expr} (h : level ≤ tighter) (he : (p.expr level).result = .ok e) :
    ∃ e', (p.expr tighter).result = .ok e' ∧
      (p.reply (.expr tighter)).taken <+: (p.reply (.expr level)).taken := by
  cases ht : (p.expr tighter).result with
  | error fault =>
      rw [expr_of_le p h, andThen_of_error ht] at he
      cases he
  | ok e' =>
      have hpassed : ∃ more, (p.expr level).passed = (p.expr tighter).passed ++ more := by
        rw [expr_of_le p h, andThen_of_ok ht]
        exact ⟨_, rfl⟩
      obtain ⟨more, hmore⟩ := hpassed
      refine ⟨e', rfl, ?_⟩
      change p.taken (p.expr tighter).passed <+: p.taken (p.expr level).passed
      rw [hmore]
      exact taken_append p _ more

/-- An expression at a level takes a stretch of tokens, up to the first operator that does not bind at the level and that
nothing inside of the expression takes. At a tighter level it takes the first of these tokens. -/
theorem expr_contract (h : p.Reachable source) (level : Int) {a : Answer}
    (ha : (p.reply (.expr level)).result = .ok a) :
    (∃ e, a = .expr e ∧ (p.reply (.expr level)).ReadsAt source level e) ∧
    ∀ tighter, level ≤ tighter → ∃ b, (p.reply (.expr tighter)).result = .ok b ∧
      (p.reply (.expr tighter)).taken <+: (p.reply (.expr level)).taken := by
  obtain ⟨k, hk⟩ := h.exists_standsAt
  obtain ⟨e, he, rfl⟩ := exists_of_reply_expr ha
  refine ⟨⟨e, rfl, hk.readsAt he⟩, fun tighter hle => ?_⟩
  obtain ⟨e', he', htaken⟩ := exists_expr_of_le hle he
  exact ⟨.expr e', reply_expr_eq_ok he', htaken⟩

/-- Behind `-x*y` stands an operator that binds less tightly than a product. -/
theorem expr_contract_product : ∃ p : Parser, Reachable ['-', 'x', '*', 'y', '<', 'z'] p ∧
    (p.reply (.expr 2)).result = .ok (.expr (.binop .mul (.negate (.var "x")) (.var "y"))) ∧
    (∃ e, Answer.expr (.binop .mul (.negate (.var "x")) (.var "y")) = .expr e ∧
      (p.reply (.expr 2)).ReadsAt ['-', 'x', '*', 'y', '<', 'z'] 2 e) ∧
    ∀ tighter, 2 ≤ tighter → ∃ b, (p.reply (.expr tighter)).result = .ok b ∧
      (p.reply (.expr tighter)).taken <+: (p.reply (.expr 2)).taken := by
  have hp : Reachable ['-', 'x', '*', 'y', '<', 'z'] (start ['-', 'x', '*', 'y', '<', 'z']).bump.parser :=
    .opened (ofSource_of_bump (by decide +kernel))
  have he : ((start ['-', 'x', '*', 'y', '<', 'z']).bump.parser.expr 2).result =
      .ok (.binop .mul (.negate (.var "x")) (.var "y")) := by
    decide +kernel
  have ha := reply_expr_eq_ok he
  exact ⟨_, hp, ha, expr_contract hp 2 ha⟩

end Parser

end Abacus
