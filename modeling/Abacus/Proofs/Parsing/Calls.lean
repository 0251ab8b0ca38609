import Abacus.Proofs.Lexing.Calls
import Abacus.Proofs.Parsing.Supply
import Abacus.Proofs.Parsing.Walks

/-!
# Parsers under any calls

A parser stands at a token of its source, or behind the last one. A bump takes it to the next place; the one that takes
it behind the last token raises the lexical fault of the source. Every call is a walk of such bumps, so wherever a call
ends, also by a failure in the middle of an expression, the next call starts at a place.
-/

namespace Abacus.Parser

variable {source : List Char} {p q : Parser} {k : Nat} {calls : List Call}

/-! ## Places -/

/-- The fault that is still to be raised at the given token: behind the last token there is none. -/
def faultAhead (source : List Char) (k : Nat) : Option LexicalFault :=
  if k < (lex source).1.length then (lex source).2 else none

/-- The parser has the tokens of the source from the given one on ahead. -/
def StandsAt (source : List Char) (k : Nat) (p : Parser) : Prop :=
  p.Supplies source (faultAhead source k) ((lex source).1.drop k)

theorem StandsAt.lookahead (h : p.StandsAt source k) : p.lookahead? = (lex source).1[k]? := by
  rw [Supplies.lookahead h, List.head?_drop]

theorem StandsAt.lookahead_eq_none_iff (h : p.StandsAt source k) :
    p.lookahead? = none ↔ (lex source).1.length ≤ k := by
  rw [h.lookahead, List.getElem?_eq_none_iff]

theorem StandsAt.yields (h : p.StandsAt source k) :
    p.tokenizer.Yields source ((lex source).1.drop (k + 1)) (faultAhead source k) := by
  have hdrop : (lex source).1.drop (k + 1) = ((lex source).1.drop k).tail := by rw [List.tail_drop]
  rw [hdrop]
  rw [StandsAt] at h
  generalize (lex source).1.drop k = tokens at h ⊢
  generalize faultAhead source k = fault? at h ⊢
  cases h with
  | token ht => exact ht
  | ended ht hf => rwa [hf]

/-- A bump goes to the next place, and it fails only where that is behind the last token and a fault stands there. -/
theorem StandsAt.bump (h : p.StandsAt source k) : p.bump.parser.StandsAt source (k + 1) ∧
    p.bump.result =
      if k + 1 = (lex source).1.length then (lex source).2.elim (.ok ()) fun fault => .error (.lexical fault)
      else .ok () := by
  rcases bump_cases h.yields with ⟨hr, hq, hf⟩ | ⟨fault, ht, hf, hr, hq⟩
  · rw [List.drop_eq_nil_iff] at hf
    by_cases hk : (lex source).1.length ≤ k + 1
    · have hnone : faultAhead source (k + 1) = none := if_neg (by omega)
      rw [hf hk] at hq
      refine ⟨by rwa [StandsAt, hnone], ?_⟩
      split
      · have hsome : faultAhead source k = (lex source).2 := if_pos (by omega)
        rw [hr, ← hsome, hf hk]
        rfl
      · exact hr
    · have hsame : faultAhead source (k + 1) = faultAhead source k := by
        rw [faultAhead, faultAhead, if_pos (by omega), if_pos (by omega)]
      exact ⟨by rwa [StandsAt, hsame], by rw [hr, if_neg (by omega)]⟩
  · rw [List.drop_eq_nil_iff] at ht
    obtain ⟨hk, hl⟩ : k < (lex source).1.length ∧ (lex source).2 = some fault := by
      simpa [faultAhead] using hf
    have hnone : faultAhead source (k + 1) = none := if_neg (by omega)
    refine ⟨?_, by rw [hr, if_pos (by omega), hl]; rfl⟩
    rwa [StandsAt, hnone, List.drop_eq_nil_of_le ht]

theorem StandsAt.lexical?_bump (h : p.StandsAt source k) :
    Fault.lexical? p.bump.result = if k + 1 = (lex source).1.length then (lex source).2 else none := by
  rw [h.bump.2]
  split
  · cases (lex source).2 <;> rfl
  · rfl

theorem standsAt_of_ofSource (h : ofSource source = .ok p) : p.StandsAt source 0 ∧ p = (start source).bump.parser := by
  rcases bump_cases (p := start source) (Tokenizer.yields_ofSource source) with ⟨hr, hp, hf⟩ | ⟨fault, -, -, hr, -⟩
  · rw [ofSource, hr] at h
    cases h
    refine ⟨?_, rfl⟩
    have hfault : faultAhead source 0 = (lex source).2 := by
      cases ht : (lex source).1 with
      | nil => simp [faultAhead, ht, hf ht]
      | cons token tokens => simp [faultAhead, ht]
    rwa [StandsAt, hfault]
  · rw [ofSource, hr] at h
    cases h

/-! ## Walks from a place -/

theorem StandsAt.walk {passed : List Parser} {fault? : Option LexicalFault} (h : p.StandsAt source k)
    (hw : Walk p passed q fault?) : q.StandsAt source (k + passed.length) ∧
      ∀ i (r : Parser), (p :: passed)[i]? = some r → r.StandsAt source (k + i) := by
  induction hw generalizing k with
  | stay p =>
      refine ⟨h, fun i r hr => ?_⟩
      obtain ⟨rfl, rfl⟩ : i = 0 ∧ p = r := by
        cases i with
        | zero => exact ⟨rfl, by simpa using hr⟩
        | succ i => simp at hr
      exact h
  | @move p passed q _ _ _ ih =>
      obtain ⟨hq, hall⟩ := ih h.bump.1
      rw [List.length_cons]
      refine ⟨by rwa [Nat.add_assoc, Nat.add_comm 1] at hq, fun i r hr => ?_⟩
      cases i with
      | zero => cases hr; exact h
      | succ i =>
          have := hall i r hr
          rwa [Nat.add_assoc, Nat.add_comm 1] at this
  | fault _ =>
      refine ⟨h.bump.1, fun i r hr => ?_⟩
      match i, hr with
      | 0, hr => cases hr; exact h
      | 1, hr => cases hr; exact h.bump.1

/-- A fault is met by the walk that goes behind the last token, and no farther. -/
theorem StandsAt.fault_of_walk {passed : List Parser} {fault? : Option LexicalFault} (h : p.StandsAt source k)
    (hw : Walk p passed q fault?) :
    (fault? = if k < (lex source).1.length ∧ (lex source).1.length ≤ k + passed.length then (lex source).2 else none) ∧
      (fault? ≠ none → k + passed.length = (lex source).1.length) := by
  induction hw generalizing k with
  | stay p =>
      refine ⟨(if_neg fun hk => ?_).symm, fun hne => absurd rfl hne⟩
      rw [List.length_nil] at hk
      omega
  | @move p passed q fault? hr _ ih =>
      obtain ⟨hf, hl⟩ := ih h.bump.1
      rw [List.length_cons]
      refine ⟨?_, fun hne => by have := hl hne; omega⟩
      rw [hf]
      have hnone := h.lexical?_bump
      rw [hr] at hnone
      split at hnone
      · -- This bump went behind the last token and succeeded, so the source has no fault.
        simp [← hnone, Fault.lexical?]
      · have hiff : (k + 1 < (lex source).1.length ∧ (lex source).1.length ≤ k + 1 + passed.length) ↔
            k < (lex source).1.length ∧ (lex source).1.length ≤ k + (passed.length + 1) := by omega
        simp only [hiff]
  | @fault p fault hr =>
      have hsome := h.lexical?_bump
      rw [hr] at hsome
      split at hsome
      · rename_i hk
        exact ⟨by rw [if_pos ⟨by omega, Nat.le_of_eq hk.symm⟩, ← hsome]; rfl, fun _ => hk⟩
      · cases hsome

/-! ## One call -/

theorem expect_of_ended (hl : p.lookahead? = none) (kind : Token.Kind) :
    (p.expect kind).result = .error (.grammar ⟨.endFor kind, p.endSpan⟩) := by
  unfold expect
  rw [hl]
  rfl

theorem primary_of_ended (hl : p.lookahead? = none) :
    p.primary.result = .error (.grammar ⟨.endForOperand, p.endSpan⟩) := by
  rw [primary]
  split
  · rfl
  · rename_i hl'
    rw [hl] at hl'
    cases hl'

theorem expr_of_ended (hl : p.lookahead? = none) (level : Int) :
    (p.expr level).result = .error (.grammar ⟨.endForOperand, p.endSpan⟩) := by
  rw [expr, Step.andThen_of_error (primary_of_ended hl)]

theorem letIn_of_ended (hl : p.lookahead? = none) :
    p.letIn.result = .error (.grammar ⟨.endFor .name, p.endSpan⟩) := by
  have hname : p.expectName.result = .error (.grammar ⟨.endFor .name, p.endSpan⟩) := by
    rw [expectName, Step.map, expect_of_ended hl]
    rfl
  rw [letIn, Step.andThen_of_error hname]

theorem parse_of_ended (hl : p.lookahead? = none) :
    p.parse.result = .error (.grammar ⟨.endForOperand, p.endSpan⟩) := by
  rw [parse, Step.andThen_of_error (expr_of_ended hl 0)]

/-- Without a lookahead every call fails with the end of the source, but for a bump. -/
theorem StandsAt.perform_of_ended (h : p.StandsAt source k) (hl : p.lookahead? = none) (call : Call) {fault : Fault}
    (hf : (p.perform call).result = .error fault) : ∃ cause, fault = .grammar ⟨cause, .atEnd source⟩ := by
  rw [← Supplies.endSpan h]
  have map_result {n : Nat} {α : Type} {step : Step n α} {f : α → Answer} {cause : GrammarCause}
      (hs : step.result = .error (.grammar ⟨cause, p.endSpan⟩)) (hm : (step.map f).result = .error fault) :
      ∃ cause, fault = .grammar ⟨cause, p.endSpan⟩ := by
    rw [Step.map, hs] at hm
    exact ⟨cause, (Except.error.inj hm).symm⟩
  cases call with
  | bump =>
      have hend := h.lookahead_eq_none_iff.1 hl
      have hr := h.bump.2
      rw [if_neg (by omega)] at hr
      simp only [perform, Step.widen, Step.map, hr] at hf
      cases hf
  | expect kind => exact map_result (expect_of_ended hl kind) hf
  | primary => exact map_result (primary_of_ended hl) hf
  | expr level => exact map_result (expr_of_ended hl level) hf
  | letIn => exact map_result (letIn_of_ended hl) hf
  | parse => exact map_result (parse_of_ended hl) hf

theorem reply_expect_of_ne {kind : Token.Kind} (h : p.lookahead?.map (·.kind) ≠ some kind) :
    (p.reply (.expect kind)).passed = [] ∧ (p.reply (.expect kind)).after = p ∧
      ∃ fault, (p.reply (.expect kind)).result = .error (.grammar fault) := by
  have hexpect : ∃ cause span, p.expect kind = p.fail cause span := by
    unfold expect
    split
    · exact ⟨_, _, rfl⟩
    · rename_i token hl
      rw [hl] at h
      rw [if_neg fun hk => h (congrArg some hk)]
      exact ⟨_, _, rfl⟩
  obtain ⟨cause, span, he⟩ := hexpect
  rw [reply, perform, he]
  exact ⟨rfl, rfl, _, rfl⟩

theorem position_of_bump {token : Token} (h : p.bump.parser.lookahead? = some token) :
    (p.bump.parser.tokenizer.cursor.position : Int) = token.span.stop := by
  cases hn : p.tokenizer.next with
  | mk token? t =>
      cases token? with
      | some token' =>
          rw [(bump_of_next_eq_some hn).2] at h ⊢
          cases h
          exact Tokenizer.position_of_next hn
      | none =>
          rw [(bump_of_next_eq_none hn).2] at h
          cases h

theorem reply_walk (p : Parser) (call : Call) :
    Walk p (p.reply call).passed (p.reply call).after (Fault.lexical? (p.reply call).result) := perform_walks p call

theorem StandsAt.reply (h : p.StandsAt source k) (call : Call) :
    (p.reply call).after.StandsAt source (k + (p.reply call).passed.length) :=
  (h.walk (reply_walk p call)).1

/-! ## Sequences of calls -/

theorem StandsAt.exists_of_mem_replies {r : Reply} (h : p.StandsAt source k) (hr : r ∈ p.replies calls) :
    ∃ (q : Parser) (m : Nat) (call : Call), k ≤ m ∧ q.StandsAt source m ∧ r = q.reply call := by
  induction calls generalizing p k with
  | nil => cases hr
  | cons call calls ih =>
      rcases List.mem_cons.1 hr with rfl | hr
      · exact ⟨p, k, call, Nat.le_refl _, h, rfl⟩
      · obtain ⟨q, m, call', hm, hq, rfl⟩ := ih (h.reply call) hr
        exact ⟨q, m, call', by omega, hq, rfl⟩

/-- Each parser on the way of the calls stands one token behind the one before it. -/
theorem StandsAt.of_getElem? (h : p.StandsAt source k) {i : Nat}
    (hq : (p :: (p.replies calls).flatMap (·.passed))[i]? = some q) : q.StandsAt source (k + i) := by
  induction calls generalizing p k i with
  | nil => exact (h.walk (.stay p)).2 i q hq
  | cons call calls ih =>
      obtain ⟨hafter, hpassed⟩ := h.walk (reply_walk p call)
      rw [replies, List.flatMap_cons, ← List.cons_append] at hq
      by_cases hi : i ≤ (p.reply call).passed.length
      · rw [List.getElem?_append_left (Nat.lt_succ_of_le hi)] at hq
        exact hpassed i q hq
      · obtain ⟨j, rfl⟩ : ∃ j, i = (p.reply call).passed.length + 1 + j :=
          ⟨i - (p.reply call).passed.length - 1, by omega⟩
        rw [← List.length_cons (a := p), List.getElem?_append_right (Nat.le_add_right ..), Nat.add_sub_cancel_left] at hq
        have := ih (i := j + 1) hafter hq
        rwa [Nat.add_assoc, Nat.add_comm j 1, ← Nat.add_assoc _ 1 j] at this

theorem exists_of_mem_passed (hq : q ∈ (p.replies calls).flatMap (·.passed)) : ∃ u : Parser, q = u.bump.parser := by
  induction calls generalizing p with
  | nil => cases hq
  | cons call calls ih =>
      rw [replies, List.flatMap_cons, List.mem_append] at hq
      rcases hq with hq | hq
      · exact (reply_walk p call).exists_of_mem hq
      · exact ih hq

/-- A call raises the lexical fault of the source if it comes to the end. -/
theorem StandsAt.reply_eq_lexical_iff (h : p.StandsAt source k) {call : Call} {fault : LexicalFault} :
    (p.reply call).result = .error (.lexical fault) ↔
      tokenize source = .error fault ∧ p.lookahead? ≠ none ∧ (p.reply call).after.lookahead? = none := by
  rw [← Fault.lexical?_eq_some_iff, (h.fault_of_walk (reply_walk p call)).1, tokenize_eq_error_iff,
    (h.reply call).lookahead_eq_none_iff, ne_eq, h.lookahead_eq_none_iff, Nat.not_le]
  constructor
  · intro hs
    split at hs
    · rename_i hk
      exact ⟨hs, hk⟩
    · cases hs
  · rintro ⟨hs, hk⟩
    rw [if_pos hk, hs]

theorem StandsAt.passed_of_lexical (h : p.StandsAt source k) {call : Call} {fault : LexicalFault}
    (hr : (p.reply call).result = .error (.lexical fault)) :
    ∃ earlier, (p.reply call).passed = earlier ++ [(p.reply call).after] ∧ ∀ q ∈ earlier, q.lookahead? ≠ none := by
  have hw := reply_walk p call
  rw [hr] at hw
  obtain ⟨earlier, he⟩ := hw.exists_of_fault
  refine ⟨earlier, he, fun q hq hl => ?_⟩
  have hlast := (h.fault_of_walk hw).2 (by simp [Fault.lexical?])
  obtain ⟨i, hi, rfl⟩ := List.getElem_of_mem hq
  have hstands := (h.walk hw).2 (i + 1) earlier[i] (by
    rw [List.getElem?_cons_succ, he, List.getElem?_append_left hi, List.getElem?_eq_getElem hi])
  have := hstands.lookahead_eq_none_iff.1 hl
  rw [he, List.length_append, List.length_singleton] at hlast
  omega

theorem StandsAt.pairwise_ended (h : p.StandsAt source k) (calls : List Call) :
    (p.replies calls).Pairwise fun r s => r.after.lookahead? = none →
      ∀ fault, s.result = .error fault → ∃ cause, fault = .grammar ⟨cause, .atEnd source⟩ := by
  induction calls generalizing p k with
  | nil => exact .nil
  | cons call calls ih =>
      refine .cons (fun s hs hl fault hf => ?_) (ih (h.reply call))
      obtain ⟨q, m, call', hm, hq, rfl⟩ := (h.reply call).exists_of_mem_replies hs
      have hend := (h.reply call).lookahead_eq_none_iff.1 hl
      exact hq.perform_of_ended (hq.lookahead_eq_none_iff.2 (by omega)) call' hf

/-! ## The law of a sequence of calls -/

/-- What the replies to a sequence of calls keep to, for a parser of the source. -/
structure Orderly (source : List Char) (p : Parser) (replies : List Reply) : Prop where
  /-- A call moves the lookahead by bumps alone, and a lexical fault comes from the last of them. -/
  walks : ∀ r ∈ replies, Walk r.before r.passed r.after (Fault.lexical? r.result)
  /-- The lookahead goes through the tokens of the source one after the other, and then there is none. -/
  lookaheads : ∀ (i : Nat) (q : Parser), (p :: replies.flatMap (·.passed))[i]? = some q → q.lookahead? = (lex source).1[i]?
  /-- Nothing is read behind the lookahead. -/
  place : ∀ q ∈ p :: replies.flatMap (·.passed), ∀ token, q.lookahead? = some token →
    (q.tokenizer.cursor.position : Int) = token.span.stop
  /-- A token that is refused stays. -/
  refused : ∀ r ∈ replies, ∀ kind, r.call = .expect kind → r.before.lookahead?.map (·.kind) ≠ some kind →
    r.passed = [] ∧ r.after = r.before ∧ ∃ fault, r.result = .error (.grammar fault)
  /-- The lexical fault of the source is raised by the call that comes to the end. -/
  lexical : ∀ r ∈ replies, ∀ fault, r.result = .error (.lexical fault) ↔
    tokenize source = .error fault ∧ r.before.lookahead? ≠ none ∧ r.after.lookahead? = none
  /-- It is raised by the very move to the end. -/
  lexical_last : ∀ r ∈ replies, ∀ fault, r.result = .error (.lexical fault) →
    ∃ earlier, r.passed = earlier ++ [r.after] ∧ ∀ q ∈ earlier, q.lookahead? ≠ none
  /-- Behind a lexical fault every failure is the end of the source. -/
  afterwards : replies.Pairwise fun r s => (∃ fault, r.result = .error (.lexical fault)) →
    ∀ fault, s.result = .error fault → ∃ cause, fault = .grammar ⟨cause, .atEnd source⟩

/-- Whatever is asked of a parser and in whatever order, its lookahead goes through the tokens of the source, and their
lexical fault is raised once, where they end. -/
theorem orderly_of_ofSource (h : ofSource source = .ok p) (calls : List Call) :
    Orderly source p (p.replies calls) := by
  obtain ⟨hp, hstart⟩ := standsAt_of_ofSource h
  constructor
  case walks =>
    intro r hr
    obtain ⟨q, m, call, -, -, rfl⟩ := hp.exists_of_mem_replies hr
    exact reply_walk q call
  case lookaheads =>
    intro i q hq
    rw [(hp.of_getElem? hq).lookahead, Nat.zero_add]
  case place =>
    intro q hq token hl
    rcases List.mem_cons.1 hq with rfl | hq
    · rw [hstart] at hl ⊢
      exact position_of_bump hl
    · obtain ⟨u, rfl⟩ := exists_of_mem_passed hq
      exact position_of_bump hl
  case refused =>
    intro r hr kind hc hk
    obtain ⟨q, m, call, -, -, rfl⟩ := hp.exists_of_mem_replies hr
    cases hc
    exact reply_expect_of_ne hk
  case lexical =>
    intro r hr fault
    obtain ⟨q, m, call, -, hq, rfl⟩ := hp.exists_of_mem_replies hr
    exact hq.reply_eq_lexical_iff
  case lexical_last =>
    intro r hr fault hf
    obtain ⟨q, m, call, -, hq, rfl⟩ := hp.exists_of_mem_replies hr
    exact hq.passed_of_lexical hf
  case afterwards =>
    refine (hp.pairwise_ended calls).imp_of_mem fun {r s} hr _ hrs hf => ?_
    obtain ⟨fault, hf⟩ := hf
    obtain ⟨q, m, call, -, hq, rfl⟩ := hp.exists_of_mem_replies hr
    exact hrs (hq.reply_eq_lexical_iff.1 hf).2.2

theorem orderly_of_ofSource_illegal_end : ∃ p, ofSource ['x', '$'] = .ok p ∧
    Orderly ['x', '$'] p (p.replies [.expect .number, .expr 0, .letIn, .bump]) :=
  have h : ofSource ['x', '$'] = .ok (start ['x', '$']).bump.parser := rfl
  ⟨_, h, orderly_of_ofSource h _⟩

end Abacus.Parser
