import Abacus.Proofs.Grammar.Grouping
import Abacus.Proofs.Parsing.Supply

/-!
# Outcomes of a step

A step of the parser either reads some of the tokens ahead, with a condition on what it read and on what is left, or it
fails. The recognizer, at the place where the step starts, says where it may fail and with what.
-/

namespace Abacus

variable {source : List Char} {fault? : Option LexicalFault} {s t : Recognizer}

/-! ## Failures -/

/-- The cause is about the lexeme, or about the end of the source, and it asks for nothing but kinds of lexemes. -/
inductive GrammarCause.Concerns : GrammarCause → Option Lexeme → Prop
  | endForOperand : Concerns .endForOperand none
  | endFor {wanted} : wanted ∈ Token.Kind.all → Concerns (.endFor wanted) none
  | otherThan {wanted} (found : Lexeme) : wanted ∈ Token.Kind.all →
      Concerns (.otherThan wanted found.kind) (some found)
  | afterExpression (found : Lexeme) : Concerns (.afterExpression found.kind) (some found)
  | operatorForOperand (op : Operator) : Concerns (.operatorForOperand op) (some (.operator op))
  | noOperand (found : Lexeme) : Concerns (.noOperand found.kind) (some found)

/-- The faults with which the tokens may be refused, by a reader that starts where the recognizer is: at the first token
that the recognizer does not take, or at the end if more was to come. A lexical fault behind the tokens comes first
where it follows a token that was to start an operand. -/
inductive Refuses (source : List Char) (fault? : Option LexicalFault) (s : Recognizer) (tokens : List Token) :
    Fault → Prop
  | token {used token rest t cause} : tokens = used ++ token :: rest → s.run (lexemes used) = some t →
      t.next token.lexeme = none → (t.place = .operand → rest = [] → fault? = none) →
      cause.Concerns (some token.lexeme) → Refuses source fault? s tokens (.grammar ⟨cause, token.span⟩)
  | ended {t cause} : s.run (lexemes tokens) = some t → ¬ t.Accepting → fault? = none → cause.Concerns none →
      Refuses source fault? s tokens (.grammar ⟨cause, .atEnd source⟩)
  | lexical {fault t} : fault? = some fault → s.run (lexemes tokens) = some t →
      Refuses source fault? s tokens (.lexical fault)
  | operand {fault used token t} : fault? = some fault → tokens = used ++ [token] → s.run (lexemes used) = some t →
      t.place = .operand → t.next token.lexeme = none → Refuses source fault? s tokens (.lexical fault)

theorem Refuses.prepend {before tokens : List Token} {fault : Fault} (hr : s.run (lexemes before) = some t)
    (h : Refuses source fault? t tokens fault) : Refuses source fault? s (before ++ tokens) fault := by
  have run {w : List Token} {u : Recognizer} (hw : t.run (lexemes w) = some u) :
      s.run (lexemes (before ++ w)) = some u := by
    rw [lexemes, List.map_append, Recognizer.run_append_of_run hr]
    exact hw
  cases h with
  | token ht hu hn hf hc => exact .token (by rw [ht, List.append_assoc]) (run hu) hn hf hc
  | ended hu ha hf hc => exact .ended (run hu) ha hf hc
  | lexical hf hu => exact .lexical hf (run hu)
  | operand hf ht hu hp hn => exact .operand hf (by rw [ht, List.append_assoc]) (run hu) hp hn

theorem Refuses.head {token : Token} {rest : List Token} {cause : GrammarCause} (hn : s.next token.lexeme = none)
    (hf : s.place = .operand → rest = [] → fault? = none) (hc : cause.Concerns (some token.lexeme)) :
    Refuses source fault? s (token :: rest) (.grammar ⟨cause, token.span⟩) :=
  .token (List.nil_append _).symm (rfl : s.run (lexemes []) = some s) hn hf hc

/-! ## Steps -/

namespace Step

variable {n : Nat} {α β : Type}

/-- The step reads some of the tokens, meets the condition and leaves the others, or it refuses the tokens. -/
def Meets (source : List Char) (fault? : Option LexicalFault) (s : Recognizer) (tokens : List Token)
    (post : α → List Token → List Token → Prop) (step : Step n α) : Prop :=
  match step.result with
  | .ok a => ∃ used rest, tokens = used ++ rest ∧ step.parser.Supplies source fault? rest ∧ post a used rest
  | .error fault => Refuses source fault? s tokens fault

variable {tokens before : List Token} {post : α → List Token → List Token → Prop}
  {post' : β → List Token → List Token → Prop} {step : Step n α}

theorem meets_of_ok {a : α} {used rest : List Token} (h : step.result = .ok a) (ht : tokens = used ++ rest)
    (hs : step.parser.Supplies source fault? rest) (hp : post a used rest) :
    step.Meets source fault? s tokens post := by
  rw [Meets, h]
  exact ⟨used, rest, ht, hs, hp⟩

theorem meets_of_error {fault : Fault} (h : step.result = .error fault) (hr : Refuses source fault? s tokens fault) :
    step.Meets source fault? s tokens post := by
  rwa [Meets, h]

theorem Meets.of_ok {a : α} (h : step.Meets source fault? s tokens post) (hr : step.result = .ok a) :
    ∃ used rest, tokens = used ++ rest ∧ step.parser.Supplies source fault? rest ∧ post a used rest := by
  rwa [Meets, hr] at h

theorem Meets.of_error {fault : Fault} (h : step.Meets source fault? s tokens post)
    (hr : step.result = .error fault) : Refuses source fault? s tokens fault := by
  rwa [Meets, hr] at h

theorem Meets.widen {m : Nat} (h : step.Meets source fault? s tokens post) (hm : n ≤ m) :
    (step.widen hm).Meets source fault? s tokens post := h

theorem Meets.behind (h : step.Meets source fault? s tokens post) (passed : List Parser) :
    (step.behind passed).Meets source fault? s tokens post := h

theorem Meets.imp {post₂ : α → List Token → List Token → Prop} (h : step.Meets source fault? s tokens post)
    (hp : ∀ a used rest, post a used rest → post₂ a used rest) : step.Meets source fault? s tokens post₂ := by
  cases hs : step.result with
  | error fault => exact meets_of_error hs (h.of_error hs)
  | ok a =>
      obtain ⟨used, rest, ht, hq, ha⟩ := h.of_ok hs
      exact meets_of_ok hs ht hq (hp a used rest ha)

/-- A step behind tokens that were read before. -/
theorem Meets.map (hr : s.run (lexemes before) = some t) (h : step.Meets source fault? t tokens post) (f : α → β)
    (hp : ∀ a used rest, post a used rest → post' (f a) (before ++ used) rest) :
    (step.map f).Meets source fault? s (before ++ tokens) post' := by
  cases hs : step.result with
  | error fault =>
      exact meets_of_error (by rw [Step.map, hs]; rfl) (.prepend hr (h.of_error hs))
  | ok a =>
      obtain ⟨used, rest, ht, hq, ha⟩ := h.of_ok hs
      exact meets_of_ok (by rw [Step.map, hs]; rfl) (by rw [ht, List.append_assoc]) hq (hp a used rest ha)

theorem Meets.andThen {next : α → (p : Parser) → p.size ≤ n → Step p.size β}
    (hr : s.run (lexemes before) = some t) (h : step.Meets source fault? t tokens post)
    (hn : ∀ a q hq used rest, q.Supplies source fault? rest → post a used rest →
      (next a q hq).Meets source fault? s (before ++ used ++ rest) post') :
    (step.andThen next).Meets source fault? s (before ++ tokens) post' := by
  cases hs : step.result with
  | error fault =>
      rw [andThen_of_error hs]
      exact meets_of_error rfl (.prepend hr (h.of_error hs))
  | ok a =>
      obtain ⟨used, rest, rfl, hq, ha⟩ := h.of_ok hs
      rw [andThen_of_ok hs, ← List.append_assoc]
      exact ((hn a _ _ used rest hq ha).behind _).widen _

end Step

/-! ## Single tokens -/

namespace Parser

open Step

variable {α : Type} {p : Parser} {token : Token} {tokens used rest : List Token}
  {post : α → List Token → List Token → Prop}

theorem done_meets {a : α} (hp : p.Supplies source fault? rest) (ha : post a used rest) :
    (p.done a).Meets source fault? s (used ++ rest) post :=
  meets_of_ok rfl rfl hp ha

theorem bump_meets {u : Recognizer} (hp : p.Supplies source fault? (token :: rest))
    (hn : s.next token.lexeme = some u) :
    p.bump.Meets source fault? s (token :: rest) fun _ used _ => used = [token] := by
  cases hp with
  | token ht =>
      rcases bump_cases (p := ⟨_, some token⟩) ht with ⟨hr, hq, -⟩ | ⟨fault, rfl, rfl, hr, -⟩
      · exact meets_of_ok hr rfl hq rfl
      · exact meets_of_error hr (.lexical rfl ((Recognizer.run_singleton s _).trans hn))

/-- The lookahead cannot start an operand, but what stands behind it is read first. -/
theorem bump_andThen_fail_meets {cause : GrammarCause} (hp : p.Supplies source fault? (token :: rest))
    (hs : s.place = .operand) (hn : s.next token.lexeme = none) (hc : cause.Concerns (some token.lexeme)) :
    (p.bump.andThen fun _ q _ => q.fail (α := α) cause token.span).Meets source fault? s (token :: rest) post := by
  cases hp with
  | token ht =>
      rcases bump_cases (p := ⟨_, some token⟩) ht with ⟨hr, -, hf⟩ | ⟨fault, rfl, rfl, hr, -⟩
      · rw [andThen_of_ok hr]
        exact meets_of_error rfl (.head hn (fun _ => hf) hc)
      · rw [andThen_of_error hr]
        exact meets_of_error rfl (.operand rfl (List.nil_append _).symm (rfl : s.run (lexemes []) = some s) hs hn)

/-- A lexeme of one kind is expected in a place where the recognizer takes no other of those that may follow. -/
theorem expect_meets {kind : Token.Kind} (hall : kind ∈ Token.Kind.all) (hp : p.Supplies source fault? tokens)
    (hs : s.place ≠ .operand) (ha : ¬ s.Accepting) (hk : ∀ l : Lexeme, l.kind = kind → ∃ u, s.next l = some u)
    (ho : ∀ token ∈ tokens.head?, token.kind ≠ kind → s.next token.lexeme = none) :
    (p.expect kind).Meets source fault? s tokens fun token used _ => used = [token] ∧ token.kind = kind := by
  unfold expect
  cases tokens with
  | nil =>
      rw [hp.lookahead, hp.endSpan]
      exact meets_of_error rfl (.ended rfl ha hp.fault_eq (.endFor hall))
  | cons token rest =>
      rw [hp.lookahead]
      by_cases hkind : token.kind = kind
      · simp only [List.head?_cons, if_pos hkind]
        obtain ⟨u, hu⟩ := hk _ hkind
        exact (bump_meets hp hu).map (rfl : s.run (lexemes []) = some s) _ fun _ _ _ hused => ⟨hused, hkind⟩
      · simp only [List.head?_cons, if_neg hkind]
        exact meets_of_error rfl (.head (ho token rfl hkind) (fun h => absurd h hs) (.otherThan token.lexeme hall))

end Parser

end Abacus
