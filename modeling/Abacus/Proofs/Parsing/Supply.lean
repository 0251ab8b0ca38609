import Abacus.Parser
import Abacus.Proofs.Lexing.Tokens

/-!
# The tokens ahead of a parser

A parser has its lookahead in front of what its tokenizer yields; without a lookahead, nothing is left.
-/

namespace Abacus

variable {source : List Char} {fault? : Option LexicalFault}

namespace Parser

/-- The tokens that a parser has ahead, the lookahead among them. -/
inductive Supplies (source : List Char) (fault? : Option LexicalFault) : Parser → List Token → Prop
  | token {t token tokens} : t.Yields source tokens fault? → Supplies source fault? ⟨t, some token⟩ (token :: tokens)
  | ended {t} : t.Yields source [] none → fault? = none → Supplies source fault? ⟨t, none⟩ []

theorem Supplies.lookahead {p : Parser} {tokens : List Token} (h : p.Supplies source fault? tokens) :
    p.lookahead? = tokens.head? := by
  cases h <;> rfl

theorem Supplies.exists_of_lookahead {p : Parser} {tokens : List Token} {token : Token}
    (h : p.Supplies source fault? tokens) (hl : p.lookahead? = some token) : ∃ rest, tokens = token :: rest := by
  cases h with
  | token _ => cases hl; exact ⟨_, rfl⟩
  | ended _ _ => cases hl

theorem Supplies.eq_nil_of_lookahead {p : Parser} {tokens : List Token} (h : p.Supplies source fault? tokens)
    (hl : p.lookahead? = none) : tokens = [] := by
  cases h with
  | token _ => cases hl
  | ended _ _ => rfl

theorem Supplies.endSpan {p : Parser} {tokens : List Token} (h : p.Supplies source fault? tokens) :
    p.endSpan = .atEnd source := by
  cases h with
  | token ht => rw [Parser.endSpan, ht.source_eq]
  | ended ht _ => rw [Parser.endSpan, ht.source_eq]

theorem Supplies.fault_eq {p : Parser} (h : p.Supplies source fault? []) : fault? = none := by
  cases h; assumption

theorem bump_of_next_eq_some {p : Parser} {t : Tokenizer} {token : Token} (h : p.tokenizer.next = (some token, t)) :
    p.bump.result = .ok () ∧ p.bump.parser = ⟨t, some token⟩ := by
  unfold bump
  split
  · rename_i h'
    rw [h] at h'
    cases h'
    exact ⟨rfl, rfl⟩
  · rename_i h'
    rw [h] at h'
    cases h'

theorem bump_of_next_eq_none {p : Parser} {t : Tokenizer} (h : p.tokenizer.next = (none, t)) :
    p.bump.result = t.popFault.1.elim (.ok ()) (fun fault => .error (.lexical fault)) ∧
      p.bump.parser = ⟨t.popFault.2, none⟩ := by
  unfold bump
  split
  · rename_i h'
    rw [h] at h'
    cases h'
  · rename_i h'
    rw [h] at h'
    cases h'
    split
    · rename_i hf
      exact ⟨by rw [hf]; rfl, rfl⟩
    · rename_i hf
      exact ⟨by rw [hf]; rfl, rfl⟩

/-- A bump brings the next token or the end, or it fails with the fault that stands there and leaves nothing. -/
theorem bump_cases {p : Parser} {tokens : List Token} (h : p.tokenizer.Yields source tokens fault?) :
    (p.bump.result = .ok () ∧ p.bump.parser.Supplies source fault? tokens ∧ (tokens = [] → fault? = none)) ∨
    (∃ fault, tokens = [] ∧ fault? = some fault ∧ p.bump.result = .error (.lexical fault) ∧
      p.bump.parser.Supplies source none []) := by
  cases tokens with
  | nil =>
      obtain ⟨u, hn, hp, hu⟩ := h.next_nil
      obtain ⟨hr, hq⟩ := bump_of_next_eq_none hn
      rw [hr, hq, hp]
      cases fault? with
      | none => exact .inl ⟨rfl, .ended hu rfl, fun _ => rfl⟩
      | some fault => exact .inr ⟨fault, rfl, rfl, rfl, .ended hu rfl⟩
  | cons token tokens =>
      obtain ⟨u, hn, hu⟩ := h.next_cons
      obtain ⟨hr, hq⟩ := bump_of_next_eq_some hn
      rw [hr, hq]
      exact .inl ⟨rfl, .token hu, fun h => by cases h⟩

end Parser

end Abacus
