import Abacus.Expr.Echo
import Abacus.Expr.Yield
import Abacus.Proofs.Lexing.Context
import Abacus.Proofs.Numeral.Positional

/-!
# The lexemes of a source text

The source text of an expression is read as the yield of the expression, with a minus for every signed number. The texts
of its parts cannot run into each other: each is followed by the end, a blank or a closing parenthesis.
-/

namespace Abacus

open Text

/-! ## The texts of the parts -/

namespace Expr

variable {op : Operator} {l r a b : Expr} {name text : String}

theorem source?_binop (h : (binop op l r).source? = some text) : ∃ s t, l.source? = some s ∧ r.source? = some t ∧
    text.toList = s.toList ++ ' ' :: (op.symbol.toList ++ ' ' :: t.toList) := by
  simp only [source?, Option.bind_eq_bind, Option.bind_eq_some_iff, Option.pure_def, Option.some.injEq] at h
  obtain ⟨s, hs, t, ht, rfl⟩ := h
  exact ⟨s, t, hs, ht, by simp⟩

theorem source?_call (h : (call name a).source? = some text) : ∃ s, a.source? = some s ∧
    text.toList = name.toList ++ '(' :: (s.toList ++ [')']) := by
  simp only [source?, Option.bind_eq_bind, Option.bind_eq_some_iff, Option.pure_def, Option.some.injEq] at h
  obtain ⟨s, hs, rfl⟩ := h
  exact ⟨s, hs, by simp⟩

theorem source?_paren (h : (paren a).source? = some text) : ∃ s, a.source? = some s ∧
    text.toList = '(' :: (s.toList ++ [')']) := by
  simp only [source?, Option.bind_eq_bind, Option.bind_eq_some_iff, Option.pure_def, Option.some.injEq] at h
  obtain ⟨s, hs, rfl⟩ := h
  exact ⟨s, hs, by simp⟩

theorem source?_negate (h : (negate a).source? = some text) : ∃ s, a.source? = some s ∧
    text.toList = if s.toList.head? = some '-' then '-' :: ' ' :: s.toList else '-' :: s.toList := by
  obtain ⟨s, hs, rfl⟩ := Option.map_eq_some_iff.1 h
  refine ⟨s, hs, ?_⟩
  unfold negated
  split <;> simp

theorem source?_letIn (h : (letIn name b a).source? = some text) : ∃ s t, b.source? = some s ∧ a.source? = some t ∧
    text.toList = ['l', 'e', 't'] ++ ' ' :: (name.toList ++ ' ' :: (['='] ++ ' ' :: (s.toList ++
      ' ' :: (['i', 'n'] ++ ' ' :: t.toList)))) := by
  simp only [source?, Option.bind_eq_bind, Option.bind_eq_some_iff, Option.pure_def, Option.some.injEq] at h
  obtain ⟨s, hs, t, ht, rfl⟩ := h
  exact ⟨s, t, hs, ht, by simp⟩

end Expr

/-! ## The first character -/

/-- A minus sign in front of the text is no part of a longer symbol, unless the text starts with another. -/
def StartsOperand (cs : List Char) : Prop := ∃ c ∈ cs.head?, c = '-' ∨ Operator.isCharacter c = false

theorem StartsOperand.append {cs : List Char} (h : StartsOperand cs) (rest : List Char) :
    StartsOperand (cs ++ rest) := by
  obtain ⟨c, hc, hop⟩ := h
  obtain ⟨cs, rfl⟩ := List.head?_eq_some_iff.1 hc
  exact ⟨c, rfl, hop⟩

theorem StartsOperand.stopsAt_isCharacter {cs : List Char} (h : StartsOperand cs) (hm : cs.head? ≠ some '-') :
    StopsAt Operator.isCharacter cs := by
  obtain ⟨c, hc, hop⟩ := h
  intro d hd
  obtain rfl : c = d := Option.some.inj (hc.symm.trans hd)
  rcases hop with rfl | hop
  · exact absurd hc hm
  · exact hop

theorem Decimal.exists_digit_positional (d : Decimal) : ∃ c cs, d.positional = c :: cs ∧ c.isDigit = true := by
  obtain ⟨c, cs, hc⟩ := List.exists_cons_of_ne_nil d.positionalDigits_ne_nil.1
  refine ⟨c, cs ++ '.' :: d.positionalDigits.2, by rw [positional, hc]; rfl, ?_⟩
  exact isDigit_of_mem_positionalDigits (d := d) (List.mem_append_left _ (by rw [hc]; exact List.mem_cons_self))

theorem startsOperand_name {name : String} (h : Expr.isName name = true) : StartsOperand name.toList := by
  obtain ⟨c, cs, hname, hc, -, -⟩ := exists_cons_of_isName h
  exact ⟨c, by rw [hname]; rfl, .inr (Operator.isCharacter_eq_false_of_isLetter hc)⟩

namespace Expr

theorem startsOperand_source {e : Expr} (hn : e.named = true) (hl : e.allLiterals (!·.isNaN) = true) {text : String}
    (hs : e.source? = some text) : StartsOperand text.toList := by
  induction e generalizing text with
  | blank => cases hs
  | literal x =>
      cases hs
      obtain ⟨d, hd, -⟩ := Binary64.exists_plain (x := x) (by simpa [allLiterals] using hl)
      rw [hd]
      cases x.isNegative with
      | true => exact ⟨'-', rfl, .inl rfl⟩
      | false =>
          obtain ⟨c, cs, hc, hdigit⟩ := d.exists_digit_positional
          exact ⟨c, by rw [hc]; rfl, .inr (Operator.isCharacter_eq_false_of_isDigit hdigit)⟩
  | var name =>
      cases hs
      exact startsOperand_name hn
  | binop op l r ihl _ =>
      simp only [named, allLiterals, Bool.and_eq_true] at hn hl
      obtain ⟨s, t, hs, -, htext⟩ := source?_binop hs
      rw [htext]
      exact (ihl hn.1 hl.1 hs).append _
  | call name a _ =>
      simp only [named, Bool.and_eq_true] at hn
      obtain ⟨s, -, htext⟩ := source?_call hs
      rw [htext]
      exact (startsOperand_name hn.1).append _
  | paren a _ =>
      obtain ⟨s, -, htext⟩ := source?_paren hs
      rw [htext]
      exact ⟨'(', rfl, .inr (by decide)⟩
  | negate a _ =>
      obtain ⟨s, -, htext⟩ := source?_negate hs
      rw [htext]
      split <;> exact ⟨'-', rfl, .inl rfl⟩
  | letIn name b a _ _ =>
      obtain ⟨s, t, -, -, htext⟩ := source?_letIn hs
      rw [htext]
      exact ⟨'l', rfl, .inr (by decide)⟩

/-! ## The lexemes -/

theorem lexes_literal {x : Binary64} (hx : x.isNaN = false) :
    Lexes x.plain.toList (literal x).unfoldSigns.yield := by
  obtain ⟨d, htext, hd⟩ := Binary64.exists_plain hx
  have hnumber : Lexes d.positional [.number x.abs] := by
    have h := Lexes.nil.spells (d.spells_positional Delimited.nil.stopsAt_continuesNumber)
    rwa [hd, List.append_nil] at h
  rw [htext]
  cases hs : x.isNegative with
  | true =>
      have hneg : x.neg = x.abs := by rw [Binary64.neg, hs]; rfl
      have hstop : StopsAt Operator.isCharacter d.positional := by
        obtain ⟨c, cs, hc, hdigit⟩ := d.exists_digit_positional
        rw [hc]
        rintro _ ⟨⟩
        exact Operator.isCharacter_eq_false_of_isDigit hdigit
      have whole := hnumber.spells (spells_minus hstop)
      simpa [Binary64.signText, unfoldSigns, hs, yield, hneg] using whole
  | false =>
      have habs : x.abs = x := by
        cases x with
        | nan => rfl
        | infinite | finite => cases hs; rfl
      rw [habs] at hnumber
      simpa [Binary64.signText, unfoldSigns, hs, yield] using hnumber

/-- The source text of an expression is made of the lexemes of its yield, where each signed number counts as a minus and
its opposite. -/
theorem lexes_source {e : Expr} (hn : e.named = true) (hl : e.allLiterals (!·.isNaN) = true) {text : String}
    (hs : e.source? = some text) : Lexes text.toList e.unfoldSigns.yield := by
  induction e generalizing text with
  | blank => cases hs
  | literal x =>
      cases hs
      exact lexes_literal (by simpa [allLiterals] using hl)
  | var name =>
      cases hs
      have whole := Lexes.nil.spells (spells_name hn Delimited.nil.stopsAt_isWordCharacter)
      rwa [List.append_nil] at whole
  | binop op l r ihl ihr =>
      simp only [named, allLiterals, Bool.and_eq_true] at hn hl
      obtain ⟨s, t, hs, ht, htext⟩ := source?_binop hs
      rw [htext]
      exact (ihl hn.1 hl.1 hs).operation op (ihr hn.2 hl.2 ht)
  | call name a ih =>
      simp only [named, Bool.and_eq_true] at hn
      obtain ⟨s, hs, htext⟩ := source?_call hs
      rw [htext]
      exact (ih hn.2 hl hs).call hn.1
  | paren a ih =>
      obtain ⟨s, hs, htext⟩ := source?_paren hs
      rw [htext]
      exact (ih hn hl hs).paren
  | negate a ih =>
      obtain ⟨s, hs, htext⟩ := source?_negate hs
      have inner := ih hn hl hs
      rw [htext]
      split
      · exact inner.space.spells (spells_minus (Delimited.blank _).stopsAt_isCharacter)
      · rename_i hm
        exact inner.spells (spells_minus ((startsOperand_source (e := a) hn hl hs).stopsAt_isCharacter hm))
  | letIn name b a ihb iha =>
      simp only [named, allLiterals, Bool.and_eq_true] at hn hl
      obtain ⟨s, t, hs, ht, htext⟩ := source?_letIn hs
      rw [htext]
      exact Lexes.letIn hn.1.1 (ihb hn.1.2 hl.1 hs) (iha hn.2 hl.2 ht)

end Expr

end Abacus
