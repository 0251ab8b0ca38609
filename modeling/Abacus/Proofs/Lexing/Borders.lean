import Abacus.Expr.Shape
import Abacus.Proofs.Lexing.Classes
import Abacus.Segmentation

/-!
# Borders of lexemes

Behind the end, a blank or a closing parenthesis, no lexeme goes on. Names, keywords, signs and parentheses are spelled
by their own characters wherever such a border follows.
-/

namespace Abacus

open Text

/-- The text starts with nothing that could belong to a lexeme before it. -/
def Delimited (rest : List Char) : Prop := ∀ c ∈ rest.head?, isBlank c = true ∨ c = ')'

namespace Delimited

variable {rest : List Char}

theorem nil : Delimited [] := fun _ h => nomatch h

theorem of_isBlank {c : Char} (h : isBlank c = true) (rest : List Char) : Delimited (c :: rest) := by
  rintro d ⟨⟩
  exact .inl h

theorem blank (rest : List Char) : Delimited (' ' :: rest) := of_isBlank (by decide) rest

theorem closeParen (rest : List Char) : Delimited (')' :: rest) := by
  rintro c ⟨⟩
  exact .inr rfl

theorem stopsAt_continuesNumber (h : Delimited rest) : StopsAt continuesNumber rest := by
  intro c hc
  rcases h c hc with hb | rfl
  · have hd : c.isDigit = false := eq_false_of_excludes isBlank_eq_false_of_isDigit hb
    have hp : c ≠ '.' := by
      rintro rfl
      revert hb
      decide
    simp [continuesNumber, hd, hp]
  · decide

theorem stopsAt_isWordCharacter (h : Delimited rest) : StopsAt Scan.isWordCharacter rest := by
  intro c hc
  rcases h c hc with hb | rfl
  · exact Scan.isWordCharacter_eq_false_of_isBlank hb
  · exact Scan.isWordCharacter_eq_false_of_isSymbol (by decide)

theorem stopsAt_isCharacter (h : Delimited rest) : StopsAt Operator.isCharacter rest := by
  intro c hc
  rcases h c hc with hb | rfl
  · exact Operator.isCharacter_eq_false_of_isBlank hb
  · decide

end Delimited

theorem StopsAt.append {p : Char → Bool} {rest next : List Char} (h : StopsAt p rest) (hn : StopsAt p next) : StopsAt p (rest ++ next) := by
  cases rest with
  | nil => exact hn
  | cons c cs =>
      rintro d ⟨⟩
      exact h c rfl

theorem Spells.append {text rest next : List Char} {l : Lexeme} (h : Spells text rest l) (hn : Delimited next) :
    Spells text (rest ++ next) l := by
  cases h with
  | whole hne hd hs => exact .whole hne hd (hs.append hn.stopsAt_continuesNumber)
  | fraction hne hd hfne hf hs => exact .fraction hne hd hfne hf (hs.append hn.stopsAt_continuesNumber)
  | word hc hcs hs => exact .word hc hcs (hs.append hn.stopsAt_isWordCharacter)
  | equals hs => exact .equals (hs.append hn.stopsAt_isCharacter)
  | operator op hs => exact .operator op (hs.append hn.stopsAt_isCharacter)
  | paren hm => exact .paren hm

/-! ## Words and symbols -/

section Spelled

variable {rest : List Char}

theorem exists_cons_of_isName {name : String} (h : Expr.isName name = true) : ∃ c cs, name.toList = c :: cs ∧
    isLetter c = true ∧ (∀ d ∈ cs, Scan.isWordCharacter d = true) ∧ Lexeme.keywords.lookup name = none := by
  unfold Expr.isName at h
  split at h
  · cases h
  · rename_i c cs hname
    simp only [Bool.and_eq_true, List.all_eq_true, Option.isNone_iff_eq_none] at h
    exact ⟨c, cs, hname, h.1.1, h.1.2, h.2⟩

theorem spells_name {name : String} (h : Expr.isName name = true) (hs : StopsAt Scan.isWordCharacter rest) :
    Spells name.toList rest (.name name) := by
  obtain ⟨c, cs, hname, hc, hcs, hk⟩ := exists_cons_of_isName h
  have hword : Spells (c :: cs) rest (Lexeme.ofWord (String.ofList (c :: cs))) := .word hc hcs hs
  rw [← hname, String.ofList_toList, Lexeme.ofWord, hk] at hword
  exact hword

theorem spells_letWord (hs : StopsAt Scan.isWordCharacter rest) : Spells ['l', 'e', 't'] rest .letWord :=
  .word (by decide) (List.all_eq_true.1 rfl) hs

theorem spells_inWord (hs : StopsAt Scan.isWordCharacter rest) : Spells ['i', 'n'] rest .inWord :=
  .word (by decide) (List.all_eq_true.1 rfl) hs

theorem spells_minus (hs : StopsAt Operator.isCharacter rest) : Spells ['-'] rest (.operator .sub) :=
  .operator .sub hs

theorem spells_openParen (rest : List Char) : Spells ['('] rest .openParen := .paren (by simp [Lexeme.punctuation])

theorem spells_closeParen (rest : List Char) : Spells [')'] rest .closeParen := .paren (by simp [Lexeme.punctuation])

end Spelled

end Abacus
