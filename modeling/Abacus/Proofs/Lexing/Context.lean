import Abacus.Proofs.Lexing.Borders
import Abacus.Proofs.Lexing.Tokens

/-!
# Texts in front of other texts

A lexeme at the end of a text is the longest of its class there, so a text behind it can change it only by going on with
it. In front of a border nothing goes on: the lexemes of two texts are those of the first and then those of the second.
-/

namespace Abacus

open Text

variable {rest next : List Char}

namespace Segmented

variable {start : Nat} {cs : List Char} {tokens later : List Token}

theorem blanks_append {gap : List Char} (hb : ∀ c ∈ gap, isBlank c = true)
    (h : Segmented (start + gap.length) next tokens) : Segmented start (gap ++ next) tokens := by
  induction gap generalizing start with
  | nil => exact h
  | cons c gap ih =>
      have hplace : start + (c :: gap).length = start + 1 + gap.length := by simp [Nat.add_assoc, Nat.add_comm 1]
      rw [hplace] at h
      exact .blank_cons (hb c List.mem_cons_self) (ih (fun d hd => hb d (List.mem_cons_of_mem c hd)) h)

theorem append (h : Segmented start cs tokens) (hd : Delimited next)
    (hn : Segmented (start + cs.length) next later) : Segmented start (cs ++ next) (tokens ++ later) := by
  induction h with
  | blank hb => exact blanks_append hb hn
  | @token start gap text rest l tokens hb hs _ ih =>
      have hplace : start + (gap ++ text ++ rest).length = start + gap.length + text.length + rest.length := by
        simp [Nat.add_assoc]
      rw [hplace] at hn
      rw [List.append_assoc]
      exact .token hb (hs.append hd) (ih hn)

/-- The same lexemes stand wherever the text does. -/
theorem lexes (h : Segmented start cs tokens) : Lexes cs (lexemes tokens) := by
  induction h with
  | blank hb => exact fun start => ⟨[], .blank hb, rfl⟩
  | @token _ gap text _ _ _ hb hs _ ih =>
      intro start
      obtain ⟨tokens, ht, hw⟩ := ih (start + gap.length + text.length)
      exact ⟨_, .token hb hs ht, congrArg (_ :: ·) hw⟩

end Segmented

namespace Lexes

variable {cs ds : List Char} {v w : List Lexeme}

theorem append (h : Lexes cs v) (hd : Delimited next) (hn : Lexes next w) : Lexes (cs ++ next) (v ++ w) := by
  intro start
  obtain ⟨tokens, ht, rfl⟩ := h start
  obtain ⟨later, hl, rfl⟩ := hn (start + cs.length)
  exact ⟨tokens ++ later, ht.append hd hl, List.map_append⟩

/-! ## Constructs -/

theorem space (h : Lexes cs w) : Lexes (' ' :: cs) w := h.blank (by decide)

theorem operation (op : Operator) (h : Lexes cs v) (hr : Lexes ds w) :
    Lexes (cs ++ ' ' :: (op.symbol.toList ++ ' ' :: ds)) (v ++ .operator op :: w) := by
  have right := hr.space.spells (.operator op (Delimited.blank ds).stopsAt_isCharacter)
  exact h.append (.blank _) right.space

theorem paren (h : Lexes cs w) : Lexes ('(' :: (cs ++ [')'])) (.openParen :: (w ++ [.closeParen])) := by
  have close : Lexes [')'] [.closeParen] := nil.spells (spells_closeParen [])
  exact (h.append (.closeParen []) close).spells (spells_openParen _)

theorem call {name : String} (hn : Expr.isName name = true) (h : Lexes cs w) :
    Lexes (name.toList ++ '(' :: (cs ++ [')'])) (.name name :: .openParen :: (w ++ [.closeParen])) := by
  have hstop : StopsAt Scan.isWordCharacter ('(' :: (cs ++ [')'])) := by
    rintro c ⟨⟩
    exact Scan.isWordCharacter_eq_false_of_isSymbol (by decide)
  exact h.paren.spells (spells_name hn hstop)

theorem letIn {name : String} (hn : Expr.isName name = true) (hb : Lexes cs v) (h : Lexes ds w) :
    Lexes (['l', 'e', 't'] ++ ' ' :: (name.toList ++ ' ' :: (['='] ++ ' ' :: (cs ++ ' ' :: (['i', 'n'] ++ ' ' :: ds)))))
      (.letWord :: .name name :: .equals :: (v ++ .inWord :: w)) := by
  have hword (rest : List Char) : StopsAt Scan.isWordCharacter (' ' :: rest) :=
    (Delimited.blank rest).stopsAt_isWordCharacter
  have body := h.space.spells (spells_inWord (hword ds))
  have bound := hb.append (.blank _) body.space
  have equals := bound.space.spells (.equals (Delimited.blank _).stopsAt_isCharacter)
  have named := equals.space.spells (spells_name hn (hword _))
  exact named.space.spells (spells_letWord (hword _))

end Lexes

end Abacus
