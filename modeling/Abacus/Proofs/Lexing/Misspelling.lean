import Abacus.Proofs.Lexing.Tokens

/-!
# Texts that are refused

A scan that fails refuses a text: digits up to a point without a digit behind it, a run of operator characters that is no
symbol, or a single character. Like a lexeme, a text that is refused has no blanks, so what a tokenizer points to can
always be seen.
-/

namespace Abacus

open Text

/-- The text is refused for the cause, when the given text follows it. -/
inductive Misspells : List Char → List Char → LexicalCause → Prop
  | endAfterPoint {ds} : (∀ c ∈ ds, c.isDigit = true) → Misspells (ds ++ ['.']) [] .endAfterPoint
  | illegalAfterPoint {ds d rest} : (∀ c ∈ ds, c.isDigit = true) → d.isDigit = false →
      Misspells (ds ++ ['.']) (d :: rest) (.illegalAfterPoint d)
  | unknownOperator {run rest} : (∀ c ∈ run, Operator.isCharacter c = true) → StopsAt Operator.isCharacter rest →
      run ≠ ['='] → Operator.ofSymbol? (String.ofList run) = none → Misspells run rest (.unknownOperator run)
  | illegalStart {c rest} : isBlank c = false → Misspells [c] rest (.illegalStart c)

namespace Scan

variable {c : Char} {cs : List Char} {n : Nat} {cause : LexicalCause}

/-- The scanned text is the start of `cs`, and it is refused for the cause in front of what follows. -/
def Refuses (cs : List Char) (n : Nat) (cause : LexicalCause) : Prop :=
  ∃ text rest, cs = text ++ rest ∧ text.length = n ∧ Misspells text rest cause

theorem refuses_of_ofNumber (h : ofNumber cs = ⟨n, .error cause⟩) : Refuses cs n cause := by
  have hcs : cs = cs.takeWhile Char.isDigit ++ cs.dropWhile Char.isDigit := List.takeWhile_append_dropWhile.symm
  have hd : ∀ c ∈ cs.takeWhile Char.isDigit, c.isDigit = true := List.all_eq_true.1 List.all_takeWhile
  unfold ofNumber at h
  split at h
  · rename_i hrest
    cases h
    exact ⟨cs.takeWhile Char.isDigit ++ ['.'], [], by rw [← hrest, List.append_nil]; exact hcs, by simp,
      .endAfterPoint hd⟩
  · rename_i d rest hrest
    split at h
    · cases h
    · rename_i hdigit
      cases h
      refine ⟨cs.takeWhile Char.isDigit ++ ['.'], d :: rest, ?_, by simp, .illegalAfterPoint hd (by simpa using hdigit)⟩
      rw [List.append_assoc, List.singleton_append, ← hrest]
      exact hcs
  · cases h

theorem refuses_of_ofOperator (h : ofOperator cs = ⟨n, .error cause⟩) : Refuses cs n cause := by
  have hcs : cs = cs.takeWhile Operator.isCharacter ++ cs.dropWhile Operator.isCharacter :=
    List.takeWhile_append_dropWhile.symm
  have hrun : ∀ c ∈ cs.takeWhile Operator.isCharacter, Operator.isCharacter c = true :=
    List.all_eq_true.1 List.all_takeWhile
  simp only [ofOperator, Scan.mk.injEq] at h
  obtain ⟨hn, hl⟩ := h
  split at hl
  · cases hl
  · rename_i hne
    cases hop : Operator.ofSymbol? (String.ofList (cs.takeWhile Operator.isCharacter)) with
    | some op =>
        rw [hop] at hl
        cases hl
    | none =>
        rw [hop] at hl
        cases hl
        exact ⟨_, _, hcs, hn, .unknownOperator hrun (stopsAt_dropWhile _ cs) hne hop⟩

theorem refuses_of_ofStart (hc : isBlank c = false) (h : ofStart c cs = ⟨n, .error cause⟩) :
    Refuses (c :: cs) n cause := by
  unfold ofStart at h
  split at h
  · exact refuses_of_ofNumber h
  · split at h
    · cases h
    · split at h
      · exact refuses_of_ofOperator h
      · cases hl : Lexeme.punctuation.lookup c with
        | some l =>
            rw [hl] at h
            cases h
        | none =>
            rw [hl] at h
            cases h
            exact ⟨[c], cs, rfl, rfl, .illegalStart hc⟩

end Scan

/-! ## Characters of lexemes and of texts that are refused -/

variable {text rest : List Char}

theorem isBlank_eq_false_of_isWordCharacter {c : Char} (h : Scan.isWordCharacter c = true) : isBlank c = false :=
  eq_false_of_excludes Scan.isWordCharacter_eq_false_of_isBlank h

theorem isBlank_eq_false_of_isCharacter {c : Char} (h : Operator.isCharacter c = true) : isBlank c = false :=
  isBlank_eq_false_of_isSymbol (Operator.isSymbol_of_isCharacter h)

theorem isBlank_point : isBlank '.' = false := by decide

theorem Spells.isBlank_eq_false {l : Lexeme} (h : Spells text rest l) : ∀ c ∈ text, isBlank c = false := by
  intro c hc
  cases h with
  | whole _ hd _ => exact isBlank_eq_false_of_isDigit (hd c hc)
  | fraction _ hd _ hf _ =>
      rcases List.mem_append.1 hc with hc | hc
      · exact isBlank_eq_false_of_isDigit (hd c hc)
      · rcases List.mem_cons.1 hc with rfl | hc
        · exact isBlank_point
        · exact isBlank_eq_false_of_isDigit (hf c hc)
  | word hletter hw _ =>
      rcases List.mem_cons.1 hc with rfl | hc
      · exact isBlank_eq_false_of_isLetter hletter
      · exact isBlank_eq_false_of_isWordCharacter (hw c hc)
  | equals _ =>
      obtain rfl := List.mem_singleton.1 hc
      decide
  | operator op _ => exact isBlank_eq_false_of_isCharacter (Operator.isCharacter_of_mem_symbol hc)
  | paren hm =>
      obtain rfl := List.mem_singleton.1 hc
      exact isBlank_eq_false_of_isSymbol (Lexeme.isSymbol_of_mem_punctuation hm).1

theorem Spells.ne_nil {l : Lexeme} (h : Spells text rest l) : text ≠ [] := by
  obtain ⟨c, cs, rfl, -⟩ := Scan.ofStart_of_spells h
  exact List.cons_ne_nil c cs

theorem Misspells.isBlank_eq_false {cause : LexicalCause} (h : Misspells text rest cause) :
    ∀ c ∈ text, isBlank c = false := by
  intro c hc
  cases h with
  | endAfterPoint hd | illegalAfterPoint hd _ =>
      rcases List.mem_append.1 hc with hc | hc
      · exact isBlank_eq_false_of_isDigit (hd c hc)
      · obtain rfl := List.mem_singleton.1 hc
        exact isBlank_point
  | unknownOperator hrun _ _ _ => exact isBlank_eq_false_of_isCharacter (hrun c hc)
  | illegalStart hblank =>
      obtain rfl := List.mem_singleton.1 hc
      exact hblank

/-! ## What can be seen of a source -/

/-- The span covers some text of the source, and none of it is blank. -/
inductive Span.Visible : List Char → Span → Prop
  | intro {before text after} : text ≠ [] → (∀ c ∈ text, isBlank c = false) →
      Visible (before ++ text ++ after) ⟨before.length, text.length⟩

theorem Segmented.visible {start : Nat} {cs : List Char} {tokens : List Token} (h : Segmented start cs tokens)
    {before : List Char} (hb : before.length = start) (after : List Char) :
    ∀ token ∈ tokens, token.span.Visible (before ++ cs ++ after) := by
  induction h generalizing before with
  | blank => simp
  | @token start gap text rest l tokens _ hs _ ih =>
      subst hb
      have hsource : before ++ (gap ++ text ++ rest) ++ after = before ++ gap ++ text ++ (rest ++ after) := by simp
      have hrest : before ++ (gap ++ text ++ rest) ++ after = before ++ gap ++ text ++ rest ++ after := by simp
      intro token ht
      rcases List.mem_cons.1 ht with rfl | ht
      · have hv : Span.Visible (before ++ gap ++ text ++ (rest ++ after)) ⟨(before ++ gap).length, text.length⟩ :=
          .intro hs.ne_nil hs.isBlank_eq_false
        rw [hsource]
        rwa [List.length_append] at hv
      · rw [hrest]
        exact ih (by simp [Nat.add_assoc]) token ht

/-- What stands where a source could not be read any further. -/
theorem exists_misspells_of_lex {source : List Char} {fault : LexicalFault} (h : (lex source).2 = some fault) :
    ∃ before text after, source = before ++ text ++ after ∧ text ≠ [] ∧ Misspells text after fault.cause ∧
      fault.span = ⟨before.length, text.length⟩ := by
  obtain ⟨before, after, hsource, -, ⟨-, hnone⟩ | ⟨c, cs, n, cause, rfl, hc, hscan, hfault⟩⟩ :=
    exists_segmented_of_lex source
  · cases h.symm.trans hnone
  · cases h.symm.trans hfault
    obtain ⟨text, rest, hcs, rfl, hm⟩ := Scan.refuses_of_ofStart hc hscan
    have hpos : 0 < text.length := by
      have := Scan.ofStart_length_pos c cs
      rwa [hscan] at this
    refine ⟨before, text, rest, ?_, List.ne_nil_of_length_pos hpos, hm, rfl⟩
    rw [hsource, hcs, List.append_assoc]

theorem visible_of_mem_lex {source : List Char} {token : Token} (h : token ∈ (lex source).1) :
    token.span.Visible source := by
  obtain ⟨before, after, hsource, hs, -⟩ := exists_segmented_of_lex source
  have hv := hs.visible (rfl : [].length = 0) after token h
  rwa [List.nil_append, ← hsource] at hv

theorem visible_of_fault {source : List Char} {fault : LexicalFault} (h : (lex source).2 = some fault) :
    fault.span.Visible source := by
  obtain ⟨before, text, after, rfl, hne, hm, hspan⟩ := exists_misspells_of_lex h
  rw [hspan]
  exact .intro hne hm.isBlank_eq_false

end Abacus
