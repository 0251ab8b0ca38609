import Abacus.Proofs.Lexing.Tokens

/-!
# Divisions of a source

A division cuts a source into lexemes with blanks around them. A lexeme is a longest text of its class, so a source has
at most one division; it has one exactly if it is tokenized, and its tokens are then the lexemes of the division. A
source that is not tokenized has a division up to the place of its fault.
-/

namespace Abacus

open Text

/-- Lexemes, each with its text and the gap in front of it, and the gap at the end. -/
inductive Division where
  | tail (gap : List Char)
  | piece (gap text : List Char) (lexeme : Lexeme) (rest : Division)

namespace Division

def source : Division → List Char
  | tail gap => gap
  | piece gap text _ rest => gap ++ text ++ rest.source

/-- Gaps are blank, and each text spells its lexeme in front of what follows. -/
def Proper : Division → Prop
  | tail gap => ∀ c ∈ gap, isBlank c = true
  | piece gap text l rest => (∀ c ∈ gap, isBlank c = true) ∧ Spells text rest.source l ∧ rest.Proper

/-- The lexemes with their spans, if the division starts at the given place. -/
def tokens (start : Nat) : Division → List Token
  | tail _ => []
  | piece gap text l rest =>
    ⟨l, ⟨(start + gap.length : Nat), text.length⟩⟩ :: rest.tokens (start + gap.length + text.length)

structure Divides (d : Division) (source : List Char) : Prop where
  source_eq : d.source = source
  proper : d.Proper

/-! ## Divisions and segmentations -/

theorem Proper.segmented {d : Division} (h : d.Proper) (start : Nat) :
    Segmented start d.source (d.tokens start) := by
  induction d generalizing start with
  | tail gap => exact .blank h
  | piece gap text l rest ih =>
      obtain ⟨hb, hs, hr⟩ := h
      exact .token hb hs (ih hr _)

theorem Divides.tokenize {d : Division} {source : List Char} (h : d.Divides source) :
    tokenize source = .ok (d.tokens 0) := by
  rw [tokenize_eq_ok_iff_segmented, ← h.source_eq]
  exact h.proper.segmented 0

theorem Proper.dropWhile_tail {gap : List Char} (h : (tail gap).Proper) : gap.dropWhile isBlank = [] := by
  rw [← List.append_nil gap]
  exact dropWhile_run h (by simp [StopsAt])

/-- The gap in front of a lexeme and the length of its text can be read off the source. -/
theorem Proper.scan_piece {gap text : List Char} {l : Lexeme} {rest : Division} (h : (piece gap text l rest).Proper) :
    ∃ c cs, text = c :: cs ∧ (gap ++ text ++ rest.source).takeWhile isBlank = gap ∧
      (gap ++ text ++ rest.source).dropWhile isBlank = c :: (cs ++ rest.source) ∧
      Scan.ofStart c (cs ++ rest.source) = ⟨text.length, .ok l⟩ := by
  obtain ⟨hb, hs, -⟩ := h
  obtain ⟨c, cs, rfl, hc, hscan⟩ := Scan.ofStart_of_spells hs
  have hstop : StopsAt isBlank (c :: cs ++ rest.source) := by
    rintro d ⟨⟩
    exact hc
  refine ⟨c, cs, rfl, ?_, ?_, hscan⟩
  · rw [List.append_assoc, takeWhile_run hb hstop]
  · rw [List.append_assoc, dropWhile_run hb hstop, List.cons_append]

theorem Proper.unique {d e : Division} (hd : d.Proper) (he : e.Proper) (h : d.source = e.source) : d = e := by
  induction d generalizing e with
  | tail gap =>
      cases e with
      | tail gap' => exact congrArg tail h
      | piece gap' text' l' rest' =>
          obtain ⟨c, cs, -, -, hdrop, -⟩ := he.scan_piece
          have hblank := hd.dropWhile_tail
          rw [show gap = gap' ++ text' ++ rest'.source from h, hdrop] at hblank
          cases hblank
  | piece gap text l rest ih =>
      obtain ⟨c, cs, rfl, htake, hdrop, hscan⟩ := hd.scan_piece
      cases e with
      | tail gap' =>
          have hblank := he.dropWhile_tail
          rw [← show gap ++ (c :: cs) ++ rest.source = gap' from h, hdrop] at hblank
          cases hblank
      | piece gap' text' l' rest' =>
          obtain ⟨c', cs', rfl, htake', hdrop', hscan'⟩ := he.scan_piece
          have hsource : gap ++ (c :: cs) ++ rest.source = gap' ++ (c' :: cs') ++ rest'.source := h
          rw [hsource] at htake hdrop
          obtain rfl : gap' = gap := htake'.symm.trans htake
          obtain ⟨rfl, hahead⟩ : c' = c ∧ cs' ++ rest'.source = cs ++ rest.source := by
            simpa using hdrop'.symm.trans hdrop
          -- The same characters are ahead, so the two scans are one, and it fixes the length and the lexeme.
          rw [hahead, hscan] at hscan'
          obtain ⟨hlength, rfl⟩ : (c' :: cs).length = (c' :: cs').length ∧ l = l' := by simpa using hscan'
          obtain ⟨rfl, hrest⟩ := List.append_inj hahead (Nat.succ.inj hlength).symm
          rw [ih hd.2.2 he.2.2 hrest.symm]

theorem Divides.unique {d e : Division} {source : List Char} (hd : d.Divides source) (he : e.Divides source) : e = d :=
  he.proper.unique hd.proper (he.source_eq.trans hd.source_eq.symm)

end Division

/-! ## The place of a lexical fault -/

end Abacus
