import Abacus.Proofs.Lexing.Tokens

/-!
# Tokens further on

What a tokenizer yields depends on the text ahead of it alone: behind other characters it finds the same lexemes and the
same fault, further on by their number. A blank ends every lexeme, so two texts with blanks between them are tokenized
one after the other.
-/

namespace Abacus

open Text

/-! ## Places further on -/

def Span.shift (n : Nat) (s : Span) : Span := { s with start := s.start + n }

def Token.shift (n : Nat) (t : Token) : Token := { t with span := t.span.shift n }

/-- The same cause, and so the same message, further on. -/
def LexicalFault.shift (n : Nat) (f : LexicalFault) : LexicalFault := { f with span := f.span.shift n }

namespace Tokenizer

/-- Both tokenizers have the same text ahead, the second one further on. -/
structure Shifted (n : Nat) (t u : Tokenizer) : Prop where
  open_left : t.finished = false
  open_right : u.finished = false
  rest : u.cursor.rest = t.cursor.rest
  position : u.cursor.position = t.cursor.position + n
  pending : u.pending? = t.pending?.map (.shift n)

variable {n : Nat} {t u : Tokenizer}

theorem Shifted.rest_start (h : Shifted n t u) : u.start.rest = t.start.rest := by
  rw [Tokenizer.rest_start, Tokenizer.rest_start, h.rest]

theorem Shifted.position_start (h : Shifted n t u) : u.start.position = t.start.position + n := by
  rw [Tokenizer.position_start, Tokenizer.position_start, h.rest, h.position, Nat.add_right_comm]

theorem Shifted.skip (h : Shifted n t u) (k : Nat) :
    Shifted n { t with cursor := t.start.skip k } { u with cursor := u.start.skip k } where
  open_left := h.open_left
  open_right := h.open_right
  rest := by rw [Cursor.rest_skip, Cursor.rest_skip, h.rest_start]
  position := by rw [Cursor.skip, Cursor.skip, h.position_start, Nat.add_right_comm]
  pending := h.pending

theorem Shifted.drain {t u : Tokenizer} (h : Shifted n t u) :
    u.drain.1 = t.drain.1.map (.shift n) ∧ u.drain.2.pending? = t.drain.2.pending?.map (.shift n) := by
  have hrest := h.rest_start
  have hplace := h.position_start
  rcases next_cases h.open_left with ⟨hs, ht⟩ | ⟨c, cs, k, l, hs, hscan, ht⟩ | ⟨c, cs, k, cause, hs, hscan, ht⟩
  · rw [hs] at hrest
    rw [drain_of_next_eq_none ht, drain_of_next_eq_none (next_of_rest_nil h.open_right hrest)]
    exact ⟨rfl, h.pending⟩
  · have := rest_lt_of_next ht
    obtain ⟨htokens, hpending⟩ := (h.skip k).drain
    rw [hs] at hrest
    rw [drain_of_next_eq_some ht, drain_of_next_eq_some (next_of_scan_ok h.open_right hrest hscan), htokens, hplace]
    exact ⟨rfl, hpending⟩
  · rw [hs] at hrest
    rw [drain_of_next_eq_none ht, drain_of_next_eq_none (next_of_scan_error h.open_right hrest hscan), hplace]
    exact ⟨rfl, rfl⟩
termination_by t.cursor.rest.length

end Tokenizer

/-! ## Texts behind a blank -/

variable {a b w : List Char} {tokens : List Token}

theorem lex_append_blank (ha : tokenize a = .ok tokens) (hw : w ≠ []) (hb : ∀ c ∈ w, isBlank c = true) :
    (lex (a ++ w ++ b)).1 = tokens ++ (lex b).1.map (.shift (a.length + w.length)) ∧
      (lex (a ++ w ++ b)).2 = (lex b).2.map (.shift (a.length + w.length)) := by
  have hborder : Delimited (w ++ b) := by
    obtain ⟨c, w, rfl⟩ := List.exists_cons_of_ne_nil hw
    exact .of_isBlank (hb c List.mem_cons_self) (w ++ b)
  let t : Tokenizer := .ofSource (a ++ w ++ b)
  have hr : t.cursor.rest = a ++ (w ++ b) := List.append_assoc a w b
  have hfirst := Tokenizer.drain_of_segmented_append (t := t) (tokenize_eq_ok_iff_segmented.1 ha) hborder rfl rfl hr
  have hrest : (t.cursor.skip a.length).rest = w ++ b := by rw [Cursor.rest_skip, hr, List.drop_left]
  have hgap := Tokenizer.drain_skip_blanks (t := { t with cursor := t.cursor.skip a.length }) rfl hrest hb
  have hshift : Tokenizer.Shifted (a.length + w.length) (.ofSource b)
      { t with cursor := (t.cursor.skip a.length).skip w.length } := by
    refine ⟨rfl, rfl, ?_, ?_, rfl⟩
    · rw [Cursor.rest_skip, hrest, List.drop_left]
      rfl
    · simp [Cursor.skip, t, Tokenizer.ofSource]
  obtain ⟨htokens, hpending⟩ := hshift.drain
  rw [hgap] at htokens hpending
  exact ⟨(congrArg Prod.fst hfirst).trans (congrArg (tokens ++ ·) htokens),
    (congrArg (·.2.pending?) hfirst).trans hpending⟩

/-- A text that is tokenized, blanks and another text: the tokens of the second text follow those of the first, or its
fault does, further on and otherwise the same. -/
theorem tokenize_append_blank (ha : tokenize a = .ok tokens) (hw : w ≠ []) (hb : ∀ c ∈ w, isBlank c = true) :
    (∀ later, tokenize b = .ok later →
      tokenize (a ++ w ++ b) = .ok (tokens ++ later.map (.shift (a.length + w.length)))) ∧
    (∀ fault, tokenize b = .error fault → tokenize (a ++ w ++ b) = .error (fault.shift (a.length + w.length))) := by
  obtain ⟨htokens, hfault⟩ := lex_append_blank (b := b) ha hw hb
  refine ⟨fun later h => ?_, fun fault h => ?_⟩
  · rw [tokenize_eq_ok_iff] at h ⊢
    rw [h] at htokens hfault
    exact Prod.ext htokens hfault
  · rw [tokenize_eq_error_iff] at h ⊢
    rw [hfault, h]
    rfl

/-- Without the blank the two symbols would be one. -/
theorem tokenize_append_blank_less :
    tokenize ['x', '<'] = .ok [⟨.name "x", ⟨0, 1⟩⟩, ⟨.operator .lt, ⟨1, 1⟩⟩] ∧ (∀ c ∈ [' '], isBlank c = true) ∧
    tokenize ['x', '<', ' ', '=', 'y'] = .ok [⟨.name "x", ⟨0, 1⟩⟩, ⟨.operator .lt, ⟨1, 1⟩⟩, ⟨.equals, ⟨3, 1⟩⟩,
      ⟨.name "y", ⟨4, 1⟩⟩] ∧
    tokenize ['x', '<', ' ', '=', '2', '.'] = .error ⟨.endAfterPoint, ⟨4, 2⟩⟩ := by
  have ha : tokenize ['x', '<'] = .ok [⟨.name "x", ⟨0, 1⟩⟩, ⟨.operator .lt, ⟨1, 1⟩⟩] :=
    tokenize_eq_ok_iff.2 (by decide +kernel)
  have hok : tokenize ['=', 'y'] = .ok [⟨.equals, ⟨0, 1⟩⟩, ⟨.name "y", ⟨1, 1⟩⟩] :=
    tokenize_eq_ok_iff.2 (by decide +kernel)
  have herror : tokenize ['=', '2', '.'] = .error ⟨.endAfterPoint, ⟨1, 2⟩⟩ :=
    tokenize_eq_error_iff.2 (by decide +kernel)
  have hb : ∀ c ∈ [' '], isBlank c = true := List.all_eq_true.1 rfl
  exact ⟨ha, hb, (tokenize_append_blank ha (List.cons_ne_nil _ _) hb).1 _ hok,
    (tokenize_append_blank ha (List.cons_ne_nil _ _) hb).2 _ herror⟩

end Abacus
