import Abacus.Proofs.Diagnostic.Lines
import Abacus.Proofs.Diagnostic.Messages

/-!
# Underlines

A diagnostic is three lines of text: its message, a line of the source and a mark below it. The mark stands below the
text that is blamed. The end of a source is marked behind its last line, or one column further on if the source ends in
a line break.
-/

namespace Abacus

open Source

namespace Excerpt

/-- A caret, or carets at both ends and tildes between. -/
inductive IsMark : List Char → Prop
  | caret : IsMark ['^']
  | carets (n : Nat) : IsMark ('^' :: List.replicate n '~' ++ ['^'])

/-- The excerpt is two lines of text: a whole line of the source, and a mark behind tabs and spaces. -/
structure Shows (source : List Char) (e : Excerpt) : Prop where
  lines : e.text.toList.splitOn '\n' = [e.line, e.margin ++ e.mark]
  isLine : ∃ start, IsLine source start e.line
  margin : ∀ c ∈ e.margin, c = '\t' ∨ c = ' '
  mark : IsMark e.mark

/-- The mark stands below the text of the span, and the margin has its tabs where the line has them. -/
structure Underlines (source : List Char) (span : Span) (e : Excerpt) : Prop extends Shows source e where
  place : ∃ start, IsLine source start e.line ∧ span.start = start + e.margin.length
  tabs : ∀ i < e.margin.length, e.margin[i]? = some '\t' ↔ e.line[i]? = some '\t'
  within : e.margin.length + e.mark.length ≤ e.line.length
  marked : (e.line.drop e.margin.length).take e.mark.length = span.text source

/-! ## The lines of an excerpt -/

theorem isMark_markOf (n : Nat) : IsMark (markOf n) := by
  unfold markOf
  split
  · exact .caret
  · exact .carets _

theorem IsMark.newline_not_mem {mark : List Char} (h : IsMark mark) : '\n' ∉ mark := by
  cases h <;> simp

theorem mem_blankOut {cs : List Char} {c : Char} (h : c ∈ blankOut cs) : c = '\t' ∨ c = ' ' := by
  obtain ⟨d, -, rfl⟩ := List.mem_map.1 h
  split
  · exact .inl rfl
  · exact .inr rfl

theorem getElem?_blankOut_eq_tab_iff (cs : List Char) (i : Nat) :
    (blankOut cs)[i]? = some '\t' ↔ cs[i]? = some '\t' := by
  rw [blankOut, List.getElem?_map]
  cases cs[i]? with
  | none => simp
  | some c => by_cases hc : c = '\t' <;> simp [hc]

theorem splitOn_text {e : Excerpt} (hline : '\n' ∉ e.line) (hmargin : ∀ c ∈ e.margin, c = '\t' ∨ c = ' ')
    (hmark : IsMark e.mark) : e.text.toList.splitOn '\n' = [e.line, e.margin ++ e.mark] := by
  have hbelow : '\n' ∉ e.margin ++ e.mark := by
    rw [List.mem_append]
    rintro (h | h)
    · rcases hmargin _ h with h | h <;> cases h
    · exact hmark.newline_not_mem h
  have htext : e.text.toList = e.line ++ '\n' :: (e.margin ++ e.mark) := by
    simp [text]
  rw [htext, List.splitOn_append_cons_self_of_not_mem hline, List.splitOn_eq_singleton hbelow]

theorem shows_mk {source line : List Char} {start : Nat} (h : IsLine source start line) (cs : List Char) (n : Nat) :
    Shows source ⟨line, blankOut cs, markOf n⟩ where
  lines := splitOn_text h.newline_not_mem (fun _ => mem_blankOut) (isMark_markOf n)
  isLine := ⟨start, h⟩
  margin _ := mem_blankOut
  mark := isMark_markOf n

theorem shows_ofSpan_atEnd (source : List Char) : (ofSpan source (.atEnd source)).Shows source := by
  have hn : '\n' ∉ ([] : List Char) := List.not_mem_nil
  rcases List.eq_nil_or_concat source with rfl | ⟨before, c, rfl⟩
  · exact shows_mk (isLine_around [] [] hn) [] 0
  · rw [List.concat_eq_append, ofSpan_atEnd]
    have h := isLine_around before [c] hn
    rw [List.append_nil, List.append_nil] at h
    exact shows_mk h (lastLine before ++ [c]) 0

/-- The margin at the end of a source leaves room for its last character, also if that is the line break. -/
theorem length_margin_atEnd (source : List Char) : (ofSpan source (.atEnd source)).margin.length =
    (ofSpan source (.atEnd source)).line.length + if source.getLast? = some '\n' then 1 else 0 := by
  rcases List.eq_nil_or_concat source with rfl | ⟨before, c, rfl⟩
  · rfl
  · rw [List.concat_eq_append, ofSpan_atEnd, List.getLast?_concat]
    by_cases hc : c = '\n' <;> simp [blankOut, firstLine, hc]

theorem underlines_ofSpan {source : List Char} {span : Span} (h : span.Visible source) :
    (ofSpan source span).Underlines source span := by
  cases h with
  | @intro before text after hne hblank =>
      have hn : '\n' ∉ text := fun hn => by cases hblank _ hn
      have hline := isLine_around before after hn
      have hpos : 0 < text.length := List.length_pos_iff.2 hne
      have hmargin : (blankOut (lastLine before)).length = (lastLine before).length := List.length_map ..
      have hle := length_lastLine_le before
      rw [ofSpan_append hne hn]
      refine ⟨shows_mk hline _ _, ⟨_, hline, ?_⟩, fun i hi => ?_, ?_, ?_⟩
      · simp only [hmargin]
        omega
      · rw [hmargin] at hi
        rw [getElem?_blankOut_eq_tab_iff, List.append_assoc, List.getElem?_append_left hi]
      · simp only [hmargin, length_markOf hpos, List.length_append]
        omega
      · rw [Span.text_append rfl rfl]
        simp only [hmargin, length_markOf hpos]
        rw [List.append_assoc, List.drop_left, List.take_left]

end Excerpt

namespace Diagnostic

variable {source : List Char} {d : Diagnostic}

theorem Raised.shows (h : d.Raised source) : (Excerpt.ofSpan source d.span).Shows source := by
  by_cases hend : d.span = .atEnd source
  · rw [hend]
    exact Excerpt.shows_ofSpan_atEnd source
  · exact (Excerpt.underlines_ofSpan (h.visible hend)).toShows

theorem Raised.splitOn_render (h : d.Raised source) : (d.render source).toList.splitOn '\n' =
    [("error: " ++ d.message).toList, (Excerpt.ofSpan source d.span).line,
      (Excerpt.ofSpan source d.span).margin ++ (Excerpt.ofSpan source d.span).mark] := by
  have hrender : (d.render source).toList =
      ("error: " ++ d.message).toList ++ '\n' :: (Excerpt.ofSpan source d.span).text.toList := by
    simp [render]
  have hmessage : '\n' ∉ ("error: " ++ d.message).toList :=
    newline_not_mem_append (by decide) h.newline_not_mem_message
  rw [hrender, List.splitOn_append_cons_self_of_not_mem hmessage, h.shows.lines]

/-- A diagnostic of a source is three lines: its message, a whole line of the source and a mark behind tabs and spaces.
The mark underlines the text that is blamed, unless the end of the source is. Every token can be underlined. -/
theorem underlines_blamed_text (source : List Char) :
    (∀ d : Diagnostic, d.Raised source →
      '\n' ∉ d.message.toList ∧
      (d.render source).toList.splitOn '\n' =
        [("error: " ++ d.message).toList, (Excerpt.ofSpan source d.span).line,
          (Excerpt.ofSpan source d.span).margin ++ (Excerpt.ofSpan source d.span).mark] ∧
      (Excerpt.ofSpan source d.span).Shows source ∧
      (d.span ≠ .atEnd source → (Excerpt.ofSpan source d.span).Underlines source d.span)) ∧
    (∀ token ∈ (lex source).1, (Excerpt.ofSpan source token.span).Underlines source token.span) := by
  refine ⟨fun d h => ⟨h.newline_not_mem_message, h.splitOn_render, h.shows, fun hend => ?_⟩, fun token ht => ?_⟩
  · exact Excerpt.underlines_ofSpan (h.visible hend)
  · exact Excerpt.underlines_ofSpan (visible_of_mem_lex ht)

theorem underlines_blamed_text_second_line :
    let source := ['x', '\n', '\t', 'y', '!', '!']
    let d := LexicalFault.diagnostic ⟨.unknownOperator ['!', '!'], ⟨4, 2⟩⟩
    (d.Raised source ∧ d.span ≠ .atEnd source ∧ (⟨.name "y", ⟨3, 1⟩⟩ : Token) ∈ (lex source).1) ∧
      (d.render source).toList.splitOn '\n' =
        ["error: unknown binary operator: !!".toList, ['\t', 'y', '!', '!'], ['\t', ' ', '^', '^']] ∧
      (Excerpt.ofSpan source d.span).Underlines source d.span ∧
      (Excerpt.ofSpan source ⟨3, 1⟩).Underlines source ⟨3, 1⟩ := by
  intro source d
  have hd : d.Raised source := .tokenize (by decide +kernel)
  have hend : d.span ≠ .atEnd source := by decide
  have ht : (⟨.name "y", ⟨3, 1⟩⟩ : Token) ∈ (lex source).1 := by decide +kernel
  obtain ⟨hraised, htokens⟩ := underlines_blamed_text source
  obtain ⟨-, hrender, -, hunderlines⟩ := hraised d hd
  exact ⟨⟨hd, hend, ht⟩, hrender.trans (by decide), hunderlines hend, htokens _ ht⟩

end Diagnostic

/-! ## The end of a source -/

/-- The caret for the end of a source stands right behind the line that is shown, unless the source ends in a line break.
Then it stands one column further on, because the margin reaches past the line break. -/
theorem caret_behind_line_iff {source : List Char} {fault : GrammarFault} (h : parse source = .error (.grammar fault))
    (hend : fault.span = .atEnd source) :
    let e := Excerpt.ofSpan source fault.span
    (fault.diagnostic.render source).toList.splitOn '\n' =
        [("error: " ++ fault.cause.message).toList, e.line, e.margin ++ ['^']] ∧
      (e.margin.length = e.line.length ↔ source.getLast? ≠ some '\n') ∧
      (source.getLast? = some '\n' → e.margin.length = e.line.length + 1) := by
  intro e
  have hrender := (Diagnostic.Raised.parse h).splitOn_render
  have hmark : e.mark = ['^'] := by
    simp only [e, hend]
    rfl
  have hlength : e.margin.length = e.line.length + if source.getLast? = some '\n' then 1 else 0 := by
    simp only [e, hend]
    exact Excerpt.length_margin_atEnd source
  refine ⟨?_, ?_, fun hlast => ?_⟩
  · rw [← hmark]
    exact hrender
  · rw [hlength]
    split <;> simp [*]
  · rw [hlength, if_pos hlast]

theorem caret_behind_line_iff_blank_line :
    let source := ['x', ' ', '+', '\n', '\t', ' ']
    let fault : GrammarFault := ⟨.endForOperand, .atEnd source⟩
    (parse source = .error (.grammar fault) ∧ fault.span = .atEnd source) ∧
      (fault.diagnostic.render source).toList.splitOn '\n' =
        ["error: illegal eof".toList, ['\t', ' '], ['\t', ' ', '^']] ∧
      (Excerpt.ofSpan source fault.span).margin.length = (Excerpt.ofSpan source fault.span).line.length := by
  intro source fault
  have h : parse source = .error (.grammar fault) := by decide +kernel
  obtain ⟨hrender, hiff, -⟩ := caret_behind_line_iff h rfl
  exact ⟨⟨h, rfl⟩, hrender.trans (by decide), hiff.2 (by decide)⟩

/-- Behind a line break at the end of a source the caret is not where the line that is shown ends. -/
theorem caret_past_line_of_final_newline :
    let source := ['x', ' ', '+', '\n']
    ∃ fault, parse source = .error (.grammar fault) ∧ fault.span = .atEnd source ∧
      (fault.diagnostic.render source).toList.splitOn '\n' =
        ["error: illegal eof".toList, ['x', ' ', '+'], [' ', ' ', ' ', ' ', '^']] ∧
      (Excerpt.ofSpan source fault.span).margin.length ≠ (Excerpt.ofSpan source fault.span).line.length := by
  refine ⟨⟨.endForOperand, .atEnd _⟩, by decide +kernel, rfl, by decide, by decide⟩

end Abacus
