import Abacus.Proofs.Lexing.Misspelling
import Abacus.Source.Excerpt

/-!
# Lines of a source

The line around a text is what stands behind the last line break before it, the text, and what stands in front of the
first line break behind it. An excerpt shows that line, and its margin is as wide as the part before the text.
-/

namespace Abacus

theorem Span.text_append {before text after : List Char} {s : Span} (hs : s.start = before.length)
    (hl : s.length = text.length) : s.text (before ++ text ++ after) = text := by
  rw [text_of_le hs (by simp [hl]), hl, List.append_assoc, List.drop_left, List.take_left]

namespace Source

/-- What stands behind the last line break. -/
def lastLine (cs : List Char) : List Char := (cs.reverse.takeWhile (· ≠ '\n')).reverse

/-- What stands in front of the first line break. -/
def firstLine (cs : List Char) : List Char := cs.takeWhile (· ≠ '\n')

/-- The text is a whole line of the source, with the given number of characters before it: a line break or an end of the
source stands on either side. -/
inductive IsLine : List Char → Nat → List Char → Prop
  | intro {before line after} : (∀ c ∈ before.getLast?, c = '\n') → '\n' ∉ line → (∀ c ∈ after.head?, c = '\n') →
      IsLine (before ++ line ++ after) before.length line

theorem IsLine.newline_not_mem {source line : List Char} {start : Nat} (h : IsLine source start line) :
    '\n' ∉ line := by
  cases h with
  | intro _ hn _ => exact hn

theorem newline_not_mem_lastLine (cs : List Char) : '\n' ∉ lastLine cs := by
  intro h
  have := List.all_eq_true.1 List.all_takeWhile '\n' (List.mem_reverse.1 h)
  simp at this

theorem newline_not_mem_firstLine (cs : List Char) : '\n' ∉ firstLine cs := by
  intro h
  have := List.all_eq_true.1 List.all_takeWhile '\n' h
  simp at this

theorem length_lastLine_le (cs : List Char) : (lastLine cs).length ≤ cs.length := by
  have h := (List.takeWhile_sublist (· ≠ '\n') (l := cs.reverse)).length_le
  rw [List.length_reverse] at h
  rwa [lastLine, List.length_reverse]

theorem exists_append_lastLine (cs : List Char) :
    ∃ before, cs = before ++ lastLine cs ∧ before.length = cs.length - (lastLine cs).length ∧
      ∀ c ∈ before.getLast?, c = '\n' := by
  have hcs : cs = (cs.reverse.dropWhile (· ≠ '\n')).reverse ++ lastLine cs := by
    rw [lastLine, ← List.reverse_append, List.takeWhile_append_dropWhile, List.reverse_reverse]
  have hlength := congrArg List.length hcs
  rw [List.length_append] at hlength
  refine ⟨_, hcs, by omega, fun c hc => ?_⟩
  rw [List.getLast?_reverse] at hc
  simpa using stopsAt_dropWhile _ _ c hc

theorem exists_firstLine_append (cs : List Char) :
    ∃ after, cs = firstLine cs ++ after ∧ ∀ c ∈ after.head?, c = '\n' := by
  refine ⟨cs.dropWhile (· ≠ '\n'), List.takeWhile_append_dropWhile.symm, fun c hc => ?_⟩
  simpa using stopsAt_dropWhile _ _ c hc

theorem firstLine_append {cs : List Char} (h : '\n' ∉ cs) (after : List Char) :
    firstLine (cs ++ after) = cs ++ firstLine after := by
  refine List.takeWhile_append_of_pos fun c hc => ?_
  simpa using fun hn : c = '\n' => h (hn ▸ hc)

/-- The line that goes through a text without line breaks. -/
theorem isLine_around (before : List Char) {text : List Char} (after : List Char) (h : '\n' ∉ text) :
    IsLine (before ++ text ++ after) (before.length - (lastLine before).length)
      (lastLine before ++ text ++ firstLine after) := by
  obtain ⟨start, hstart, hlength, hb⟩ := exists_append_lastLine before
  obtain ⟨rest, hrest, ha⟩ := exists_firstLine_append after
  have hline : '\n' ∉ lastLine before ++ text ++ firstLine after := by
    simp [newline_not_mem_lastLine, newline_not_mem_firstLine, h]
  have hsource : before ++ text ++ after = start ++ (lastLine before ++ text ++ firstLine after) ++ rest := by
    conv => lhs; rw [hstart, hrest]
    simp only [List.append_assoc]
  rw [hsource, ← hlength]
  exact .intro hb hline ha

theorem lineAt_append (before after : List Char) :
    lineAt (before ++ after) before.length = lastLine before ++ firstLine after := by
  rw [lineAt, List.take_left, List.drop_left]
  rfl

theorem lineStart_append (before after : List Char) :
    lineStart (before ++ after) before.length = before.length - (lastLine before).length := by
  rw [lineStart, List.take_left, lastLine, List.length_reverse]

theorem slice_line (before text after : List Char) :
    slice (before ++ text ++ after) (before.length - (lastLine before).length : Nat) (before.length + text.length) =
      lastLine before ++ text := by
  obtain ⟨start, hstart, hlength, -⟩ := exists_append_lastLine before
  have htext : Span.text ⟨start.length, (lastLine before ++ text).length⟩ (start ++ (lastLine before ++ text) ++ after) =
      lastLine before ++ text := Span.text_append rfl rfl
  have hsource : before ++ text ++ after = start ++ (lastLine before ++ text) ++ after := by
    conv => lhs; rw [hstart]
    simp only [List.append_assoc]
  have hstop : (before.length : Int) + text.length = Span.stop ⟨start.length, (lastLine before ++ text).length⟩ := by
    have := congrArg List.length hstart
    simp only [List.length_append] at this
    simp only [Span.stop, List.length_append]
    omega
  rw [hsource, ← hlength, hstop]
  exact htext

end Source

/-! ## Excerpts -/

namespace Excerpt

open Source

variable {before text after : List Char}

theorem length_markOf {n : Nat} (h : 0 < n) : (markOf n).length = n := by
  unfold markOf
  split
  · simp only [List.length_singleton]
    omega
  · simp only [List.length_append, List.length_cons, List.length_replicate, List.length_nil]
    omega

theorem anchor_append (h : after ≠ []) (n : Nat) :
    anchor (before ++ after) ⟨before.length, n⟩ = before.length := by
  have := List.length_pos_iff.2 h
  simp only [anchor, List.length_append]
  omega

/-- The excerpt for a text on a line. -/
theorem ofSpan_append (hne : text ≠ []) (h : '\n' ∉ text) :
    ofSpan (before ++ text ++ after) ⟨before.length, text.length⟩ =
      ⟨lastLine before ++ text ++ firstLine after, blankOut (lastLine before), markOf text.length⟩ := by
  have hanchor : anchor (before ++ (text ++ after)) ⟨before.length, text.length⟩ = before.length :=
    anchor_append (by simp [hne]) _
  have hslice := slice_line before [] (text ++ after)
  rw [List.append_nil, List.append_nil] at hslice
  rw [List.append_assoc, ofSpan, hanchor, lineAt_append, lineStart_append, firstLine_append h, List.append_assoc]
  exact congrArg (fun cs => Excerpt.mk _ (blankOut cs) _) hslice

/-- The excerpt for the end of a source. The line is the one that the last character ends. -/
theorem ofSpan_atEnd (before : List Char) (c : Char) :
    ofSpan (before ++ [c]) (.atEnd (before ++ [c])) =
      ⟨lastLine before ++ firstLine [c], blankOut (lastLine before ++ [c]), ['^']⟩ := by
  have hanchor : anchor (before ++ [c]) (.atEnd (before ++ [c])) = before.length := by
    simp only [anchor, Span.atEnd, List.length_append, List.length_singleton]
    omega
  have hslice := slice_line before [c] []
  rw [List.append_nil] at hslice
  have hstart : (Span.atEnd (before ++ [c])).start = before.length + [c].length := by
    simp [Span.atEnd]
  rw [ofSpan, hanchor, lineAt_append, lineStart_append, hstart, hslice]
  rfl

end Excerpt

end Abacus
