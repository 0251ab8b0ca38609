import Abacus.Proofs.Lexing.Spelling
import Abacus.Source.Cursor.Calls
import Abacus.Source.Span

/-!
# Cursors under any calls

A call takes the first characters of the text ahead, and the cursor goes on by their number. So the texts that a sequence
of calls takes, put together, are the first characters of the text that was ahead of its start.
-/

namespace Abacus.Cursor

variable {c : Cursor} {n : Nat} {text : List Char} {calls : List Call}

theorem peek_zero (c : Cursor) : c.peek 0 = c.rest.head? := by
  have h : ¬ (c.position : Int) < 0 := by omega
  rw [peek, rest, List.head?_drop]
  simp [h]

theorem slice_skip (h : n ≤ c.rest.length) : slice c.source c.position (c.skip n).position = c.rest.take n := by
  cases n with
  | zero => simp [slice, skip]
  | succ n =>
      have hlength : c.rest.length = c.source.length - c.position := List.length_drop
      exact Span.text_of_le (s := ⟨c.position, n + 1⟩) rfl (by simp only; omega)

/-! ## One call -/

/-- The call takes the text: it is what the cursor has ahead of it, and the cursor goes on behind it. -/
structure Takes (c : Cursor) (text : List Char) (d : Cursor) : Prop where
  isPrefix : text <+: c.rest
  after : d = c.skip text.length

theorem Takes.slice {d : Cursor} (h : c.Takes text d) : slice c.source c.position d.position = text := by
  rw [h.after, slice_skip h.isPrefix.length_le, ← List.prefix_iff_eq_take.1 h.isPrefix]

theorem Takes.position_le {d : Cursor} (h : c.Takes text d) :
    c.position ≤ d.position ∧ d.position ≤ max c.position c.source.length := by
  have hle := h.isPrefix.length_le
  have hlength : c.rest.length = c.source.length - c.position := List.length_drop
  have hposition : d.position = c.position + text.length := by rw [h.after, skip]
  omega

theorem Takes.nil (c : Cursor) : c.Takes [] c := ⟨List.nil_prefix, rfl⟩

theorem Takes.append {d e : Cursor} {text' : List Char} (h : c.Takes text d) (h' : d.Takes text' e) :
    c.Takes (text ++ text') e := by
  obtain ⟨⟨rest, hrest⟩, rfl⟩ := h
  obtain ⟨htext, rfl⟩ := h'
  have hdrop : (c.skip text.length).rest = rest := by rw [rest_skip, ← hrest, List.drop_left]
  rw [hdrop] at htext
  refine ⟨?_, by rw [skip_skip, List.length_append]⟩
  rw [← hrest]
  exact (List.prefix_append_right_inj text).2 htext

theorem next?_eq_none_iff : c.next? = none ↔ c.atEnd = true := by
  simp [next?, atEnd]

theorem takes_of_next? {ch : Char} {d : Cursor} (h : c.next? = some (ch, d)) : c.Takes [ch] d := by
  obtain ⟨ch', hget, heq⟩ := Option.map_eq_some_iff.1 h
  cases heq
  obtain ⟨hlt, hch⟩ := List.getElem?_eq_some_iff.1 hget
  refine ⟨⟨(c.skip 1).rest, ?_⟩, rfl⟩
  rw [rest_skip, rest, List.drop_drop, List.drop_eq_getElem_cons hlt, hch]
  rfl

theorem takes_reply (c : Cursor) (call : Call) : c.Takes (c.reply call).answer.taken (c.reply call).after := by
  cases call with
  | next =>
      simp only [reply, perform]
      cases h : c.next? with
      | none => exact .nil c
      | some next => exact takes_of_next? h
  | peek | atEnd => exact .nil c
  | advanceWhile p => exact ⟨List.takeWhile_prefix p, rfl⟩

theorem pastEnd_iff : (∃ message, (c.reply .next).answer = .pastEnd message) ↔ c.atEnd = true := by
  rw [← next?_eq_none_iff]
  simp only [reply, perform]
  cases h : c.next? with
  | none => exact ⟨fun _ => rfl, fun _ => ⟨_, rfl⟩⟩
  | some next => exact ⟨fun ⟨_, h⟩ => (nomatch h), fun h => (nomatch h)⟩

/-- Behind a run is the end, or a character outside of the class. -/
theorem advanceWhile_ends (p : Char → Bool) (c : Cursor) :
    (c.advanceWhile p).2.atEnd = true ∨ ∃ ch, (c.advanceWhile p).2.peek 0 = some ch ∧ p ch = false := by
  rw [← rest_eq_nil_iff, peek_zero, rest_advanceWhile]
  have hs := stopsAt_dropWhile p c.rest
  cases h : c.rest.dropWhile p with
  | nil => exact .inl rfl
  | cons ch rest =>
      rw [h] at hs
      exact .inr ⟨ch, rfl, hs ch rfl⟩

/-! ## Sequences of calls -/

theorem takes_replies (c : Cursor) (calls : List Call) :
    c.Takes ((c.replies calls).flatMap (·.answer.taken)) (c.behind calls) := by
  induction calls generalizing c with
  | nil => exact .nil c
  | cons call calls ih => exact (takes_reply c call).append (ih _)

/-- Every reply is to a call of the cursor that the calls before it left. -/
theorem exists_of_mem_replies {r : Reply} (h : r ∈ c.replies calls) :
    ∃ earlier call, r = (c.behind earlier).reply call ∧ c.behind (earlier ++ [call]) = r.after := by
  induction calls generalizing c with
  | nil => cases h
  | cons call calls ih =>
      rcases List.mem_cons.1 h with rfl | h
      · exact ⟨[], call, rfl, rfl⟩
      · obtain ⟨earlier, call', hr, hb⟩ := ih h
        exact ⟨call :: earlier, call', hr, hb⟩

theorem pairwise_position (c : Cursor) (calls : List Call) :
    (c.position :: (c.replies calls).map (·.after.position)).Pairwise (· ≤ ·) := by
  induction calls generalizing c with
  | nil => exact List.pairwise_singleton ..
  | cons call calls ih =>
      have hle := (takes_reply c call).position_le.1
      have htail := ih (c.reply call).after
      refine .cons (fun q hq => ?_) htail
      rcases List.mem_cons.1 hq with rfl | hq
      · exact hle
      · exact Nat.le_trans hle ((List.pairwise_cons.1 htail).1 q hq)

/-! ## The law of a sequence of calls -/

/-- What a cursor keeps to under a sequence of calls. -/
structure Conserves (c : Cursor) (calls : List Call) : Prop where
  /-- The texts that were taken make up the source from the first place to the last. -/
  text : (c.replies calls).flatMap (·.answer.taken) = slice c.source c.position (c.behind calls).position
  /-- What a call takes is the source between the places before and behind it. -/
  taken : ∀ r ∈ c.replies calls, r.answer.taken = slice c.source r.before.position r.after.position
  /-- No call goes back. -/
  forward : (c.position :: (c.replies calls).map (·.after.position)).Pairwise (· ≤ ·)
  /-- No call goes past the end, or past the start if that was set behind the end. -/
  bound : ∀ r ∈ c.replies calls, r.after.position ≤ max c.position c.source.length
  /-- There is no next character at the end, and nowhere else. -/
  fails : ∀ r ∈ c.replies calls, r.call = .next →
    ((∃ message, r.answer = .pastEnd message) ↔ r.before.atEnd = true)
  /-- Where there is none, the cursor stays. -/
  stays : ∀ r ∈ c.replies calls, ∀ message, r.answer = .pastEnd message → r.after = r.before
  /-- To look changes nothing. -/
  looks : ∀ r ∈ c.replies calls, r.call.looks = true → r.after = r.before
  /-- A run goes on to the first character outside of the class, or to the end. -/
  runs : ∀ r ∈ c.replies calls, ∀ p, r.call = .advanceWhile p → ∃ text, r.answer = .run text ∧
    (∀ ch ∈ text, p ch = true) ∧ (r.after.atEnd = true ∨ ∃ ch, r.after.peek 0 = some ch ∧ p ch = false)

theorem source_behind (c : Cursor) (calls : List Call) : (c.behind calls).source = c.source := by
  rw [(takes_replies c calls).after, skip]

/-- Whatever is asked of a cursor and in whatever order, no text is lost and none is taken twice. -/
theorem conserves (c : Cursor) (calls : List Call) : c.Conserves calls := by
  constructor
  case text => exact (takes_replies c calls).slice.symm
  case taken =>
    intro r hr
    obtain ⟨earlier, call, rfl, -⟩ := exists_of_mem_replies hr
    rw [← source_behind c earlier]
    exact (takes_reply _ call).slice.symm
  case forward => exact pairwise_position c calls
  case bound =>
    intro r hr
    obtain ⟨earlier, call, -, hb⟩ := exists_of_mem_replies hr
    rw [← hb]
    exact (takes_replies c _).position_le.2
  case fails =>
    intro r hr hc
    obtain ⟨earlier, call, rfl, -⟩ := exists_of_mem_replies hr
    cases hc
    exact pastEnd_iff
  case stays =>
    intro r hr message ha
    obtain ⟨earlier, call, rfl, -⟩ := exists_of_mem_replies hr
    rw [(takes_reply _ call).after, ha]
    rfl
  case looks =>
    intro r hr hl
    obtain ⟨earlier, call, rfl, -⟩ := exists_of_mem_replies hr
    cases call with
    | peek | atEnd => rfl
    | next | advanceWhile => cases hl
  case runs =>
    intro r hr p hc
    obtain ⟨earlier, call, rfl, -⟩ := exists_of_mem_replies hr
    cases hc
    exact ⟨_, rfl, fun ch hch => List.all_eq_true.1 List.all_takeWhile ch hch, advanceWhile_ends p _⟩

end Abacus.Cursor
