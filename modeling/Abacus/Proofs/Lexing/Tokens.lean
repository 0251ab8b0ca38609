import Abacus.Proofs.Lexing.Borders
import Abacus.Proofs.Lexing.Spelling
import Abacus.Tokenizer

/-!
# The tokens of a source

A tokenizer yields a list of tokens and then a fault or the end of its source. It comes to the end without a fault
exactly on the sources that are segmented, and its tokens are those of the segmentation.
-/

namespace Abacus

open Text

variable {source : List Char} {fault? : Option LexicalFault}

namespace Tokenizer

/-! ## Single tokens -/

theorem position_start (t : Tokenizer) :
    t.start.position = t.cursor.position + (t.cursor.rest.takeWhile isBlank).length := rfl

theorem next_of_rest_nil {t : Tokenizer} (hf : t.finished = false) (hs : t.start.rest = []) :
    t.next = (none, { t with cursor := t.start, finished := true }) := by
  simp [next, hf, hs]

theorem next_of_scan_ok {t : Tokenizer} {c : Char} {cs : List Char} {n : Nat} {l : Lexeme} (hf : t.finished = false)
    (hs : t.start.rest = c :: cs) (h : Scan.ofStart c cs = ⟨n, .ok l⟩) :
    t.next = (some ⟨l, ⟨t.start.position, n⟩⟩, { t with cursor := t.start.skip n }) := by
  simp [next, hf, hs, accept, h]

theorem next_of_scan_error {t : Tokenizer} {c : Char} {cs : List Char} {n : Nat} {cause : LexicalCause}
    (hf : t.finished = false) (hs : t.start.rest = c :: cs) (h : Scan.ofStart c cs = ⟨n, .error cause⟩) :
    t.next = (none, ⟨t.start.skip n, true, some ⟨cause, ⟨t.start.position, n⟩⟩⟩) := by
  simp [next, hf, hs, accept, h]

/-- The end, a lexeme or a fault. -/
theorem next_cases {t : Tokenizer} (hf : t.finished = false) :
    (t.start.rest = [] ∧ t.next = (none, { t with cursor := t.start, finished := true })) ∨
    (∃ c cs n l, t.start.rest = c :: cs ∧ Scan.ofStart c cs = ⟨n, .ok l⟩ ∧
      t.next = (some ⟨l, ⟨t.start.position, n⟩⟩, { t with cursor := t.start.skip n })) ∨
    (∃ c cs n cause, t.start.rest = c :: cs ∧ Scan.ofStart c cs = ⟨n, .error cause⟩ ∧
      t.next = (none, ⟨t.start.skip n, true, some ⟨cause, ⟨t.start.position, n⟩⟩⟩)) := by
  cases hs : t.start.rest with
  | nil => exact .inl ⟨rfl, next_of_rest_nil hf hs⟩
  | cons c cs =>
      cases h : Scan.ofStart c cs with
      | mk n result =>
          cases result with
          | ok l => exact .inr (.inl ⟨c, cs, n, l, rfl, h, next_of_scan_ok hf hs h⟩)
          | error cause => exact .inr (.inr ⟨c, cs, n, cause, rfl, h, next_of_scan_error hf hs h⟩)

theorem next_of_finished {t : Tokenizer} (h : t.finished = true) : t.next = (none, t) := by
  rw [next, if_pos h]

theorem source_next (t : Tokenizer) : t.next.2.cursor.source = t.cursor.source := by
  cases hf : t.finished with
  | true => rw [next_of_finished hf]
  | false =>
      rcases next_cases hf with ⟨-, hn⟩ | ⟨c, cs, n, l, -, -, hn⟩ | ⟨c, cs, n, cause, -, -, hn⟩ <;> rw [hn] <;> rfl

theorem finished_of_next_eq_none {t u : Tokenizer} (h : t.next = (none, u)) : u.finished = true := by
  cases hf : t.finished with
  | true =>
      rw [next_of_finished hf] at h
      cases h
      exact hf
  | false =>
      rcases next_cases hf with ⟨-, hn⟩ | ⟨c, cs, n, l, -, -, hn⟩ | ⟨c, cs, n, cause, -, -, hn⟩ <;>
        rw [hn] at h <;> cases h <;> rfl

/-! ## All tokens -/

theorem drain_of_next_eq_some {t u : Tokenizer} {token : Token} (h : t.next = (some token, u)) :
    t.drain = (token :: u.drain.1, u.drain.2) := by
  rw [drain]
  split
  · rename_i h'
    rw [h] at h'
    cases h'
  · rename_i h'
    rw [h] at h'
    cases h'
    rfl

theorem drain_of_next_eq_none {t u : Tokenizer} (h : t.next = (none, u)) : t.drain = ([], u) := by
  rw [drain]
  split
  · rename_i h'
    rw [h] at h'
    cases h'
    rfl
  · rename_i h'
    rw [h] at h'
    cases h'

theorem drain_of_finished {t : Tokenizer} (h : t.finished = true) : t.drain = ([], t) :=
  drain_of_next_eq_none (next_of_finished h)

/-- The tokens still to come from the source, and the fault behind them. -/
structure Yields (t : Tokenizer) (source : List Char) (tokens : List Token) (fault? : Option LexicalFault) : Prop where
  source_eq : t.cursor.source = source
  tokens_eq : t.drain.1 = tokens
  fault_eq : t.drain.2.pending? = fault?

/-- A fresh tokenizer yields what `lex` lists. -/
theorem yields_ofSource (source : List Char) : (ofSource source).Yields source (lex source).1 (lex source).2 :=
  ⟨rfl, rfl, rfl⟩

theorem Yields.next_cons {t : Tokenizer} {token : Token} {tokens : List Token}
    (h : t.Yields source (token :: tokens) fault?) :
    ∃ u, t.next = (some token, u) ∧ u.Yields source tokens fault? := by
  obtain ⟨hs, ht, hf⟩ := h
  cases hn : t.next with
  | mk token' u =>
      cases token' with
      | none => rw [drain_of_next_eq_none hn] at ht; cases ht
      | some token' =>
          rw [drain_of_next_eq_some hn] at ht hf
          cases ht
          have hs' := t.source_next
          rw [hn] at hs'
          exact ⟨u, rfl, hs'.trans hs, rfl, hf⟩

theorem Yields.next_nil {t : Tokenizer} (h : t.Yields source [] fault?) :
    ∃ u, t.next = (none, u) ∧ u.popFault.1 = fault? ∧ u.popFault.2.Yields source [] none := by
  obtain ⟨hs, ht, hf⟩ := h
  cases hn : t.next with
  | mk token u =>
      cases token with
      | some token => rw [drain_of_next_eq_some hn] at ht; cases ht
      | none =>
          rw [drain_of_next_eq_none hn] at hf
          have hs' := t.source_next
          rw [hn] at hs'
          have hu : u.finished = true := finished_of_next_eq_none hn
          have hd : u.popFault.2.drain = ([], u.popFault.2) := drain_of_finished hu
          exact ⟨u, rfl, hf, hs'.trans hs, by rw [hd], by rw [hd]; rfl⟩

end Tokenizer

/-! ## Segmentations -/

theorem Segmented.head?_ne_point {start : Nat} {cs : List Char} {tokens : List Token} (h : Segmented start cs tokens) :
    cs.head? ≠ some '.' := by
  have hblank : isBlank '.' = false := by decide
  intro hp
  cases h with
  | blank hb =>
      have := hb '.' (List.mem_of_mem_head? hp)
      rw [hblank] at this
      cases this
  | @token _ gap text rest lexeme tokens hb hs _ =>
      cases gap with
      | cons c gap =>
          cases hp
          have := hb '.' List.mem_cons_self
          rw [hblank] at this
          cases this
      | nil =>
          obtain ⟨c, cs, rfl, -, hscan⟩ := Scan.ofStart_of_spells hs
          cases hp
          rw [Scan.ofStart_of_isSymbol (by decide), if_neg (by decide)] at hscan
          cases congrArg Scan.result hscan

namespace Tokenizer

/-- Blanks ahead are skipped in front of the next token, so they can be skipped before. -/
theorem drain_skip_blanks {t : Tokenizer} (hf : t.finished = false) {gap rest : List Char}
    (hr : t.cursor.rest = gap ++ rest) (hb : ∀ c ∈ gap, isBlank c = true) :
    { t with cursor := t.cursor.skip gap.length }.drain = t.drain := by
  have hrest : (t.cursor.skip gap.length).rest = rest := by rw [Cursor.rest_skip, hr, List.drop_left]
  have hstart : { t with cursor := t.cursor.skip gap.length }.start = t.start := by
    simp only [start, Cursor.advanceWhile, hrest, hr]
    rw [Cursor.skip_skip, List.takeWhile_append_of_pos hb, List.length_append]
  have hnext : { t with cursor := t.cursor.skip gap.length }.next = t.next := by
    rw [next, next, if_neg (by simp [hf]), if_neg (by simp [hf]), hstart]
    rfl
  cases h : t.next with
  | mk token u =>
      rw [h] at hnext
      cases token with
      | none => rw [drain_of_next_eq_none hnext, drain_of_next_eq_none h]
      | some token => rw [drain_of_next_eq_some hnext, drain_of_next_eq_some h]

theorem rest_skip_skip {c : Cursor} {gap text rest : List Char} (hr : c.rest = gap ++ text ++ rest) :
    ((c.skip gap.length).skip text.length).rest = rest := by
  rw [Cursor.rest_skip, Cursor.rest_skip, hr, List.append_assoc, List.drop_left, List.drop_left]

/-- A lexeme that is spelled behind blanks is the next token. -/
theorem next_of_spells {t : Tokenizer} (hf : t.finished = false) {gap text rest : List Char} {l : Lexeme}
    (hr : t.cursor.rest = gap ++ text ++ rest) (hb : ∀ c ∈ gap, isBlank c = true) (hs : Spells text rest l) :
    t.next = (some ⟨l, ⟨(t.cursor.position + gap.length : Nat), text.length⟩⟩,
      { t with cursor := (t.cursor.skip gap.length).skip text.length }) := by
  obtain ⟨c, cs, rfl, hc, hscan⟩ := Scan.ofStart_of_spells hs
  rw [List.append_assoc] at hr
  have hstop : StopsAt isBlank (c :: cs ++ rest) := by
    rintro d ⟨⟩
    exact hc
  have hstart : t.start = t.cursor.skip gap.length := by
    rw [start, Cursor.advanceWhile, hr, takeWhile_run hb hstop]
  have hrest : t.start.rest = c :: (cs ++ rest) := by
    rw [rest_start, hr, dropWhile_run hb hstop]
    rfl
  rw [next_of_scan_ok hf hrest hscan, hstart]
  rfl

/-- In front of a border the tokens of a segmented text come first, and then those of the text behind. -/
theorem drain_of_segmented_append {start : Nat} {cs next : List Char} {tokens : List Token}
    (h : Segmented start cs tokens) (hd : Delimited next) {t : Tokenizer} (hf : t.finished = false)
    (hp : t.cursor.position = start) (hr : t.cursor.rest = cs ++ next) :
    t.drain = (tokens ++ { t with cursor := t.cursor.skip cs.length }.drain.1,
      { t with cursor := t.cursor.skip cs.length }.drain.2) := by
  induction h generalizing t with
  | blank hb => exact (drain_skip_blanks hf hr hb).symm
  | @token start gap text rest l tokens hb hs _ ih =>
      subst hp
      rw [List.append_assoc _ rest] at hr
      have hskip : ((t.cursor.skip gap.length).skip text.length).skip rest.length =
          t.cursor.skip (gap ++ text ++ rest).length := by
        simp only [Cursor.skip_skip, List.length_append]
      have hu := ih (t := { t with cursor := (t.cursor.skip gap.length).skip text.length }) hf rfl (rest_skip_skip hr)
      rw [hskip] at hu
      rw [drain_of_next_eq_some (next_of_spells hf hr hb (hs.append hd)), hu]
      rfl

theorem drain_of_segmented {cs : List Char} {tokens : List Token} {t : Tokenizer} (hf : t.finished = false)
    (hr : t.cursor.rest = cs) (h : Segmented t.cursor.position cs tokens) :
    t.drain.1 = tokens ∧ t.drain.2.pending? = t.pending? := by
  have hend : { t with cursor := t.cursor.skip cs.length }.start.rest = [] := by
    rw [rest_start, Cursor.rest_skip, hr, List.drop_length]
    rfl
  have hnext := next_of_rest_nil (t := { t with cursor := t.cursor.skip cs.length }) hf hend
  rw [drain_of_segmented_append h Delimited.nil hf rfl (by rw [hr, List.append_nil]), drain_of_next_eq_none hnext]
  exact ⟨List.append_nil tokens, rfl⟩

/-- The text in front of the end, or of a fault, is segmented into the tokens that are yielded. A fault is that of the scan
of the text behind, which starts with no blank. -/
theorem exists_segmented_of_drain (t : Tokenizer) (hf : t.finished = false) : ∃ before after,
    t.cursor.rest = before ++ after ∧ Segmented t.cursor.position before t.drain.1 ∧
      ((after = [] ∧ t.drain.2.pending? = t.pending?) ∨
        ∃ c cs n cause, after = c :: cs ∧ isBlank c = false ∧ Scan.ofStart c cs = ⟨n, .error cause⟩ ∧
          t.drain.2.pending? = some ⟨cause, ⟨(t.cursor.position + before.length : Nat), n⟩⟩) := by
  have hb : ∀ c ∈ t.cursor.rest.takeWhile isBlank, isBlank c = true := List.all_eq_true.1 List.all_takeWhile
  have hgap : t.cursor.rest = t.cursor.rest.takeWhile isBlank ++ t.start.rest := by
    rw [rest_start, List.takeWhile_append_dropWhile]
  rcases next_cases hf with ⟨hs, hn⟩ | ⟨c, cs, n, l, hs, hscan, hn⟩ | ⟨c, cs, n, cause, hs, hscan, hn⟩
  · rw [drain_of_next_eq_none hn]
    rw [hs] at hgap
    exact ⟨_, _, hgap, .blank hb, .inl ⟨rfl, rfl⟩⟩
  · have := rest_lt_of_next hn
    rw [drain_of_next_eq_some hn]
    obtain ⟨text, rest, hcs, rfl, hspells⟩ := Scan.reads_of_ofStart hscan
    have hrest : (t.start.skip text.length).rest = rest := by rw [Cursor.rest_skip, hs, hcs, List.drop_left]
    obtain ⟨before, after, hba, hseg, hend⟩ :=
      exists_segmented_of_drain { t with cursor := t.start.skip text.length } hf
    rw [hrest] at hba
    -- A point behind the lexeme would be a fault of the next scan, so the lexeme is spelled in full.
    have htext := hspells before ⟨after, hba.symm⟩ hseg.head?_ne_point
    refine ⟨_, after, ?_, .token hb htext hseg, ?_⟩
    · rw [hs, hcs, hba] at hgap
      simpa only [List.append_assoc] using hgap
    · rcases hend with hend | ⟨d, ds, n, cause, hafter, hd, hscan, hfault⟩
      · exact .inl hend
      · refine .inr ⟨d, ds, n, cause, hafter, hd, hscan, hfault.trans ?_⟩
        simp [Cursor.skip, position_start, Nat.add_assoc]
  · rw [drain_of_next_eq_none hn]
    have hc : isBlank c = false := by
      refine stopsAt_dropWhile isBlank t.cursor.rest c ?_
      rw [← rest_start, hs]
      rfl
    exact ⟨_, _, hgap, .blank hb, .inr ⟨c, cs, n, cause, hs, hc, hscan, rfl⟩⟩
termination_by t.cursor.rest.length

theorem segmented_of_drain (t : Tokenizer) (hf : t.finished = false) (hp : t.drain.2.pending? = none) :
    Segmented t.cursor.position t.cursor.rest t.drain.1 := by
  obtain ⟨before, after, hr, hs, ⟨rfl, -⟩ | ⟨c, cs, n, cause, -, -, -, hfault⟩⟩ := exists_segmented_of_drain t hf
  · rwa [hr, List.append_nil]
  · rw [hp] at hfault
    cases hfault

end Tokenizer

/-! ## Whole sources -/

theorem tokenize_eq_ok_iff {tokens : List Token} : tokenize source = .ok tokens ↔ lex source = (tokens, none) := by
  unfold tokenize
  constructor
  · intro h
    split at h
    · rename_i hl
      cases h
      exact hl
    · cases h
  · intro h
    rw [h]

theorem tokenize_eq_error_iff {fault : LexicalFault} : tokenize source = .error fault ↔ (lex source).2 = some fault := by
  unfold tokenize
  split
  · rename_i hl
    simp [hl]
  · rename_i hl
    simp [hl]

/-- A source is segmented up to its end or up to a fault, which is that of the scan there. -/
theorem exists_segmented_of_lex (source : List Char) : ∃ before after,
    source = before ++ after ∧ Segmented 0 before (lex source).1 ∧
      ((after = [] ∧ (lex source).2 = none) ∨
        ∃ c cs n cause, after = c :: cs ∧ isBlank c = false ∧ Scan.ofStart c cs = ⟨n, .error cause⟩ ∧
          (lex source).2 = some ⟨cause, ⟨before.length, n⟩⟩) := by
  obtain ⟨before, after, hr, hs, hend⟩ := Tokenizer.exists_segmented_of_drain (.ofSource source) rfl
  have hplace : (Tokenizer.ofSource source).cursor.position + before.length = before.length := Nat.zero_add _
  rw [hplace] at hend
  exact ⟨before, after, hr, hs, hend⟩

theorem tokenize_eq_ok_iff_segmented {tokens : List Token} :
    tokenize source = .ok tokens ↔ Segmented 0 source tokens := by
  rw [tokenize_eq_ok_iff]
  constructor
  · intro h
    have hs := Tokenizer.segmented_of_drain (.ofSource source) rfl (congrArg Prod.snd h)
    have ht : (Tokenizer.ofSource source).drain.1 = tokens := congrArg Prod.fst h
    rwa [ht] at hs
  · intro h
    obtain ⟨ht, hp⟩ := Tokenizer.drain_of_segmented (t := .ofSource source) rfl rfl h
    exact Prod.ext ht hp

/-! ## Lexemes without their places -/

/-- The lexemes of tokens. -/
abbrev lexemes (tokens : List Token) : List Lexeme := tokens.map Token.lexeme

namespace Segmented

variable {start : Nat} {text rest cs : List Char} {l : Lexeme} {tokens : List Token}

theorem cons (h : Spells text rest l) (hr : Segmented (start + text.length) rest tokens) :
    Segmented start (text ++ rest) (⟨l, ⟨start, text.length⟩⟩ :: tokens) :=
  token (fun _ h => absurd h List.not_mem_nil) h hr

theorem blank_cons {c : Char} (hc : isBlank c = true) (h : Segmented (start + 1) cs tokens) :
    Segmented start (c :: cs) tokens := by
  cases h with
  | blank hb =>
      refine .blank fun d hd => ?_
      rcases List.mem_cons.1 hd with rfl | hd
      · exact hc
      · exact hb d hd
  | @token _ gap text rest l tokens hb hs hr =>
      have hgap : start + 1 + gap.length = start + (c :: gap).length := by simp [Nat.add_assoc, Nat.add_comm 1]
      rw [hgap] at hr ⊢
      refine token (fun d hd => ?_) hs hr
      rcases List.mem_cons.1 hd with rfl | hd
      · exact hc
      · exact hb d hd

end Segmented

/-- The lexemes that a text is made of, wherever it stands. -/
def Lexes (cs : List Char) (w : List Lexeme) : Prop :=
  ∀ start, ∃ tokens, Segmented start cs tokens ∧ lexemes tokens = w

namespace Lexes

variable {text rest cs : List Char} {l : Lexeme} {w : List Lexeme}

theorem nil : Lexes [] [] := fun _ => ⟨[], .blank (by simp), rfl⟩

theorem spells (h : Spells text rest l) (hr : Lexes rest w) : Lexes (text ++ rest) (l :: w) := by
  intro start
  obtain ⟨tokens, hs, rfl⟩ := hr (start + text.length)
  exact ⟨_, hs.cons h, rfl⟩

theorem blank {c : Char} (hc : isBlank c = true) (h : Lexes cs w) : Lexes (c :: cs) w := by
  intro start
  obtain ⟨tokens, hs, hw⟩ := h (start + 1)
  exact ⟨tokens, hs.blank_cons hc, hw⟩

theorem exists_tokenize (h : Lexes cs w) : ∃ tokens, tokenize cs = .ok tokens ∧ lexemes tokens = w := by
  obtain ⟨tokens, hs, hw⟩ := h 0
  exact ⟨tokens, tokenize_eq_ok_iff_segmented.2 hs, hw⟩

end Lexes

end Abacus
