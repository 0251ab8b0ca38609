import Abacus.Proofs.Lexing.Classes
import Abacus.Segmentation

/-!
# Scanning one lexeme

A scan reads the lexeme that is spelled where it starts. It reads nothing else, except that it does not look behind a
fraction: a second point there is refused by the next scan.
-/

namespace Abacus

open Text

/-! ## Runs of a class -/

section Runs

variable {p : Char → Bool} {run rest cs : List Char}

theorem StopsAt.takeWhile (h : StopsAt p cs) : cs.takeWhile p = [] := by
  cases cs with
  | nil => rfl
  | cons c cs => rw [List.takeWhile_cons_of_neg (by simp [h c rfl])]

theorem StopsAt.dropWhile (h : StopsAt p cs) : cs.dropWhile p = cs := by
  cases cs with
  | nil => rfl
  | cons c cs => rw [List.dropWhile_cons_of_neg (by simp [h c rfl])]

theorem stopsAt_dropWhile (p : Char → Bool) (cs : List Char) : StopsAt p (cs.dropWhile p) := by
  intro c hc
  rw [← Bool.not_eq_true]
  intro hp
  have := List.head?_dropWhile_not p cs
  rw [Option.mem_def.1 hc] at this
  simp [hp] at this

theorem takeWhile_run (hr : ∀ c ∈ run, p c = true) (hs : StopsAt p rest) : (run ++ rest).takeWhile p = run := by
  rw [List.takeWhile_append_of_pos hr, hs.takeWhile, List.append_nil]

theorem dropWhile_run (hr : ∀ c ∈ run, p c = true) (hs : StopsAt p rest) : (run ++ rest).dropWhile p = rest := by
  rw [List.dropWhile_append_of_pos hr, hs.dropWhile]

theorem StopsAt.of_start {next : List Char} (h : StopsAt p rest) (hn : next <+: rest) : StopsAt p next := by
  intro c hc
  obtain ⟨after, rfl⟩ := hn
  obtain ⟨cs, rfl⟩ := List.head?_eq_some_iff.1 hc
  exact h c rfl

theorem stopsAt_isDigit_of_continuesNumber (h : StopsAt continuesNumber cs) : StopsAt Char.isDigit cs := by
  intro c hc
  have := h c hc
  simp only [continuesNumber, Bool.or_eq_false_iff] at this
  exact this.1

end Runs

/-! ## From spelling to scan -/

namespace Scan

variable {ds fs rest : List Char}

theorem ofNumber_whole (hd : ∀ c ∈ ds, c.isDigit = true) (hs : StopsAt continuesNumber rest) :
    ofNumber (ds ++ rest) = ⟨ds.length, .ok (.number ((Decimal.ofDigits ds []).nearest false))⟩ := by
  have hs' := stopsAt_isDigit_of_continuesNumber hs
  unfold ofNumber
  rw [takeWhile_run hd hs', dropWhile_run hd hs']
  split
  · exact absurd (hs '.' rfl) (by decide)
  · exact absurd (hs '.' rfl) (by decide)
  · rfl

theorem ofNumber_fraction (hd : ∀ c ∈ ds, c.isDigit = true) (hne : fs ≠ []) (hf : ∀ c ∈ fs, c.isDigit = true)
    (hs : StopsAt Char.isDigit rest) : ofNumber (ds ++ '.' :: fs ++ rest) =
      ⟨(ds ++ '.' :: fs).length, .ok (.number ((Decimal.ofDigits ds fs).nearest false))⟩ := by
  have hpoint : StopsAt Char.isDigit ('.' :: (fs ++ rest)) := by
    rintro c ⟨⟩
    decide
  have hfs : (fs ++ rest).takeWhile Char.isDigit = fs := takeWhile_run hf hs
  obtain ⟨f, fs, rfl⟩ := List.exists_cons_of_ne_nil hne
  unfold ofNumber
  rw [List.append_assoc, List.cons_append, takeWhile_run hd hpoint, dropWhile_run hd hpoint]
  rw [List.cons_append] at hfs ⊢
  simp only [hfs, if_pos (hf f List.mem_cons_self), List.length_append, List.length_cons]
  rw [Nat.add_assoc, Nat.add_comm 1]

theorem ofOperator_equals (hs : StopsAt Operator.isCharacter rest) : ofOperator ('=' :: rest) = ⟨1, .ok .equals⟩ := by
  have hrun : ('=' :: rest).takeWhile Operator.isCharacter = ['='] :=
    @takeWhile_run Operator.isCharacter ['='] rest (List.all_eq_true.1 rfl) hs
  simp [ofOperator, hrun]

theorem ofOperator_symbol (op : Operator) (hs : StopsAt Operator.isCharacter rest) :
    ofOperator (op.symbol.toList ++ rest) = ⟨op.symbol.toList.length, .ok (.operator op)⟩ := by
  have hrun : (op.symbol.toList ++ rest).takeWhile Operator.isCharacter = op.symbol.toList :=
    takeWhile_run (fun _ => Operator.isCharacter_of_mem_symbol) hs
  have hne : op.symbol.toList ≠ ['='] := by cases op <;> decide
  simp [ofOperator, hrun, hne, Operator.ofSymbol?_symbol]

theorem ofStart_of_isSymbol {c : Char} (hc : isSymbol c = true) (cs : List Char) : ofStart c cs =
    if Operator.isCharacter c then ofOperator (c :: cs)
    else ⟨1, (Lexeme.punctuation.lookup c).elim (.error (.illegalStart c)) .ok⟩ := by
  unfold ofStart
  rw [if_neg (by simp [isDigit_eq_false_of_isSymbol hc]), if_neg (by simp [isLetter_eq_false_of_isSymbol hc])]

theorem ofStart_of_isCharacter {c : Char} (h : Operator.isCharacter c = true) (cs : List Char) :
    ofStart c cs = ofOperator (c :: cs) := by
  rw [ofStart_of_isSymbol (Operator.isSymbol_of_isCharacter h), if_pos h]

theorem ofStart_of_spells {text rest : List Char} {l : Lexeme} (h : Spells text rest l) :
    ∃ c cs, text = c :: cs ∧ isBlank c = false ∧ ofStart c (cs ++ rest) = ⟨text.length, .ok l⟩ := by
  cases h with
  | whole hne hd hs =>
      obtain ⟨d, ds, rfl⟩ := List.exists_cons_of_ne_nil hne
      have hd₁ := hd d List.mem_cons_self
      refine ⟨d, ds, rfl, isBlank_eq_false_of_isDigit hd₁, ?_⟩
      rw [ofStart, if_pos hd₁]
      exact ofNumber_whole hd hs
  | @fraction ds fs _ hne hd hfne hf hs =>
      obtain ⟨d, ds, rfl⟩ := List.exists_cons_of_ne_nil hne
      have hd₁ := hd d List.mem_cons_self
      refine ⟨d, ds ++ '.' :: fs, rfl, isBlank_eq_false_of_isDigit hd₁, ?_⟩
      rw [ofStart, if_pos hd₁]
      exact ofNumber_fraction hd hfne hf (stopsAt_isDigit_of_continuesNumber hs)
  | @word c cs _ hc hw hs =>
      refine ⟨c, cs, rfl, isBlank_eq_false_of_isLetter hc, ?_⟩
      rw [ofStart, if_neg (by simp [isDigit_eq_false_of_isLetter hc]), if_pos hc, ofWord, takeWhile_run hw hs]
  | equals hs =>
      have hc : Operator.isCharacter '=' = true := by decide
      refine ⟨'=', [], rfl, by decide, ?_⟩
      rw [ofStart_of_isCharacter hc]
      exact ofOperator_equals hs
  | operator op hs =>
      obtain ⟨o, os, ho⟩ : ∃ o os, op.symbol.toList = o :: os := by
        cases op <;> exact ⟨_, _, rfl⟩
      have hmem : o ∈ op.symbol.toList := by
        rw [ho]
        exact List.mem_cons_self
      have hc : Operator.isCharacter o = true := Operator.isCharacter_of_mem_symbol hmem
      refine ⟨o, os, ho, isBlank_eq_false_of_isSymbol (Operator.isSymbol_of_isCharacter hc), ?_⟩
      rw [ofStart_of_isCharacter hc, ← ofOperator_symbol op hs, ho]
      rfl
  | @paren c l _ hm =>
      obtain ⟨hc, hop⟩ := Lexeme.isSymbol_of_mem_punctuation hm
      have hl : Lexeme.punctuation.lookup c = some l := by
        simp only [Lexeme.punctuation, List.mem_cons, Prod.mk.injEq, List.not_mem_nil, or_false] at hm
        rcases hm with ⟨rfl, rfl⟩ | ⟨rfl, rfl⟩ <;> rfl
      refine ⟨c, [], rfl, isBlank_eq_false_of_isSymbol hc, ?_⟩
      rw [ofStart_of_isSymbol hc, if_neg (by simp [hop]), hl]
      rfl

/-! ## From scan to spelling -/

/-- The scanned text is the start of `cs`, and it spells the lexeme in front of what follows, or of any start of that,
unless a point comes first. -/
def Reads (cs : List Char) (n : Nat) (l : Lexeme) : Prop :=
  ∃ text rest, cs = text ++ rest ∧ text.length = n ∧
    ∀ next, next <+: rest → next.head? ≠ some '.' → Spells text next l

theorem reads_of_ofNumber {cs : List Char} {n : Nat} {l : Lexeme} (hne : cs.takeWhile Char.isDigit ≠ [])
    (h : ofNumber cs = ⟨n, .ok l⟩) : Reads cs n l := by
  have hcs : cs = cs.takeWhile Char.isDigit ++ cs.dropWhile Char.isDigit := List.takeWhile_append_dropWhile.symm
  have hd : ∀ c ∈ cs.takeWhile Char.isDigit, c.isDigit = true := List.all_eq_true.1 List.all_takeWhile
  unfold ofNumber at h
  split at h
  · cases h
  · rename_i c rest hrest
    split at h
    · rename_i hc
      cases h
      have hf : ∀ d ∈ (c :: rest).takeWhile Char.isDigit, d.isDigit = true := List.all_eq_true.1 List.all_takeWhile
      have hfne : (c :: rest).takeWhile Char.isDigit ≠ [] := by simp [hc]
      -- What follows the fraction is no digit, but it may be a point: the scan does not look at it.
      refine ⟨_, (c :: rest).dropWhile Char.isDigit, ?_, ?_, fun next hn hp => .fraction hne hd hfne hf ?_⟩
      · rw [List.append_assoc, List.cons_append, List.takeWhile_append_dropWhile, ← hrest]
        exact hcs
      · simp [Nat.add_assoc, Nat.add_comm 1]
      · intro d hd
        have hdigit := (stopsAt_dropWhile Char.isDigit (c :: rest)).of_start hn d hd
        have hpoint : d ≠ '.' := by
          rintro rfl
          exact hp hd
        simp [continuesNumber, hdigit, hpoint]
    · cases h
  · rename_i hend hpoint
    cases h
    refine ⟨_, _, hcs, rfl, fun _ hn _ => .whole hne hd (StopsAt.of_start (fun c hc => ?_) hn)⟩
    have hdigit := stopsAt_dropWhile Char.isDigit cs c hc
    obtain ⟨rest, hrest⟩ := List.head?_eq_some_iff.1 hc
    have hcp : c ≠ '.' := by
      rintro rfl
      cases rest with
      | nil => exact hend hrest
      | cons d rest => exact hpoint d rest hrest
    simp [continuesNumber, hdigit, hcp]

theorem reads_of_ofWord {c : Char} {cs : List Char} {n : Nat} {l : Lexeme} (hc : isLetter c = true)
    (h : ofWord c cs = ⟨n, .ok l⟩) : Reads (c :: cs) n l := by
  cases h
  refine ⟨c :: cs.takeWhile isWordCharacter, cs.dropWhile isWordCharacter, ?_, rfl, fun _ hn _ => .word hc ?_ ?_⟩
  · rw [List.cons_append, List.takeWhile_append_dropWhile]
  · exact List.all_eq_true.1 List.all_takeWhile
  · exact (stopsAt_dropWhile isWordCharacter cs).of_start hn

theorem reads_of_ofOperator {cs : List Char} {n : Nat} {l : Lexeme} (h : ofOperator cs = ⟨n, .ok l⟩) :
    Reads cs n l := by
  have hcs : cs = cs.takeWhile Operator.isCharacter ++ cs.dropWhile Operator.isCharacter :=
    List.takeWhile_append_dropWhile.symm
  simp only [ofOperator, Scan.mk.injEq] at h
  obtain ⟨hn, hl⟩ := h
  refine ⟨_, _, hcs, hn, fun next hnext _ => ?_⟩
  have hs := (stopsAt_dropWhile Operator.isCharacter cs).of_start hnext
  split at hl
  · rename_i hrun
    cases hl
    rw [hrun]
    exact .equals hs
  · cases hop : Operator.ofSymbol? (String.ofList (cs.takeWhile Operator.isCharacter)) with
    | none =>
        rw [hop] at hl
        cases hl
    | some op =>
        rw [hop] at hl
        cases hl
        have hsymbol : op.symbol = String.ofList (cs.takeWhile Operator.isCharacter) := by
          simpa using List.find?_some hop
        rw [← String.toList_ofList (l := cs.takeWhile Operator.isCharacter), ← hsymbol]
        exact .operator op hs

theorem reads_of_ofStart {c : Char} {cs : List Char} {n : Nat} {l : Lexeme} (h : ofStart c cs = ⟨n, .ok l⟩) :
    Reads (c :: cs) n l := by
  unfold ofStart at h
  split at h
  · rename_i hc
    exact reads_of_ofNumber (by simp [hc]) h
  · split at h
    · rename_i hc
      exact reads_of_ofWord hc h
    · split at h
      · exact reads_of_ofOperator h
      · cases hl : Lexeme.punctuation.lookup c with
        | none =>
            rw [hl] at h
            cases h
        | some l' =>
            rw [hl] at h
            cases h
            refine ⟨[c], cs, rfl, rfl, fun _ _ _ => .paren ?_⟩
            obtain ⟨before, after, hp, -⟩ := List.lookup_eq_some_iff.1 hl
            rw [hp]
            simp

end Scan

end Abacus
