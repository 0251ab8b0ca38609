import Abacus.Numeral.Reader
import Abacus.Proofs.Lexing.Spelling

/-!
# Number lexemes as numerals

The text of a number lexeme is digits, with a point between them or without. The reader of numerals drops nothing from
it and gives the number of the lexeme.
-/

namespace Abacus

variable {c : Char} {cs whole fraction text rest : List Char}

namespace Text

theorem asciiDigit_of_isDigit (h : c.isDigit = true) : asciiDigit c = c := by
  have hc : 48 ≤ c.toNat ∧ c.toNat ≤ 57 := by
    simpa [isDigit_eq_inRanges, asciiDigitRanges, inRanges] using h
  have hfind : digitRanges.find? (fun r => r.1 ≤ c.toNat && c.toNat ≤ r.2) = some (0x30, 0x39) := by
    simp [digitRanges, hc]
  have hvalue : digitValue? c = some ((c.toNat - 48) % 10) := by
    rw [digitValue?, hfind]
    rfl
  have hchar : ∀ n < 10, Nat.digitChar n = Char.ofNat (n + 48) := by decide
  rw [asciiDigit, hvalue, Option.map_some, Option.getD_some, hchar _ (by omega)]
  have hnat : (c.toNat - 48) % 10 + 48 = c.toNat := by omega
  rw [hnat, Char.ofNat_toNat]

theorem toLower_of_isDigit (h : c.isDigit = true) : c.toLower = c := by
  simp only [Char.isDigit, Bool.and_eq_true, decide_eq_true_eq, UInt32.le_iff_toNat_le] at h
  refine dif_neg fun hu => ?_
  have := UInt32.le_iff_toNat_le.1 hu.1
  simp at h this
  omega

theorem ne_point_of_isDigit (h : c.isDigit = true) : (c == '.') = false := by
  rw [beq_eq_false_iff_ne]
  rintro rfl
  cases h

/-- Nothing is trimmed from a text without characters of the class. -/
theorem trimmed_eq_self {p : Char → Bool} (h : ∀ c ∈ cs, p c = false) : trimmed p cs = cs := by
  have drop {l : List Char} (hl : ∀ c ∈ l, p c = false) : l.dropWhile p = l :=
    StopsAt.dropWhile fun c hc => hl c (List.mem_of_mem_head? hc)
  rw [trimmed, drop h, drop (by simpa using h), List.reverse_reverse]

end Text

namespace Numeral

open Text

theorem splitSign_of_isDigit (h : c.isDigit = true) : splitSign (c :: cs) = (false, c :: cs) := by
  unfold splitSign
  split
  · rename_i heq
    cases heq
    cases h
  · rename_i heq
    cases heq
    cases h
  · rfl

theorem grouped?_digits (h : ∀ c ∈ cs, c.isDigit = true) : grouped? cs = some cs := by
  induction cs with
  | nil => rfl
  | cons c cs ih =>
      unfold grouped?
      rw [if_pos (h c List.mem_cons_self)]
      split
      · cases h '_' (by simp)
      · rw [ih fun d hd => h d (List.mem_cons_of_mem _ hd)]
        rfl

theorem splitAt?_append {p : Char → Bool} (h : ∀ c ∈ cs, p c = false) (hs : StopsAt (!p ·) rest) :
    splitAt? p (cs ++ rest) = (cs, rest.tail?) := by
  have hrun : ∀ c ∈ cs, (!p c) = true := by simpa using h
  rw [splitAt?, takeWhile_run hrun hs, dropWhile_run hrun hs]

theorem splitAt?_of_forall {p : Char → Bool} (h : ∀ c ∈ cs, p c = false) : splitAt? p cs = (cs, none) := by
  have hsplit : splitAt? p (cs ++ []) = (cs, none) := splitAt?_append h fun _ hc => by cases hc
  rwa [List.append_nil] at hsplit

/-- Without a power of ten the exponent is the one that the point gives, which no bound cuts off. -/
theorem decimal?_of_splitAt? {tail? : Option (List Char)} (hne : whole ≠ [])
    (he : ∀ c ∈ cs, (c == 'e' || c == 'E') = false) (hp : splitAt? (· == '.') cs = (whole, tail?))
    (hw : ∀ c ∈ whole, c.isDigit = true) (hf : ∀ c ∈ tail?.getD [], c.isDigit = true) :
    decimal? cs = some (Decimal.ofDigits whole (tail?.getD [])) := by
  have hcount : whole.length ≠ 0 := by simpa using hne
  have hexponent : max (-(whole.length + (tail?.getD []).length + 330 : Nat) : Int)
      (min 310 (-(tail?.getD []).length + 0)) = -(tail?.getD []).length := by omega
  have hguard : (guard (whole.length + (tail?.getD []).length ≠ 0) : Option Unit) = some () := if_pos (by omega)
  rw [decimal?, splitAt?_of_forall he]
  dsimp only
  rw [hp]
  dsimp only [Option.bind_eq_bind]
  rw [grouped?_digits hw, Option.bind_some, grouped?_digits hf, Option.bind_some, exponent?, Option.bind_some, hguard,
    Option.bind_some]
  dsimp only [Decimal.ofDigits]
  rw [hexponent]
  rfl

end Numeral

open Text Numeral

/-- A digit, or the point. -/
def IsNumeric (c : Char) : Prop := c.isDigit = true ∨ c = '.'

theorem IsNumeric.isMargin (h : IsNumeric c) : isMargin c = false := by
  have hb : isBlank c = false := h.elim isBlank_eq_false_of_isDigit fun hc => by rw [hc]; decide
  rw [Numeral.isMargin, hb, Bool.false_and]

theorem IsNumeric.asciiDigit (h : IsNumeric c) : asciiDigit c = c :=
  h.elim asciiDigit_of_isDigit fun hc => by rw [hc]; decide

theorem IsNumeric.not_power (h : IsNumeric c) : (c == 'e' || c == 'E') = false := by
  rcases h with h | rfl
  · rw [Bool.eq_false_iff]
    intro hc
    simp only [Bool.or_eq_true, beq_iff_eq] at hc
    rcases hc with rfl | rfl <;> cases h
  · decide

/-- A text of digits and points that starts with a digit has no sign, and it is no word. -/
theorem ofText?_of_isNumeric (hn : ∀ d ∈ c :: cs, IsNumeric d) (hc : c.isDigit = true) :
    Binary64.ofText? (String.ofList (c :: cs)) = (decimal? (c :: cs)).map (Decimal.nearest false) := by
  have htrim : trimmed isMargin (c :: cs) = c :: cs := trimmed_eq_self fun d hd => (hn d hd).isMargin
  have hmap : (c :: cs).map asciiDigit = c :: cs := by
    rw [List.map_congr_left fun d hd => (hn d hd).asciiDigit, List.map_id']
  have hsign : splitSign (c :: cs) = (false, c :: cs) := splitSign_of_isDigit hc
  have hword {word : String} (hw : word.toList.head?.all (!·.isDigit) = true) :
      String.ofList ((c :: cs).map Char.toLower) ≠ word := by
    rintro rfl
    rw [String.toList_ofList, List.map_cons, List.head?_cons, Option.all_some, toLower_of_isDigit hc, hc] at hw
    cases hw
  simp only [Binary64.ofText?, String.toList_ofList, htrim, hmap, hsign]
  rw [if_neg (hword (by decide)), if_neg (not_or.2 ⟨hword (by decide), hword (by decide)⟩)]

/-- The text of a number lexeme is a numeral, and its number is that of the lexeme. -/
theorem ofText?_of_spells {value : Binary64} (h : Spells text rest (.number value)) :
    Binary64.ofText? (String.ofList text) = some value := by
  generalize hl : Lexeme.number value = l at h
  cases h with
  | whole hne hd _ =>
      cases hl
      have hn : ∀ d ∈ text, IsNumeric d := fun d hmem => .inl (hd d hmem)
      have hp : splitAt? (· == '.') text = (text, none) :=
        splitAt?_of_forall fun d hmem => ne_point_of_isDigit (hd d hmem)
      have hdecimal := decimal?_of_splitAt? hne (fun d hmem => (hn d hmem).not_power) hp hd (by simp)
      obtain ⟨d, ds, rfl⟩ := List.exists_cons_of_ne_nil hne
      rw [ofText?_of_isNumeric hn (hd d List.mem_cons_self), hdecimal]
      rfl
  | @fraction ds fs _ hne hd _ hf _ =>
      cases hl
      have hn : ∀ d ∈ ds ++ '.' :: fs, IsNumeric d := by
        intro d hmem
        rcases List.mem_append.1 hmem with hmem | hmem
        · exact .inl (hd d hmem)
        · exact (List.mem_cons.1 hmem).elim .inr fun hmem => .inl (hf d hmem)
      have hp : splitAt? (· == '.') (ds ++ '.' :: fs) = (ds, some fs) :=
        splitAt?_append (fun d hmem => ne_point_of_isDigit (hd d hmem)) fun d hp => by cases hp; rfl
      have hdecimal := decimal?_of_splitAt? hne (fun d hmem => (hn d hmem).not_power) hp hd (by simpa using hf)
      obtain ⟨d, ds, rfl⟩ := List.exists_cons_of_ne_nil hne
      rw [List.cons_append] at hn hdecimal ⊢
      rw [ofText?_of_isNumeric hn (hd d List.mem_cons_self), hdecimal]
      rfl
  | word =>
      simp only [Lexeme.ofWord, Lexeme.keywords, List.lookup_cons, List.lookup_nil] at hl
      split at hl
      · cases hl
      · split at hl <;> cases hl
  | equals | operator => cases hl
  | paren h =>
      subst hl
      simp [Lexeme.punctuation] at h

end Abacus
