import Abacus.Proofs.Parsing.Theorems

/-!
# Expressions that are read are canonical

A scan reads no signed number and no name that is a keyword, so neither does a parser.
-/

namespace Abacus

/-- A lexeme that a source can spell. -/
def Lexeme.readable : Lexeme → Bool
  | number value => Expr.unsigned value
  | name text => Expr.isName text
  | _ => true

theorem Binary64.unsigned_nearest (num den : Nat) : Expr.unsigned (nearest false num den) = true := by
  rw [nearest]
  cases Magnitude.nearest? num den <;> rfl

theorem Lexeme.readable_ofWord {c : Char} {cs : List Char} (hc : Text.isLetter c = true)
    (hcs : ∀ d ∈ cs, Scan.isWordCharacter d = true) : (ofWord (String.ofList (c :: cs))).readable = true := by
  rw [ofWord]
  cases hk : keywords.lookup (String.ofList (c :: cs)) with
  | none =>
      have hall : cs.all Scan.isWordCharacter = true := List.all_eq_true.2 hcs
      simp only [Option.getD_none, readable, Expr.isName, String.toList_ofList, hc, hall, hk]
      rfl
  | some l =>
      obtain ⟨before, after, hl, -⟩ := List.lookup_eq_some_iff.1 hk
      have hall : keywords.all (fun p => p.2.readable) = true := by decide
      have hmem : (String.ofList (c :: cs), l) ∈ keywords := by
        rw [hl]
        exact List.mem_append_right before List.mem_cons_self
      exact List.all_eq_true.1 hall _ hmem

theorem Spells.readable {text rest : List Char} {l : Lexeme} (h : Spells text rest l) : l.readable = true := by
  cases h with
  | whole | fraction => exact Binary64.unsigned_nearest _ _
  | word hc hcs _ => exact Lexeme.readable_ofWord hc hcs
  | equals | operator => rfl
  | paren hm =>
      have hall : Lexeme.punctuation.all (fun p => p.2.readable) = true := by decide
      exact List.all_eq_true.1 hall _ hm

theorem Segmented.readable {start : Nat} {cs : List Char} {tokens : List Token} (h : Segmented start cs tokens) :
    ∀ l ∈ lexemes tokens, l.readable = true := by
  induction h with
  | blank => simp
  | token _ hs _ ih =>
      intro l hl
      rcases List.mem_cons.1 hl with rfl | hl
      · exact hs.readable
      · exact ih l hl

namespace Expr

/-- The names and numbers of an expression are among the lexemes that write it. -/
theorem Written.readable {e : Expr} {w : List Lexeme} (h : Written e w) (hw : ∀ l ∈ w, l.readable = true) :
    e.named = true ∧ e.allLiterals unsigned = true := by
  induction h with
  | literal value => exact ⟨rfl, hw _ List.mem_cons_self⟩
  | var name => exact ⟨hw _ List.mem_cons_self, rfl⟩
  | binop op _ _ ihl ihr =>
      obtain ⟨hnl, hll⟩ := ihl fun l hl => hw l (by simp [hl])
      obtain ⟨hnr, hlr⟩ := ihr fun l hl => hw l (by simp [hl])
      simp [named, allLiterals, hnl, hll, hnr, hlr]
  | call name _ ih =>
      obtain ⟨hn, hl⟩ := ih fun l hl => hw l (by simp [hl])
      have hname : isName name = true := hw (.name name) (by simp)
      simp [named, allLiterals, hn, hl, hname]
  | paren _ ih => exact ih fun l hl => hw l (by simp [hl])
  | negate _ ih | plus _ _ ih => exact ih fun l hl => hw l (List.mem_cons_of_mem _ hl)
  | letIn name _ _ ihb ihe =>
      obtain ⟨hnb, hlb⟩ := ihb fun l hl => hw l (by simp [hl])
      obtain ⟨hne, hle⟩ := ihe fun l hl => hw l (by simp [hl])
      have hname : isName name = true := hw (.name name) (by simp)
      simp [named, allLiterals, hnb, hlb, hne, hle, hname]

end Expr

theorem Expr.canonical_iff {e : Expr} : e.canonical = true ↔
    e.hasBlank = false ∧ e.grouped = true ∧ e.named = true ∧ e.allLiterals unsigned = true := by
  simp only [canonical, Bool.and_eq_true, Bool.not_eq_true', and_assoc]

theorem canonical_of_parse {source : List Char} {e : Expr} (h : parse source = .ok e) : e.canonical = true := by
  obtain ⟨tokens, ht, hw, hg⟩ := written_of_parse h
  obtain ⟨hn, hl⟩ := hw.readable (tokenize_eq_ok_iff_segmented.1 ht).readable
  exact Expr.canonical_iff.2 ⟨hw.hasBlank, hg, hn, hl⟩

end Abacus
