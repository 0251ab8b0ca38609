import Abacus.Proofs.Expr.Record
import Abacus.Proofs.Numeral.Echo

/-!
# JSON texts

The JSON text of a record can be read in only one way, each part up to where it ends: a string ends at a quote that is
not escaped, a number in front of a comma, and a list in front of a line with a closing bracket. So different records
have different texts.
-/

namespace Abacus

namespace Text

variable {c d : Char} {m n : Nat} {text text' rest rest' : List Char}

/-! ## Hexadecimal digits -/

/-- The hexadecimal digits of a number behind zeros, `width` of them if they are enough. -/
def padded (width n : Nat) : List Char := List.replicate (width - (Nat.toDigits 16 n).length) '0' ++ Nat.toDigits 16 n

theorem toList_hex (width n : Nat) : (hex width n).toList = padded width n := by
  rw [hex, String.toList_ofList, padded]

theorem length_padded {width : Nat} (hw : 0 < width) (hn : n < Nat.pow 16 width) : (padded width n).length = width := by
  have hle : (Nat.toDigits 16 n).length ≤ width := (Nat.length_toDigits_le_iff (by decide) hw).2 hn
  rw [padded, List.length_append, List.length_replicate]
  omega

theorem padded_succ {width : Nat} (hw : 0 < width) (n : Nat) :
    padded (width + 1) n = padded width (n / 16) ++ [Nat.digitChar (n % 16)] := by
  by_cases hn : n < 16
  · have hzero : padded width 0 = List.replicate width '0' := by
      rw [padded, Nat.toDigits_zero, List.length_singleton, ← List.replicate_succ', Nat.sub_add_cancel hw]
    rw [Nat.div_eq_of_lt hn, Nat.mod_eq_of_lt hn, hzero, padded, Nat.toDigits_of_lt_base hn, List.length_singleton,
      Nat.add_sub_cancel]
  · rw [padded, padded, Nat.toDigits_of_base_le (by decide) (Nat.le_of_not_lt hn), List.length_append,
      List.length_singleton, Nat.add_sub_add_right, List.append_assoc]

theorem digitChar_inj : ∀ m < 16, ∀ n < 16, Nat.digitChar m = Nat.digitChar n → m = n := by decide

theorem padded_inj {width : Nat} (hw : 0 < width) (hm : m < Nat.pow 16 width) (hn : n < Nat.pow 16 width)
    (h : padded width m = padded width n) : m = n := by
  induction hw generalizing m n with
  | refl =>
      have hsingle {k : Nat} (hk : k < 16) : padded 1 k = [Nat.digitChar k] := by
        rw [padded, Nat.toDigits_of_lt_base hk]
        rfl
      rw [hsingle hm, hsingle hn] at h
      exact digitChar_inj m hm n hn (List.cons.inj h).1
  | @step width hw ih =>
      rw [padded_succ hw, padded_succ hw] at h
      obtain ⟨hdiv, hmod⟩ := List.append_inj' h rfl
      have hlast := digitChar_inj _ (Nat.mod_lt m (by decide)) _ (Nat.mod_lt n (by decide)) (List.cons.inj hmod).1
      have hlt {k : Nat} (hk : k < Nat.pow 16 (width + 1)) : k / 16 < Nat.pow 16 width :=
        Nat.div_lt_of_lt_mul (Nat.mul_comm _ 16 ▸ hk)
      have hrest := ih (hlt hm) (hlt hn) hdiv
      omega

/-! ## Characters -/

/-- The characters with a short escape, each with the mark behind its backslash. -/
def jsonMarks : List (Char × Char) :=
  [('"', '"'), ('\\', '\\'), ('\n', 'n'), ('\r', 'r'), ('\t', 't'), ('\x0c', 'f'), ('\x08', 'b')]

theorem mark_ne_u : ∀ p ∈ jsonMarks, p.2 ≠ 'u' := by decide

theorem mark_inj : ∀ p ∈ jsonMarks, ∀ q ∈ jsonMarks, p.2 = q.2 → p.1 = q.1 := by decide

/-- An escape with the digits of a unit of UTF-16. -/
def unitEscape (n : Nat) : List Char := '\\' :: 'u' :: padded 4 n

theorem toList_jsonUnit (n : Nat) : (jsonUnit n).toList = unitEscape n := by
  rw [jsonUnit, String.toList_append, toList_hex]
  rfl

theorem unitEscape_append_inj (hm : m < 0x10000) (hn : n < 0x10000)
    (h : unitEscape m ++ rest = unitEscape n ++ rest') : m = n ∧ rest = rest' := by
  simp only [unitEscape, List.cons_append, List.cons.injEq, true_and] at h
  have hlength : (padded 4 m).length = (padded 4 n).length := by
    rw [length_padded (by decide) hm, length_padded (by decide) hn]
  obtain ⟨hdigits, hrest⟩ := List.append_inj h hlength
  exact ⟨padded_inj (show 0 < 4 by decide) hm hn hdigits, hrest⟩

/-- The ways in which a character is written in a string. -/
inductive JsonWritten (c : Char) : List Char → Prop
  | marked {mark : Char} : (c, mark) ∈ jsonMarks → JsonWritten c ['\\', mark]
  | visible : c ≠ '"' → c ≠ '\\' → JsonWritten c [c]
  | unit : c.toNat < 0x10000 → JsonWritten c (unitEscape c.toNat)
  | surrogates {n : Nat} : c.toNat = 0x10000 + n →
      JsonWritten c (unitEscape (0xd800 + n / 0x400) ++ unitEscape (0xdc00 + n % 0x400))

theorem jsonWritten (c : Char) : JsonWritten c (jsonChar c).toList := by
  by_cases hmark : c ∈ jsonMarks.map Prod.fst
  · simp only [jsonMarks, List.map_cons, List.map_nil, List.mem_cons, List.not_mem_nil, or_false] at hmark
    rcases hmark with rfl | rfl | rfl | rfl | rfl | rfl | rfl <;> exact .marked (by decide)
  · simp only [jsonMarks, List.map_cons, List.map_nil, List.mem_cons, List.not_mem_nil, or_false, not_or] at hmark
    obtain ⟨hquote, hslash, hn, hr, ht, hf, hb⟩ := hmark
    rw [jsonChar, if_neg hquote, if_neg hslash, if_neg hn, if_neg hr, if_neg ht, if_neg hf, if_neg hb]
    split
    · rw [Char.toString_eq_singleton, String.toList_singleton]
      exact .visible hquote hslash
    · split
      case isTrue hunit =>
        rw [toList_jsonUnit]
        exact .unit hunit
      case isFalse hunit =>
        rw [String.toList_append, toList_jsonUnit, toList_jsonUnit]
        exact .surrogates (by omega)

/-- The code point of a character stands outside of the surrogates. -/
theorem toNat_cases (c : Char) : c.toNat < 0xd800 ∨ 0xdfff < c.toNat ∧ c.toNat < 0x110000 := c.valid

/-- A character in one unit is not written like the first half of a pair. -/
theorem unitEscape_append_ne (hunit : c.toNat < 0x10000) (hpoint : d.toNat = 0x10000 + n) :
    unitEscape c.toNat ++ rest ≠ unitEscape (0xd800 + n / 0x400) ++ rest' := by
  intro h
  have hd := toNat_cases d
  have hhigh := (unitEscape_append_inj hunit (by omega) h).1
  have hc := toNat_cases c
  omega

theorem JsonWritten.append_inj (hc : JsonWritten c text) (hd : JsonWritten d text')
    (h : text ++ rest = text' ++ rest') : c = d ∧ rest = rest' := by
  cases hc with
  | marked hmark =>
      cases hd with
      | marked hmark' =>
          simp only [List.cons_append, List.nil_append, List.cons.injEq, true_and] at h
          exact ⟨mark_inj _ hmark _ hmark' h.1, h.2⟩
      | visible _ hslash => exact absurd (List.cons.inj h).1.symm hslash
      | unit | surrogates => exact absurd (List.cons.inj (List.cons.inj h).2).1 (mark_ne_u _ hmark)
  | visible _ hslash =>
      cases hd with
      | visible _ _ => exact List.cons.inj h
      | marked | unit | surrogates => exact absurd (List.cons.inj h).1 hslash
  | unit hunit =>
      cases hd with
      | marked hmark' => exact absurd (List.cons.inj (List.cons.inj h).2).1.symm (mark_ne_u _ hmark')
      | visible _ hslash => exact absurd (List.cons.inj h).1.symm hslash
      | unit hunit' =>
          obtain ⟨hpoint, hrest⟩ := unitEscape_append_inj hunit hunit' h
          exact ⟨Char.toNat_inj.1 hpoint, hrest⟩
      | surrogates hpoint =>
          rw [List.append_assoc] at h
          exact absurd h (unitEscape_append_ne hunit hpoint)
  | surrogates hpoint =>
      rw [List.append_assoc] at h
      cases hd with
      | marked hmark' => exact absurd (List.cons.inj (List.cons.inj h).2).1.symm (mark_ne_u _ hmark')
      | visible _ hslash => exact absurd (List.cons.inj h).1.symm hslash
      | unit hunit' => exact absurd h.symm (unitEscape_append_ne hunit' hpoint)
      | surrogates hpoint' =>
          have hc := toNat_cases c
          have hd := toNat_cases d
          rw [List.append_assoc] at h
          obtain ⟨hhigh, hlow⟩ := unitEscape_append_inj (by omega) (by omega) h
          obtain ⟨hlow, hrest⟩ := unitEscape_append_inj (by omega) (by omega) hlow
          exact ⟨Char.toNat_inj.1 (by omega), hrest⟩

/-! ## Strings -/

/-- The text of a string between its quotes. -/
def jsonBody (cs : List Char) : List Char := cs.flatMap fun c => (jsonChar c).toList

theorem jsonString_append (s : String) (rest : List Char) :
    (jsonString s).toList ++ rest = '"' :: (jsonBody s.toList ++ '"' :: rest) := by
  simp [jsonString, jsonBody, List.flatMap_map]

/-- A character is not written with a quote in front, which would end the string. -/
theorem JsonWritten.ne_quote_cons (h : JsonWritten c text) : text ++ rest ≠ '"' :: rest' := by
  cases h with
  | visible hquote _ => exact fun h => hquote (List.cons.inj h).1
  | marked | unit | surrogates => exact fun h => absurd (List.cons.inj h).1 (by decide)

theorem jsonBody_append_inj {cs ds : List Char} (h : jsonBody cs ++ '"' :: rest = jsonBody ds ++ '"' :: rest') :
    cs = ds ∧ rest = rest' := by
  induction cs generalizing ds with
  | nil =>
      cases ds with
      | nil => exact ⟨rfl, (List.cons.inj h).2⟩
      | cons d ds =>
          rw [jsonBody, jsonBody, List.flatMap_cons, List.append_assoc] at h
          exact absurd h.symm (jsonWritten d).ne_quote_cons
  | cons c cs ih =>
      rw [jsonBody, List.flatMap_cons, List.append_assoc] at h
      cases ds with
      | nil => exact absurd h (jsonWritten c).ne_quote_cons
      | cons d ds =>
          rw [jsonBody, List.flatMap_cons, List.append_assoc] at h
          obtain ⟨hchar, hrest⟩ := (jsonWritten c).append_inj (jsonWritten d) h
          obtain ⟨hcs, hend⟩ := ih hrest
          exact ⟨by rw [hchar, hcs], hend⟩

theorem jsonString_append_inj {s t : String} (h : (jsonString s).toList ++ rest = (jsonString t).toList ++ rest') :
    s = t ∧ rest = rest' := by
  rw [jsonString_append, jsonString_append] at h
  obtain ⟨htext, hrest⟩ := jsonBody_append_inj (List.cons.inj h).2
  exact ⟨String.toList_inj.1 htext, hrest⟩

end Text

namespace Record

variable {rest rest' : List Char}

/-! ## Values -/

/-- The text of a number without its sign. -/
def unsignedText : Binary64 → List Char
  | .nan => ['N', 'a', 'N']
  | .infinite _ => ['I', 'n', 'f', 'i', 'n', 'i', 't', 'y']
  | .finite _ m => Binary64.echoDigits m.shortest

theorem toList_jsonNumber (x : Binary64) :
    (jsonNumber x).toList = (if x.isNegative then ['-'] else []) ++ unsignedText x := by
  cases x with
  | nan => simp [jsonNumber, Binary64.isNegative, unsignedText]
  | infinite s => cases s <;> simp [jsonNumber, Binary64.signText, Binary64.isNegative, unsignedText]
  | finite s m =>
      have hecho : jsonNumber (.finite s m) = (Binary64.finite s m).echo := rfl
      rw [hecho, Binary64.echo, String.toList_append, String.toList_ofList, Binary64.signText, unsignedText,
        Binary64.isNegative]
      cases s <;> rfl

theorem isDigit_head_echoDigits {d : Decimal} {c : Char} {cs : List Char} (h : Binary64.echoDigits d = c :: cs) :
    c.isDigit = true := by
  obtain ⟨first, rest, hfirst, hdigit⟩ := Binary64.exists_digit_echoDigits d
  rw [hfirst] at h
  exact (List.cons.inj h).1 ▸ hdigit

theorem head_unsignedText (x : Binary64) :
    ∃ c cs, unsignedText x = c :: cs ∧ (c = 'N' ∨ c = 'I' ∨ c.isDigit = true) := by
  cases x with
  | nan => exact ⟨_, _, rfl, .inl rfl⟩
  | infinite => exact ⟨_, _, rfl, .inr (.inl rfl)⟩
  | finite s m =>
      obtain ⟨c, cs, hcs, hc⟩ := Binary64.exists_digit_echoDigits m.shortest
      exact ⟨c, cs, hcs, .inr (.inr hc)⟩

theorem unsignedText_append_ne_cons {c : Char} (hc : c ≠ 'N' ∧ c ≠ 'I' ∧ c.isDigit = false) (x : Binary64)
    (rest cs : List Char) : unsignedText x ++ rest ≠ c :: cs := by
  obtain ⟨d, ds, hx, hd⟩ := head_unsignedText x
  rw [hx]
  rintro ⟨⟩
  simp_all

theorem comma_not_mem_unsignedText (x : Binary64) : ∀ c ∈ unsignedText x, (c != ',') = true := by
  cases x with
  | nan | infinite => simp [unsignedText]
  | finite s m =>
      intro c hc
      rw [bne_iff_ne]
      rintro rfl
      cases Binary64.isEchoCharacter_of_mem_echoDigits hc

theorem unsignedText_inj {x y : Binary64} (hsign : x.isNegative = y.isNegative) (h : unsignedText x = unsignedText y) :
    x = y := by
  cases x with
  | nan =>
      cases y with
      | nan => rfl
      | infinite => cases h
      | finite => exact absurd (isDigit_head_echoDigits h.symm) (by decide)
  | infinite s =>
      cases y with
      | nan => cases h
      | infinite t => exact congrArg _ hsign
      | finite => exact absurd (isDigit_head_echoDigits h.symm) (by decide)
  | finite s m =>
      cases y with
      | nan | infinite => exact absurd (isDigit_head_echoDigits h) (by decide)
      | finite t n =>
          obtain rfl : s = t := hsign
          rw [Binary64.eq_of_echoDigits_shortest h]

theorem jsonNumber_inj {x y : Binary64} (h : (jsonNumber x).toList = (jsonNumber y).toList) : x = y := by
  have hminus (x : Binary64) (cs : List Char) : unsignedText x ≠ '-' :: cs := by
    simpa using unsignedText_append_ne_cons (by decide) x [] cs
  rw [toList_jsonNumber, toList_jsonNumber] at h
  cases hx : x.isNegative <;> cases hy : y.isNegative <;> rw [hx, hy] at h
  · exact unsignedText_inj (hx.trans hy.symm) h
  · exact absurd h (hminus x _)
  · exact absurd h.symm (hminus y _)
  · exact unsignedText_inj (hx.trans hy.symm) (List.cons.inj h).2

theorem comma_not_mem_jsonNumber (x : Binary64) : ∀ c ∈ (jsonNumber x).toList, (c != ',') = true := by
  intro c hc
  rw [toList_jsonNumber, List.mem_append] at hc
  rcases hc with hc | hc
  · split at hc <;> simp_all
  · exact comma_not_mem_unsignedText x c hc

/-- A comma ends a number. -/
theorem jsonNumber_append_inj {x y : Binary64}
    (h : (jsonNumber x).toList ++ ',' :: rest = (jsonNumber y).toList ++ ',' :: rest') : x = y ∧ rest = rest' := by
  obtain ⟨hnumber, hrest⟩ := run_append_inj (comma_not_mem_jsonNumber x) (comma_not_mem_jsonNumber y) (.cons rfl _)
    (.cons rfl _) h
  exact ⟨jsonNumber_inj hnumber, (List.cons.inj hrest).2⟩

theorem jsonNumber_append_ne_cons {c : Char} (hc : c = 'n' ∨ c = '"') (x : Binary64) (rest cs : List Char) :
    (jsonNumber x).toList ++ rest ≠ c :: cs := by
  rw [toList_jsonNumber, List.append_assoc]
  split
  · rintro ⟨⟩
    simp at hc
  · exact unsignedText_append_ne_cons (by rcases hc with rfl | rfl <;> decide) x rest cs

theorem Value.json_append_inj {v w : Value} (h : v.json.toList ++ ',' :: rest = w.json.toList ++ ',' :: rest') :
    v = w ∧ rest = rest' := by
  cases v with
  | absent =>
      cases w with
      | absent => exact ⟨rfl, by simpa [json] using h⟩
      | number y => exact absurd h.symm (jsonNumber_append_ne_cons (.inl rfl) y _ _)
      | text t =>
          rw [json, json, Text.jsonString_append] at h
          exact absurd (List.cons.inj h).1 (by decide)
  | number x =>
      cases w with
      | absent => exact absurd h (jsonNumber_append_ne_cons (.inl rfl) x _ _)
      | number y =>
          obtain ⟨rfl, hrest⟩ := jsonNumber_append_inj h
          exact ⟨rfl, hrest⟩
      | text t =>
          rw [json, json, Text.jsonString_append] at h
          exact absurd h (jsonNumber_append_ne_cons (.inr rfl) x _ _)
  | text s =>
      cases w with
      | absent =>
          rw [json, json, Text.jsonString_append] at h
          exact absurd (List.cons.inj h).1 (by decide)
      | number y =>
          rw [json, json, Text.jsonString_append] at h
          exact absurd h.symm (jsonNumber_append_ne_cons (.inr rfl) y _ _)
      | text t =>
          obtain ⟨rfl, hrest⟩ := Text.jsonString_append_inj h
          exact ⟨rfl, (List.cons.inj hrest).2⟩

/-! ## Records -/

/-- The items of a list behind the first, up to the closing bracket. -/
def following (level : Nat) : List Record → List Char
  | [] => (newline level).toList ++ [']']
  | c :: cs => ',' :: ((newline (level + 1)).toList ++ ((jsonAt (level + 1) c).toList ++ following level cs))

theorem following_eq (level : Nat) (first : String) (cs : List Record) :
    ((',' :: (newline (level + 1)).toList).intercalate (first.toList :: (jsonAll (level + 1) cs).map String.toList)) ++
      ((newline level).toList ++ [']']) = first.toList ++ following level cs := by
  induction cs generalizing first with
  | nil => simp [jsonAll, following]
  | cons c cs ih =>
      rw [jsonAll, List.map_cons, List.intercalate_cons_cons, List.append_assoc, ih, following]
      simp

theorem toList_enclosed_nil (level : Nat) : (enclosed level "[" "]" (jsonAll (level + 1) [])).toList = ['[', ']'] := by
  simp [jsonAll, enclosed]

theorem toList_enclosed_cons (level : Nat) (c : Record) (cs : List Record) :
    (enclosed level "[" "]" (jsonAll (level + 1) (c :: cs))).toList =
      '[' :: ((newline (level + 1)).toList ++ ((jsonAt (level + 1) c).toList ++ following level cs)) := by
  rw [← following_eq]
  simp [enclosed, jsonAll, String.toList_intercalate]

theorem newline_append_ne_cons {c : Char} (hc : c ≠ '\n') (level : Nat) (rest cs : List Char) :
    (newline level).toList ++ rest ≠ c :: cs := by
  rw [newline, String.toList_append]
  exact fun h => hc (List.cons.inj h).1.symm

/-- The text behind a list of children. -/
def closing (level : Nat) : List Char := (newline level).toList ++ ['\x7d']

theorem toList_jsonAt (level : Nat) (kind : String) (value : Value) (children : List Record) (rest : List Char) :
    (jsonAt level (.node kind value children)).toList ++ rest =
      '\x7b' :: ((newline (level + 1)).toList ++ ((entry "kind" "").toList ++ ((Text.jsonString kind).toList ++
        ',' :: ((newline (level + 1)).toList ++ ((entry "value" "").toList ++ (value.json.toList ++
        ',' :: ((newline (level + 1)).toList ++ ((entry "children" "").toList ++
          ((enclosed (level + 1) "[" "]" (jsonAll (level + 2) children)).toList ++
            (closing level ++ rest)))))))))) := by
  simp [jsonAt, enclosed, entry, closing]

mutual
theorem jsonAt_append_inj (level : Nat) : (r s : Record) → {rest rest' : List Char} →
    (jsonAt level r).toList ++ rest = (jsonAt level s).toList ++ rest' → r = s ∧ rest = rest'
  | .node kind value children, .node kind' value' children' => by
      intro h
      rw [toList_jsonAt, toList_jsonAt] at h
      have hkind := List.append_cancel_left (List.append_cancel_left (List.cons.inj h).2)
      obtain ⟨rfl, hvalue⟩ := Text.jsonString_append_inj hkind
      have hvalue := List.append_cancel_left (List.append_cancel_left (List.cons.inj hvalue).2)
      obtain ⟨rfl, hchildren⟩ := Value.json_append_inj hvalue
      have hchildren := List.append_cancel_left (List.append_cancel_left hchildren)
      obtain ⟨rfl, hrest⟩ := jsonAll_append_inj (level + 1) children children' hchildren
      exact ⟨rfl, List.append_cancel_left hrest⟩

theorem jsonAll_append_inj (level : Nat) : (cs ds : List Record) → {rest rest' : List Char} →
    (enclosed level "[" "]" (jsonAll (level + 1) cs)).toList ++ rest =
      (enclosed level "[" "]" (jsonAll (level + 1) ds)).toList ++ rest' → cs = ds ∧ rest = rest'
  | [], [] => fun h => ⟨rfl, List.append_cancel_left h⟩
  | [], d :: ds => by
      intro h
      simp only [toList_enclosed_nil, toList_enclosed_cons, List.cons_append, List.append_assoc, List.cons.injEq] at h
      exact absurd h.2.symm (newline_append_ne_cons (by decide) _ _ _)
  | c :: cs, [] => by
      intro h
      simp only [toList_enclosed_nil, toList_enclosed_cons, List.cons_append, List.append_assoc, List.cons.injEq] at h
      exact absurd h.2 (newline_append_ne_cons (by decide) _ _ _)
  | c :: cs, d :: ds => by
      intro h
      simp only [toList_enclosed_cons, List.cons_append, List.append_assoc, List.cons.injEq, true_and] at h
      obtain ⟨rfl, hrest⟩ := jsonAt_append_inj (level + 1) c d (List.append_cancel_left h)
      obtain ⟨rfl, hend⟩ := following_append_inj level cs ds hrest
      exact ⟨rfl, hend⟩

theorem following_append_inj (level : Nat) : (cs ds : List Record) → {rest rest' : List Char} →
    following level cs ++ rest = following level ds ++ rest' → cs = ds ∧ rest = rest'
  | [], [] => fun h => ⟨rfl, List.append_cancel_left h⟩
  | [], d :: ds => by
      intro h
      rw [following, List.append_assoc] at h
      exact absurd h (newline_append_ne_cons (by decide) _ _ _)
  | c :: cs, [] => by
      intro h
      rw [following, following, List.append_assoc] at h
      exact absurd h.symm (newline_append_ne_cons (by decide) _ _ _)
  | c :: cs, d :: ds => by
      intro h
      simp only [following, List.cons_append, List.append_assoc, List.cons.injEq, true_and] at h
      obtain ⟨rfl, hrest⟩ := jsonAt_append_inj (level + 1) c d (List.append_cancel_left h)
      obtain ⟨rfl, hend⟩ := following_append_inj level cs ds hrest
      exact ⟨rfl, hend⟩
end

/-- No two records have one JSON text. -/
theorem json_inj {r s : Record} (h : r.json = s.json) : r = s := by
  have hlist : (jsonAt 0 r).toList ++ [] = (jsonAt 0 s).toList ++ [] := by rw [← json, ← json, h]
  exact (jsonAt_append_inj 0 r s hlist).1

end Record

namespace Expr

/-! ## Expressions -/

/-- Equality and records say the same: the comparison of two expressions gives the comparison of their records, and two
expressions with one JSON text are equal. Equality is an equivalence that every kind of node keeps. -/
theorem equality_of_records :
    (∀ a b : Comparable, a.val.equal? b.val = some (a.val.record.same b.val.record)) ∧
    (∀ a b : Comparable, a.val.record.json = b.val.record.json → a.Equal b) ∧
    Equivalence Comparable.Equal ∧ Congruence fun a b => a.equal? b = some true := by
  have hrecord (a b : Comparable) : a.val.equal? b.val = some (a.val.record.same b.val.record) :=
    equal?_eq_record_same (comparable_iff.1 a.property).1
  refine ⟨hrecord, fun a b h => ?_, Comparable.equal_equivalence, equal?_congruence⟩
  have hself : a.val.equal? a.val = some true := Comparable.equal_equivalence.refl a
  rwa [Comparable.Equal, hrecord a b, ← Record.json_inj h, ← hrecord a a]

/-- The two zeros are written differently, but they are equal. -/
theorem equality_of_records_zeros :
    (binop .sub (var "x") (literal .zero)).record.same (binop .sub (var "x") (literal Binary64.zero.neg)).record =
      true := by
  have h := equality_of_records.1 ⟨binop .sub (var "x") (literal .zero), by decide⟩
    ⟨binop .sub (var "x") (literal Binary64.zero.neg), by decide⟩
  have hequal : (binop .sub (var "x") (literal .zero)).equal? (binop .sub (var "x") (literal Binary64.zero.neg)) =
    some true := by decide
  exact Option.some.inj (h.symm.trans hequal)

end Expr

end Abacus
