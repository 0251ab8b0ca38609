import Abacus.Expr.Echo
import Abacus.Proofs.Expr.Equality
import Abacus.Proofs.Lexing.Borders
import Abacus.Proofs.Numeral.Echo

/-!
# The echo of expressions

The first character of an echo tells a number, a word, an operation, a parenthesis and a sign apart. A word is the keyword
of a binding, or a name with a parenthesis behind it or without. So the parts of an echo can be read in only one way, each
up to where it closes, and the echo of an expression determines it.
-/

namespace Abacus.Expr

open Text

variable {a b e : Expr} {cs rest rest' : List Char}

/-! ## Parts of an echo -/

theorem echo_literal {x : Binary64} (h : finiteUnsigned x = true) : ∃ m, x = .finite false m ∧
    (literal x).echo.toList = Binary64.echoDigits m.shortest := by
  cases x with
  | nan | infinite => cases h
  | finite negative m =>
      cases negative with
      | true => cases h
      | false =>
          refine ⟨m, rfl, ?_⟩
          change (Binary64.signText false ++ String.ofList (Binary64.echoDigits m.shortest)).toList = _
          simp [Binary64.signText]

theorem echo_binop (op : Operator) (l r : Expr) (rest : List Char) : (binop op l r).echo.toList ++ rest =
    '[' :: (l.echo.toList ++ ' ' :: (op.symbol.toList ++ ' ' :: (r.echo.toList ++ ']' :: rest))) := by
  change ("[" ++ l.echo ++ " " ++ op.symbol ++ " " ++ r.echo ++ "]").toList ++ rest = _
  simp

theorem echo_call (name : String) (e : Expr) (rest : List Char) : (call name e).echo.toList ++ rest =
    name.toList ++ '(' :: (e.echo.toList ++ ')' :: rest) := by
  change (name ++ "(" ++ e.echo ++ ")").toList ++ rest = _
  simp

theorem echo_paren (e : Expr) (rest : List Char) : (paren e).echo.toList ++ rest =
    '(' :: (e.echo.toList ++ ')' :: rest) := by
  change ("(" ++ e.echo ++ ")").toList ++ rest = _
  simp

theorem echo_negate (e : Expr) (rest : List Char) : (negate e).echo.toList ++ rest =
    '-' :: (e.echo.toList ++ rest) := by
  change ("-" ++ e.echo).toList ++ rest = _
  simp

theorem echo_letIn (name : String) (bound body : Expr) (rest : List Char) :
    (letIn name bound body).echo.toList ++ rest = ['l', 'e', 't'] ++ ' ' :: (name.toList ++ ' ' :: '=' :: ' ' ::
      (bound.echo.toList ++ ' ' :: 'i' :: 'n' :: ' ' :: (body.echo.toList ++ rest))) := by
  change ("let " ++ name ++ " = " ++ bound.echo ++ " in " ++ body.echo).toList ++ rest = _
  simp

/-! ## Where parts close -/

/-- What stands behind the echo of a part, or of the whole. -/
def Closes (rest : List Char) : Prop := ∀ c ∈ rest.head?, c = ' ' ∨ c = ')' ∨ c = ']'

theorem closes_nil : Closes [] := fun _ h => nomatch h

theorem closes_cons {c : Char} (h : c = ' ' ∨ c = ')' ∨ c = ']') (cs : List Char) : Closes (c :: cs) := by
  rintro d ⟨⟩
  exact h

theorem closes_space (cs : List Char) : Closes (' ' :: cs) := closes_cons (.inl rfl) cs

theorem closes_paren (cs : List Char) : Closes (')' :: cs) := closes_cons (.inr (.inl rfl)) cs

theorem closes_bracket (cs : List Char) : Closes (']' :: cs) := closes_cons (.inr (.inr rfl)) cs

theorem Closes.stopsAt_isWordCharacter (h : Closes rest) : StopsAt Scan.isWordCharacter rest := by
  intro c hc
  rcases h c hc with rfl | rfl | rfl
  · exact Scan.isWordCharacter_eq_false_of_isBlank (by decide)
  · exact Scan.isWordCharacter_eq_false_of_isSymbol (by decide)
  · exact Scan.isWordCharacter_eq_false_of_isSymbol (by decide)

theorem Closes.stopsAt_isEchoCharacter (h : Closes rest) : StopsAt Binary64.isEchoCharacter rest := by
  intro c hc
  rcases h c hc with rfl | rfl | rfl <;> rfl

theorem stopsAt_space (cs : List Char) : StopsAt Scan.isWordCharacter (' ' :: cs) :=
  (closes_space cs).stopsAt_isWordCharacter

theorem stopsAt_openParen (cs : List Char) : StopsAt Scan.isWordCharacter ('(' :: cs) :=
  .cons (Scan.isWordCharacter_eq_false_of_isSymbol (by decide)) cs

/-! ## Words -/

theorem isWordCharacter_of_mem_name {name : String} (h : isName name = true) :
    ∀ c ∈ name.toList, Scan.isWordCharacter c = true := by
  obtain ⟨c, cs, hname, hc, hcs, -⟩ := exists_cons_of_isName h
  rw [hname]
  rintro d (_ | ⟨_, hd⟩)
  · rw [Scan.isWordCharacter, hc, Bool.true_or]
  · exact hcs d hd

theorem name_append_inj {name name' : String} (hn : isName name = true) (hn' : isName name' = true)
    (hs : StopsAt Scan.isWordCharacter rest) (hs' : StopsAt Scan.isWordCharacter rest')
    (h : name.toList ++ rest = name'.toList ++ rest') : name = name' ∧ rest = rest' := by
  obtain ⟨hname, hrest⟩ :=
    run_append_inj (isWordCharacter_of_mem_name hn) (isWordCharacter_of_mem_name hn') hs hs' h
  exact ⟨String.toList_inj.1 hname, hrest⟩

theorem name_ne_letWord {name : String} (h : isName name = true) : name.toList ≠ ['l', 'e', 't'] := by
  intro hname
  obtain ⟨c, cs, -, -, -, hkey⟩ := exists_cons_of_isName h
  have hlet : name = "let" := String.toList_inj.1 hname
  rw [hlet] at hkey
  cases hkey

theorem symbol_append_inj {op op' : Operator} (h : op.symbol.toList ++ ' ' :: rest = op'.symbol.toList ++ ' ' :: rest') :
    op = op' ∧ rest = rest' := by
  have hclass (op : Operator) : ∀ c ∈ op.symbol.toList, Operator.isCharacter c = true :=
    fun _ hc => Operator.isCharacter_of_mem_symbol hc
  have hs (cs : List Char) : StopsAt Operator.isCharacter (' ' :: cs) := .cons (by decide) cs
  obtain ⟨hop, hrest⟩ := run_append_inj (hclass op) (hclass op') (hs rest) (hs rest') h
  exact ⟨Operator.symbol_inj (String.toList_inj.1 hop), (List.cons.inj hrest).2⟩

/-! ## Openings -/

/-- The kind of the node that the start of an echo announces. -/
inductive Opening where
  | number
  | name
  | call
  | binding
  | bracket
  | paren
  | minus
  | nothing

namespace Opening

def ofText : List Char → Opening
  | [] => nothing
  | c :: cs =>
    if c.isDigit then number
    else if isLetter c then
      let word := (c :: cs).takeWhile Scan.isWordCharacter
      if word = ['l', 'e', 't'] then binding
      else if ((c :: cs).dropWhile Scan.isWordCharacter).head? = some '(' then call
      else name
    else if c = '[' then bracket
    else if c = '(' then paren
    else minus

theorem ofText_of_isSymbol {c : Char} (h : isSymbol c = true) (cs : List Char) :
    ofText (c :: cs) = if c = '[' then bracket else if c = '(' then paren else minus := by
  rw [ofText, if_neg (by simp [isDigit_eq_false_of_isSymbol h]), if_neg (by simp [isLetter_eq_false_of_isSymbol h])]

theorem ofText_letWord (hs : StopsAt Scan.isWordCharacter rest) : ofText (['l', 'e', 't'] ++ rest) = binding := by
  have hrun : ∀ c ∈ ['l', 'e', 't'], Scan.isWordCharacter c = true := List.all_eq_true.1 rfl
  have hword := takeWhile_run hrun hs
  rw [List.cons_append] at hword ⊢
  rw [ofText, if_neg (by decide), if_pos (by decide), hword, if_pos rfl]

theorem ofText_name {name : String} (h : isName name = true) (hs : StopsAt Scan.isWordCharacter rest) :
    ofText (name.toList ++ rest) = if rest.head? = some '(' then call else .name := by
  have hword := takeWhile_run (isWordCharacter_of_mem_name h) hs
  have hrest := dropWhile_run (isWordCharacter_of_mem_name h) hs
  have hlet := name_ne_letWord h
  obtain ⟨c, cs, hname, hc, -⟩ := exists_cons_of_isName h
  rw [hname, List.cons_append] at hword hrest ⊢
  rw [ofText, if_neg (by simp [isDigit_eq_false_of_isLetter hc]), if_pos hc, hword, if_neg (hname ▸ hlet), hrest]

end Opening

def opening : Expr → Opening
  | literal _ => .number
  | var _ => .name
  | binop .. => .bracket
  | call .. => .call
  | paren _ => .paren
  | negate _ => .minus
  | letIn .. => .binding
  | blank => .nothing

theorem ofText_echo (h : e.legible = true) (hr : Closes rest) : Opening.ofText (e.echo.toList ++ rest) = e.opening := by
  cases e with
  | literal x =>
      obtain ⟨m, -, hecho⟩ := echo_literal h
      obtain ⟨c, cs, hcs, hc⟩ := Binary64.exists_digit_echoDigits m.shortest
      rw [hecho, hcs, List.cons_append, Opening.ofText, if_pos hc]
      rfl
  | var name =>
      have hcall : rest.head? ≠ some '(' := by
        intro hc
        simpa using hr '(' hc
      exact (Opening.ofText_name h hr.stopsAt_isWordCharacter).trans (if_neg hcall)
  | binop op l r => rw [echo_binop, Opening.ofText_of_isSymbol (by decide)]; rfl
  | call name e =>
      simp only [legible, Bool.and_eq_true] at h
      rw [echo_call, Opening.ofText_name h.1 (stopsAt_openParen _)]
      rfl
  | paren e => rw [echo_paren, Opening.ofText_of_isSymbol (by decide)]; rfl
  | negate e => rw [echo_negate, Opening.ofText_of_isSymbol (by decide)]; rfl
  | letIn name bound body => rw [echo_letIn, Opening.ofText_letWord (stopsAt_space _)]; rfl
  | blank => cases h

/-! ## Unique reading -/

theorem opening_eq (ha : a.legible = true) (hb : b.legible = true) (hr : Closes rest) (hr' : Closes rest')
    (h : a.echo.toList ++ rest = b.echo.toList ++ rest') : a.opening = b.opening := by
  rw [← ofText_echo ha hr, h, ofText_echo hb hr']

/-- An echo with something behind it is read in one way. -/
theorem echo_append_inj (ha : a.legible = true) (hb : b.legible = true) (hr : Closes rest) (hr' : Closes rest')
    (h : a.echo.toList ++ rest = b.echo.toList ++ rest') : a = b ∧ rest = rest' := by
  induction a generalizing b rest rest' with
  | literal x =>
      cases b with
      | literal y =>
          obtain ⟨m, rfl, hx⟩ := echo_literal ha
          obtain ⟨n, rfl, hy⟩ := echo_literal hb
          rw [hx, hy] at h
          obtain ⟨hdigits, hrest⟩ := run_append_inj (fun _ hc => Binary64.isEchoCharacter_of_mem_echoDigits hc)
            (fun _ hc => Binary64.isEchoCharacter_of_mem_echoDigits hc) hr.stopsAt_isEchoCharacter
            hr'.stopsAt_isEchoCharacter h
          rw [Binary64.eq_of_echoDigits_shortest hdigits]
          exact ⟨rfl, hrest⟩
      | _ => cases opening_eq ha hb hr hr' h
  | var name =>
      cases b with
      | var name' =>
          obtain ⟨hname, hrest⟩ := name_append_inj ha hb hr.stopsAt_isWordCharacter hr'.stopsAt_isWordCharacter h
          exact ⟨by rw [hname], hrest⟩
      | _ => cases opening_eq ha hb hr hr' h
  | binop op l r ihl ihr =>
      cases b with
      | binop op' l' r' =>
          simp only [legible, Bool.and_eq_true] at ha hb
          rw [echo_binop, echo_binop] at h
          obtain ⟨hl, hl'⟩ := ihl ha.1 hb.1 (closes_space _) (closes_space _) (List.cons.inj h).2
          obtain ⟨hop, hop'⟩ := symbol_append_inj (List.cons.inj hl').2
          obtain ⟨hright, hright'⟩ := ihr ha.2 hb.2 (closes_bracket _) (closes_bracket _) hop'
          exact ⟨by rw [hl, hop, hright], (List.cons.inj hright').2⟩
      | _ => cases opening_eq ha hb hr hr' h
  | call name e ih =>
      cases b with
      | call name' e' =>
          simp only [legible, Bool.and_eq_true] at ha hb
          rw [echo_call, echo_call] at h
          obtain ⟨hname, hname'⟩ := name_append_inj ha.1 hb.1 (stopsAt_openParen _) (stopsAt_openParen _) h
          obtain ⟨he, he'⟩ := ih ha.2 hb.2 (closes_paren _) (closes_paren _) (List.cons.inj hname').2
          exact ⟨by rw [hname, he], (List.cons.inj he').2⟩
      | _ => cases opening_eq ha hb hr hr' h
  | paren e ih =>
      cases b with
      | paren e' =>
          rw [echo_paren, echo_paren] at h
          obtain ⟨he, he'⟩ := ih (b := e') ha hb (closes_paren _) (closes_paren _) (List.cons.inj h).2
          exact ⟨by rw [he], (List.cons.inj he').2⟩
      | _ => cases opening_eq ha hb hr hr' h
  | negate e ih =>
      cases b with
      | negate e' =>
          rw [echo_negate, echo_negate] at h
          obtain ⟨he, hrest⟩ := ih (b := e') ha hb hr hr' (List.cons.inj h).2
          exact ⟨by rw [he], hrest⟩
      | _ => cases opening_eq ha hb hr hr' h
  | letIn name bound body ihb ihe =>
      cases b with
      | letIn name' bound' body' =>
          simp only [legible, Bool.and_eq_true] at ha hb
          rw [echo_letIn, echo_letIn] at h
          have hword := (List.cons.inj (List.append_cancel_left h)).2
          obtain ⟨hname, hname'⟩ := name_append_inj ha.1.1 hb.1.1 (stopsAt_space _) (stopsAt_space _) hword
          simp only [List.cons.injEq, true_and] at hname'
          obtain ⟨hbound, hbound'⟩ := ihb ha.1.2 hb.1.2 (closes_space _) (closes_space _) hname'
          simp only [List.cons.injEq, true_and] at hbound'
          obtain ⟨hbody, hrest⟩ := ihe ha.2 hb.2 hr hr' hbound'
          exact ⟨by rw [hname, hbound, hbody], hrest⟩
      | _ => cases opening_eq ha hb hr hr' h
  | blank => cases ha

/-! ## Equality -/

/-- Numbers without a sign have one value only if they are the same. -/
theorem eq_of_same {x y : Binary64} (hx : finiteUnsigned x = true) (hy : finiteUnsigned y = true)
    (h : x.same y = true) : x = y := by
  obtain ⟨m, rfl, -⟩ := echo_literal hx
  obtain ⟨n, rfl, -⟩ := echo_literal hy
  have hunits : (m.units : Int) = n.units := by simpa [Binary64.same, Binary64.compare?, Magnitude.signed] using h
  rw [Magnitude.units_inj (Int.ofNat_inj.1 hunits)]

theorem Alike.eq_of_legible (h : Alike a b) (ha : a.legible = true) (hb : b.legible = true) : a = b := by
  induction h with
  | literal h => rw [eq_of_same ha hb h]
  | var name => rfl
  | binop op _ _ ihl ihr =>
      simp only [legible, Bool.and_eq_true] at ha hb
      rw [ihl ha.1 hb.1, ihr ha.2 hb.2]
  | call name _ ih =>
      simp only [legible, Bool.and_eq_true] at ha hb
      rw [ih ha.2 hb.2]
  | paren _ ih | negate _ ih => rw [ih ha hb]
  | letIn name _ _ ihb ihe =>
      simp only [legible, Bool.and_eq_true] at ha hb
      rw [ihb ha.1.2 hb.1.2, ihe ha.2 hb.2]

theorem comparable_of_legible (h : e.legible = true) : e.comparable = true := by
  rw [comparable_iff]
  induction e with
  | literal x =>
      obtain ⟨m, rfl, -⟩ := echo_literal h
      exact ⟨rfl, rfl⟩
  | var name => exact ⟨rfl, rfl⟩
  | binop _ _ _ ihl ihr =>
      simp only [legible, Bool.and_eq_true] at h
      simp [hasBlank, allLiterals, ihl h.1, ihr h.2]
  | call _ _ ih =>
      simp only [legible, Bool.and_eq_true] at h
      exact ih h.2
  | paren _ ih | negate _ ih => exact ih h
  | letIn _ _ _ ihb ihe =>
      simp only [legible, Bool.and_eq_true] at h
      simp [hasBlank, allLiterals, ihb h.1.2, ihe h.2]
  | blank => cases h

/-- Two expressions of any shapes have the same echo if and only if they are equal. -/
theorem echo_eq_iff_equal (ha : a.legible = true) (hb : b.legible = true) :
    a.echo = b.echo ↔ a.equal? b = some true := by
  constructor
  · intro h
    have hlist : a.echo.toList ++ [] = b.echo.toList ++ [] := by rw [h]
    obtain ⟨rfl, -⟩ := echo_append_inj ha hb closes_nil closes_nil hlist
    exact Comparable.equal_equivalence.refl ⟨a, comparable_of_legible ha⟩
  · intro h
    rw [(equal?_eq_true_iff.1 h).eq_of_legible ha hb]

/-- The echo tells the opposite of a sum from the sum with the opposite of its first term. -/
theorem echo_eq_iff_equal_sign :
    (negate (binop .add (literal .one) (call "f" (var "x")))).legible = true ∧
    (binop .add (negate (literal .one)) (call "f" (var "x"))).legible = true ∧
    (negate (binop .add (literal .one) (call "f" (var "x")))).echo ≠
      (binop .add (negate (literal .one)) (call "f" (var "x"))).echo := by
  have ha : (negate (binop .add (literal .one) (call "f" (var "x")))).legible = true := by decide
  have hb : (binop .add (negate (literal .one)) (call "f" (var "x"))).legible = true := by decide
  refine ⟨ha, hb, fun h => ?_⟩
  have hequal := (echo_eq_iff_equal ha hb).1 h
  simp [equal?] at hequal

end Abacus.Expr
