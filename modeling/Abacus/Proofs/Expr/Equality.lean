import Abacus.Expr.Shape
import Abacus.Expr.Yield

/-!
# Equal expressions

Equal expressions differ in nothing but numbers that have one value, which are the two zeros. So whatever is said of an
expression without its numbers is said of every equal one.
-/

namespace Abacus

/-! ## Equal numbers -/

namespace Binary64

variable {x y z : Binary64}

theorem same_iff : x.same y = true ↔ (∃ s, x = .infinite s ∧ y = .infinite s) ∨
    ∃ s m t n, x = .finite s m ∧ y = .finite t n ∧ m.signed s = n.signed t := by
  cases x with
  | nan => simp [same, compare?]
  | infinite s =>
      cases y with
      | nan => simp [same, compare?]
      | infinite t => cases s <;> cases t <;> simp [same, compare?]
      | finite t n => cases s <;> simp [same, compare?]
  | finite s m =>
      cases y with
      | nan => simp [same, compare?]
      | infinite t => cases t <;> simp [same, compare?]
      | finite t n =>
          constructor
          · intro h
            exact .inr ⟨s, m, t, n, rfl, rfl, by simpa [same, compare?] using h⟩
          · rintro (⟨_, hx, -⟩ | ⟨_, _, _, _, ⟨⟩, ⟨⟩, h⟩)
            · cases hx
            · simpa [same, compare?] using h

theorem same_self (h : x.isNaN = false) : x.same x = true := by
  rw [same_iff]
  cases x with
  | nan => cases h
  | infinite s => exact .inl ⟨s, rfl, rfl⟩
  | finite s m => exact .inr ⟨s, m, s, m, rfl, rfl, rfl⟩

theorem same_symm (h : x.same y = true) : y.same x = true := by
  rw [same_iff] at h ⊢
  rcases h with ⟨s, rfl, rfl⟩ | ⟨s, m, t, n, rfl, rfl, hvalue⟩
  · exact .inl ⟨s, rfl, rfl⟩
  · exact .inr ⟨t, n, s, m, rfl, rfl, hvalue.symm⟩

theorem same_trans (h : x.same y = true) (h' : y.same z = true) : x.same z = true := by
  rw [same_iff] at h h' ⊢
  rcases h with ⟨s, rfl, rfl⟩ | ⟨s, m, t, n, rfl, rfl, hvalue⟩
  · exact h'
  · rcases h' with ⟨_, hy, -⟩ | ⟨_, _, u, k, ⟨⟩, rfl, hvalue'⟩
    · cases hy
    · exact .inr ⟨s, m, u, k, rfl, rfl, hvalue.trans hvalue'⟩

end Binary64

namespace Expr

/-! ## Equal expressions -/

/-- The same nodes with the same names and operators, and numbers of the same value. -/
inductive Alike : Expr → Expr → Prop
  | literal {x y : Binary64} : x.same y = true → Alike (.literal x) (.literal y)
  | var (name : String) : Alike (.var name) (.var name)
  | binop {l l' r r'} (op : Operator) : Alike l l' → Alike r r' → Alike (.binop op l r) (.binop op l' r')
  | call {e e'} (name : String) : Alike e e' → Alike (.call name e) (.call name e')
  | paren {e e'} : Alike e e' → Alike (.paren e) (.paren e')
  | negate {e e'} : Alike e e' → Alike (.negate e) (.negate e')
  | letIn {b b' e e'} (name : String) : Alike b b' → Alike e e' → Alike (.letIn name b e) (.letIn name b' e')

theorem bothEqual_eq_true_iff {first second : Option Bool} :
    bothEqual first second = some true ↔ first = some true ∧ second = some true := by
  rcases first with _ | _ | _ <;> simp [bothEqual]

theorem equal?_eq_true_iff {a b : Expr} : a.equal? b = some true ↔ Alike a b := by
  constructor
  · intro h
    induction a generalizing b with
    | literal x =>
        cases b <;> simp only [equal?, Option.some.injEq, Bool.false_eq_true] at h
        exact .literal h
    | var name =>
        cases b <;> simp only [equal?, Option.some.injEq, Bool.false_eq_true, beq_iff_eq] at h
        subst h
        exact .var name
    | binop op l r ihl ihr =>
        cases b <;> simp only [equal?, Option.some.injEq, Bool.false_eq_true] at h
        split at h
        · obtain ⟨hl, hr⟩ := bothEqual_eq_true_iff.1 h
          subst op
          exact .binop _ (ihl hl) (ihr hr)
        · cases h
    | call name e ih =>
        cases b <;> simp only [equal?, Option.some.injEq, Bool.false_eq_true] at h
        split at h
        · subst name
          exact .call _ (ih h)
        · cases h
    | paren e ih =>
        cases b <;> simp only [equal?, Option.some.injEq, Bool.false_eq_true] at h
        exact .paren (ih h)
    | negate e ih =>
        cases b <;> simp only [equal?, Option.some.injEq, Bool.false_eq_true] at h
        exact .negate (ih h)
    | letIn name bound body ihb ihe =>
        cases b <;> simp only [equal?, Option.some.injEq, Bool.false_eq_true] at h
        split at h
        · obtain ⟨hb, he⟩ := bothEqual_eq_true_iff.1 h
          subst name
          exact .letIn _ (ihb hb) (ihe he)
        · cases h
    | blank => cases b <;> simp [equal?] at h
  · intro h
    induction h with
    | literal h => rw [equal?, h]
    | var name => simp [equal?]
    | binop op _ _ ihl ihr => rw [equal?, if_pos rfl, bothEqual_eq_true_iff]; exact ⟨ihl, ihr⟩
    | call name _ ih => rw [equal?, if_pos rfl, ih]
    | paren _ ih | negate _ ih => rw [equal?, ih]
    | letIn name _ _ ihb ihe => rw [equal?, if_pos rfl, bothEqual_eq_true_iff]; exact ⟨ihb, ihe⟩

namespace Alike

variable {a b c : Expr}

/-! ## Equivalence -/

theorem refl {e : Expr} (hb : e.hasBlank = false) (hl : e.allLiterals (!·.isNaN) = true) : Alike e e := by
  induction e with
  | blank => cases hb
  | literal x => exact .literal (Binary64.same_self (by simpa [allLiterals] using hl))
  | var name => exact .var name
  | call name _ ih => exact .call name (ih hb hl)
  | paren _ ih => exact .paren (ih hb hl)
  | negate _ ih => exact .negate (ih hb hl)
  | binop _ _ _ ihl ihr | letIn _ _ _ ihl ihr =>
      simp only [hasBlank, Bool.or_eq_false_iff] at hb
      simp only [allLiterals, Bool.and_eq_true] at hl
      constructor
      · exact ihl hb.1 hl.1
      · exact ihr hb.2 hl.2

theorem symm (h : Alike a b) : Alike b a := by
  induction h with
  | literal h => exact .literal (Binary64.same_symm h)
  | var name => exact .var name
  | binop op _ _ ihl ihr => exact .binop op ihl ihr
  | call name _ ih => exact .call name ih
  | paren _ ih => exact .paren ih
  | negate _ ih => exact .negate ih
  | letIn name _ _ ihb ihe => exact .letIn name ihb ihe

theorem trans (h : Alike a b) (h' : Alike b c) : Alike a c := by
  induction h generalizing c with
  | literal h => cases h' with | literal h' => exact .literal (Binary64.same_trans h h')
  | var name => exact h'
  | binop op _ _ ihl ihr => cases h' with | binop _ hl hr => exact .binop op (ihl hl) (ihr hr)
  | call name _ ih => cases h' with | call _ he => exact .call name (ih he)
  | paren _ ih => cases h' with | paren he => exact .paren (ih he)
  | negate _ ih => cases h' with | negate he => exact .negate (ih he)
  | letIn name _ _ ihb ihe => cases h' with | letIn _ hb he => exact .letIn name (ihb hb) (ihe he)

/-! ## Shape -/

theorem isBinop (h : Alike a b) : a.isBinop = b.isBinop := by
  cases h <;> rfl

theorem endsInLet (h : Alike a b) : a.endsInLet = b.endsInLet := by
  induction h with
  | literal | var | call | paren | letIn => rfl
  | binop _ _ _ _ ih | negate _ ih => exact ih

theorem fitsLeft (h : Alike a b) (op : Operator) : a.fitsLeft op = b.fitsLeft op := by
  cases h <;> rfl

theorem fitsRight (h : Alike a b) (op : Operator) : a.fitsRight op = b.fitsRight op := by
  cases h <;> rfl

theorem grouped (h : Alike a b) : a.grouped = b.grouped := by
  induction h with
  | literal | var => rfl
  | binop op hl hr ihl ihr =>
      simp only [Expr.grouped, hl.fitsLeft, hl.endsInLet, hr.fitsRight, ihl, ihr]
  | call _ _ ih | paren _ ih => exact ih
  | negate h ih => simp only [Expr.grouped, h.isBinop, ih]
  | letIn _ _ _ ihb ihe => simp only [Expr.grouped, ihb, ihe]

theorem named (h : Alike a b) : a.named = b.named := by
  induction h with
  | literal | var => rfl
  | binop _ _ _ ihl ihr => simp only [Expr.named, ihl, ihr]
  | call _ _ ih => simp only [Expr.named, ih]
  | paren _ ih | negate _ ih => exact ih
  | letIn _ _ _ ihb ihe => simp only [Expr.named, ihb, ihe]

theorem length_yield (h : Alike a b) : a.yield.length = b.yield.length := by
  induction h with
  | literal | var => rfl
  | binop _ _ _ ihl ihr => simp only [yield, List.length_append, List.length_cons, ihl, ihr]
  | call _ _ ih | paren _ ih | negate _ ih => simp only [yield, List.length_append, List.length_cons, ih]
  | letIn _ _ _ ihb ihe => simp only [yield, List.length_append, List.length_cons, ihb, ihe]

/-! ## Numbers -/

theorem isNaN_eq_false_of_same {x y : Binary64} (h : x.same y = true) : y.isNaN = false := by
  cases y with
  | nan => cases x <;> cases h
  | infinite | finite => rfl

theorem allLiterals_not_isNaN (h : Alike a b) : b.allLiterals (!·.isNaN) = true := by
  induction h with
  | literal h => simp only [allLiterals, isNaN_eq_false_of_same h, Bool.not_false]
  | var => rfl
  | binop _ _ _ ihl ihr => simp only [allLiterals, ihl, ihr, Bool.and_self]
  | call _ _ ih | paren _ ih | negate _ ih => exact ih
  | letIn _ _ _ ihb ihe => simp only [allLiterals, ihb, ihe, Bool.and_self]

end Alike

theorem equal?_self {e : Expr} (hb : e.hasBlank = false) (hl : e.allLiterals (!·.isNaN) = true) :
    e.equal? e = some true :=
  equal?_eq_true_iff.2 (.refl hb hl)

theorem comparable_iff {e : Expr} :
    e.comparable = true ↔ e.hasBlank = false ∧ e.allLiterals (!·.isNaN) = true := by
  rw [comparable, Bool.and_eq_true, Bool.not_eq_true']

/-- An expression that can be compared. -/
abbrev Comparable := { e : Expr // e.comparable = true }

/-- Whether two expressions are equal. -/
def Comparable.Equal (a b : Comparable) : Prop := a.val.equal? b.val = some true

theorem Comparable.equal_equivalence : Equivalence Comparable.Equal where
  refl a :=
    have ⟨hb, hl⟩ := comparable_iff.1 a.property
    equal?_self hb hl
  symm h := equal?_eq_true_iff.2 (equal?_eq_true_iff.1 h).symm
  trans h h' := equal?_eq_true_iff.2 ((equal?_eq_true_iff.1 h).trans (equal?_eq_true_iff.1 h'))

/-- A relation that holds of two nodes of one kind and one name or operator if it holds of their parts. -/
structure Congruence (R : Expr → Expr → Prop) : Prop where
  literal {x y : Binary64} : x.same y = true → R (literal x) (literal y)
  var (name : String) : R (var name) (var name)
  binop {l l' r r' : Expr} (op : Operator) : R l l' → R r r' → R (binop op l r) (binop op l' r')
  call {e e' : Expr} (name : String) : R e e' → R (call name e) (call name e')
  paren {e e' : Expr} : R e e' → R (paren e) (paren e')
  negate {e e' : Expr} : R e e' → R (negate e) (negate e')
  letIn {b b' e e' : Expr} (name : String) : R b b' → R e e' → R (letIn name b e) (letIn name b' e')

theorem Alike.congruence : Congruence Alike :=
  ⟨.literal, .var, .binop, .call, .paren, .negate, .letIn⟩

theorem equal?_congruence : Congruence fun a b => a.equal? b = some true := by
  simpa only [equal?_eq_true_iff] using Alike.congruence

end Expr

end Abacus
