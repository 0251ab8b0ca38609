import Abacus.Proofs.Grammar.Written

/-!
# Grouping by levels

The operator behind an expression decides whether the expression is complete as a left operand, and the level at which a
right operand is read decides which operators belong to it. Both conditions speak of levels only.
-/

namespace Abacus

/-! ## Levels of operators -/

namespace Operator

theorem associativity_eq_right_iff {op : Operator} : op.associativity = .right ↔ op.precedence = 3 := by
  cases op <;> decide

theorem associativity_eq_left_iff {op : Operator} : op.associativity = .left ↔ op.precedence ≠ 3 := by
  cases op <;> decide

theorem precedence_le (op : Operator) : op.precedence ≤ 3 := by
  cases op <;> decide

theorem lt_rightLevel_iff {p q : Operator} : (q.precedence : Int) < p.rightLevel ↔
    q.precedence < p.precedence ∨ q.precedence = p.precedence ∧ q.associativity = .left := by
  rw [associativity_eq_left_iff]
  cases h : p.associativity with
  | left => have := associativity_eq_left_iff.1 h; simp only [rightLevel, h]; omega
  | right => have := associativity_eq_right_iff.1 h; simp only [rightLevel, h]; omega

theorem rightLevel_le_iff {p q : Operator} : p.rightLevel ≤ q.precedence ↔
    p.precedence < q.precedence ∨ q.precedence = p.precedence ∧ p.associativity = .right := by
  rw [associativity_eq_right_iff]
  cases h : p.associativity with
  | left => have := associativity_eq_left_iff.1 h; simp only [rightLevel, h]; omega
  | right => have := associativity_eq_right_iff.1 h; simp only [rightLevel, h]; omega

end Operator

/-! ## Levels of expressions -/

namespace Expr

/-- An operation is one of an operator that binds at least as tightly as the level. -/
def BindsAt (level : Int) : Expr → Prop
  | binop op _ _ => level ≤ op.precedence
  | _ => True

/-- What may follow the expression, as long as it is not extended: an operator only if the expression can be its left
operand, and no parenthesis behind a name. -/
def Precedes (e : Expr) : List Lexeme → Prop
  | .operator op :: _ => e.fitsLeft op = true ∧ e.endsInLet = false
  | .openParen :: _ => e.endsInName = false
  | _ => True

theorem bindsAt_of_isBinop_eq_false {e : Expr} (h : e.isBinop = false) (level : Int) : e.BindsAt level := by
  cases e with
  | binop => cases h
  | _ => trivial

theorem isBinop_eq_false_of_bindsAt {e : Expr} {level : Int} (h : e.BindsAt level) (hl : 3 < level) :
    e.isBinop = false := by
  cases e with
  | binop op l r =>
      have := op.precedence_le
      simp only [BindsAt] at h
      omega
  | _ => rfl

theorem bindsAt_zero (e : Expr) : e.BindsAt 0 := by
  cases e <;> simp [BindsAt]

theorem fitsLeft_of_isBinop_eq_false {e : Expr} (h : e.isBinop = false) (op : Operator) : e.fitsLeft op = true := by
  cases e with
  | binop => cases h
  | _ => rfl

theorem fitsLeft_binop_iff {op p : Operator} {l r : Expr} :
    (binop p l r).fitsLeft op = true ↔ (op.precedence : Int) < p.rightLevel := by
  simp only [fitsLeft, Operator.lt_rightLevel_iff, Bool.or_eq_true, Bool.and_eq_true, decide_eq_true_eq, beq_iff_eq]
  exact or_congr Iff.rfl (and_congr eq_comm Iff.rfl)

theorem fitsRight_iff {op : Operator} {e : Expr} : e.fitsRight op = true ↔ e.BindsAt op.rightLevel := by
  cases e with
  | binop p l r => simp [fitsRight, BindsAt, Operator.rightLevel_le_iff]
  | _ => simp [fitsRight, BindsAt]

theorem bindsAt_of_fitsLeft {op : Operator} {e : Expr} {level : Int} (h : e.fitsLeft op = true)
    (hl : level ≤ op.precedence) : e.BindsAt level := by
  cases e with
  | binop p l r =>
      have := Operator.lt_rightLevel_iff.1 (fitsLeft_binop_iff.1 h)
      simp only [BindsAt]
      omega
  | _ => trivial

end Expr

/-- No operator follows that binds at least as tightly as the level. -/
def StopsBelow (level : Int) : List Lexeme → Prop
  | .operator op :: _ => (op.precedence : Int) < level
  | _ => True

theorem stopsBelow_signLevel (w : List Lexeme) : StopsBelow Operator.signLevel w := by
  match w with
  | .operator op :: _ =>
      have := op.precedence_le
      simp only [StopsBelow, Operator.signLevel]
      omega
  | [] | .number _ :: _ | .name _ :: _ | .openParen :: _ | .closeParen :: _ | .letWord :: _ | .inWord :: _
  | .equals :: _ => trivial

namespace Expr

/-- An operation may be followed by what may follow its right operand, as far as that does not extend the operand. -/
theorem precedes_binop_iff {op : Operator} {l r : Expr} {w : List Lexeme} (h : r.fitsRight op = true) :
    (binop op l r).Precedes w ↔ r.Precedes w ∧ StopsBelow op.rightLevel w := by
  match w with
  | .operator q :: _ =>
      simp only [Precedes, StopsBelow, fitsLeft_binop_iff, endsInLet]
      constructor
      · rintro ⟨hq, he⟩
        refine ⟨⟨?_, he⟩, hq⟩
        cases r with
        | binop p a b =>
            have hp : op.rightLevel ≤ p.precedence := fitsRight_iff.1 h
            rw [fitsLeft_binop_iff, Operator.lt_rightLevel_iff]
            omega
        | _ => rfl
      · rintro ⟨⟨_, he⟩, hq⟩
        exact ⟨hq, he⟩
  | .openParen :: _ => simp [Precedes, StopsBelow, endsInName]
  | [] | .number _ :: _ | .name _ :: _ | .closeParen :: _ | .letWord :: _ | .inWord :: _ | .equals :: _ =>
      simp [Precedes, StopsBelow]

theorem precedes_of_ends {e : Expr} (hb : e.isBinop = false) (hl : e.endsInLet = false) (hn : e.endsInName = false)
    (w : List Lexeme) : e.Precedes w := by
  match w with
  | .operator op :: _ => exact ⟨fitsLeft_of_isBinop_eq_false hb op, hl⟩
  | .openParen :: _ => exact hn
  | [] | .number _ :: _ | .name _ :: _ | .closeParen :: _ | .letWord :: _ | .inWord :: _ | .equals :: _ => trivial

theorem precedes_negate_iff {e : Expr} {w : List Lexeme} (hb : e.isBinop = false) :
    (negate e).Precedes w ↔ e.Precedes w := by
  match w with
  | .operator op :: _ =>
      exact ⟨fun h => ⟨fitsLeft_of_isBinop_eq_false hb op, h.2⟩, fun h => ⟨rfl, h.2⟩⟩
  | .openParen :: _ => exact Iff.rfl
  | [] | .number _ :: _ | .name _ :: _ | .closeParen :: _ | .letWord :: _ | .inWord :: _ | .equals :: _ => exact Iff.rfl

/-- No operator may follow a binding: its body would take it. -/
theorem precedes_letIn_iff {name : String} {b e : Expr} {w : List Lexeme} :
    (letIn name b e).Precedes w ↔ e.Precedes w ∧ StopsBelow 0 w := by
  match w with
  | .operator op :: _ =>
      have : ¬ (op.precedence : Int) < 0 := by omega
      simp [Precedes, StopsBelow, endsInLet, this]
  | .openParen :: _ => simp [Precedes, StopsBelow, endsInName]
  | [] | .number _ :: _ | .name _ :: _ | .closeParen :: _ | .letWord :: _ | .inWord :: _ | .equals :: _ =>
      simp [Precedes, StopsBelow]

end Expr

end Abacus
