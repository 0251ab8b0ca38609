import Abacus.Expr.Record
import Abacus.Proofs.Expr.Equality

/-!
# Equality and records

Two expressions are equal if and only if their records are: no kind of node is recorded like another, and the value and
the children of a node are all that equality compares.
-/

namespace Abacus

namespace Record

variable {c c' d d' : Record}

/-! ## Nodes of one kind -/

theorem same_leaf (kind : String) (v w : Value) : (node kind v []).same (node kind w []) = v.same w := by
  simp [same, sameAll]

theorem same_branch (kind : String) (v w : Value) :
    (node kind v [c]).same (node kind w [d]) = (v.same w && c.same d) := by
  simp [same, sameAll]

theorem same_fork (kind : String) (v w : Value) :
    (node kind v [c, c']).same (node kind w [d, d']) = (v.same w && (c.same d && c'.same d')) := by
  simp [same, sameAll]

end Record

namespace Expr

variable {a b l l' r r' : Expr}

theorem record_same_literal (x y : Binary64) : (literal x).record.same (literal y).record = x.same y :=
  Record.same_leaf "literal" (.number x) (.number y)

theorem record_same_var (name name' : String) :
    (var name).record.same (var name').record = decide (name = name') :=
  Record.same_leaf "var" (.text name) (.text name')

theorem record_same_call (name name' : String) :
    (call name a).record.same (call name' b).record = (decide (name = name') && a.record.same b.record) :=
  Record.same_branch "call" (.text name) (.text name')

theorem record_same_paren : (paren a).record.same (paren b).record = a.record.same b.record :=
  Record.same_branch "paren" .absent .absent

theorem record_same_negate : (negate a).record.same (negate b).record = a.record.same b.record :=
  Record.same_branch "negate" .absent .absent

theorem record_same_letIn (name name' : String) : (letIn name l r).record.same (letIn name' l' r').record =
    (decide (name = name') && (l.record.same l'.record && r.record.same r'.record)) :=
  Record.same_fork "let" (.text name) (.text name')

/-- Operators are recorded by their symbols, which tell them apart. -/
theorem symbol_beq (op op' : Operator) : (op.symbol == op'.symbol) = decide (op = op') := by
  rw [Bool.eq_iff_iff, beq_iff_eq, decide_eq_true_iff]
  exact ⟨Operator.symbol_inj, congrArg _⟩

theorem record_same_binop (op op' : Operator) : (binop op l r).record.same (binop op' l' r').record =
    (decide (op = op') && (l.record.same l'.record && r.record.same r'.record)) := by
  rw [← symbol_beq]
  exact Record.same_fork "binop" (.text op.symbol) (.text op'.symbol)

/-! ## Comparison -/

theorem bothEqual_some (first second : Bool) : bothEqual (some first) (some second) = some (first && second) := by
  cases first <;> rfl

theorem ite_some_false (p : Prop) [Decidable p] (answer : Bool) :
    (if p then some answer else some false) = some (decide p && answer) := by
  split <;> simp [*]

/-- The comparison of two expressions gives the comparison of their records. -/
theorem equal?_eq_record_same (h : a.hasBlank = false) : a.equal? b = some (a.record.same b.record) := by
  induction a generalizing b with
  | blank => cases h
  | literal x =>
      cases b with
      | literal y => rw [equal?, record_same_literal]
      | _ => rfl
  | var name =>
      cases b with
      | var name' => rw [equal?, record_same_var, Bool.beq_eq_decide_eq]
      | _ => rfl
  | binop op l r ihl ihr =>
      simp only [hasBlank, Bool.or_eq_false_iff] at h
      cases b with
      | binop op' l' r' => rw [equal?, ihl h.1, ihr h.2, bothEqual_some, ite_some_false, record_same_binop]
      | _ => rfl
  | letIn name l r ihl ihr =>
      simp only [hasBlank, Bool.or_eq_false_iff] at h
      cases b with
      | letIn name' l' r' => rw [equal?, ihl h.1, ihr h.2, bothEqual_some, ite_some_false, record_same_letIn]
      | _ => rfl
  | call name e ih =>
      cases b with
      | call name' e' => rw [equal?, ih h, ite_some_false, record_same_call]
      | _ => rfl
  | paren e ih =>
      cases b with
      | paren e' => rw [equal?, ih h, record_same_paren]
      | _ => rfl
  | negate e ih =>
      cases b with
      | negate e' => rw [equal?, ih h, record_same_negate]
      | _ => rfl

end Expr

end Abacus
