import Abacus.Expr.Variables
import Abacus.Proofs.Attempt.Evaluation
import Abacus.Proofs.Evaluation.Scoping

/-!
# Evaluation and free variables

The free occurrences of an expression stand in the order in which evaluation meets them. It fails at the first one that
the scope leaves unbound, and without such an occurrence it has a value. Nothing but the free variables is ever looked up
in the scope, so scopes that agree on them lead to the same outcome.
-/

namespace Abacus

/-- The first of some names without a value. -/
def Scope.unbound? (scope : Scope) (names : List String) : Option String := names.find? fun name => (scope name).isNone

theorem Scope.unbound?_append (scope : Scope) (names names' : List String) :
    scope.unbound? (names ++ names') = (scope.unbound? names).or (scope.unbound? names') := List.find?_append

/-- In a scope that binds a name, only the other names can be unbound. -/
theorem Scope.unbound?_extend (scope : Scope) (name : String) (value : Binary64) (names : List String) :
    (scope.extend name value).unbound? names = scope.unbound? (names.filter (· != name)) := by
  rw [unbound?, unbound?, List.find?_filter]
  congr 1
  funext other
  by_cases h : other = name
  · simp [extend, h]
  · cases hs : scope other <;> simp [extend, h, hs]

theorem Scope.unbound?_eq_none_iff {scope : Scope} {names : List String} :
    scope.unbound? names = none ↔ ∀ name ∈ names, scope name ≠ none := by
  simp [unbound?, List.find?_eq_none]

theorem Scope.of_unbound? {scope : Scope} {names : List String} {name : String}
    (h : scope.unbound? names = some name) : name ∈ names ∧ scope name = none :=
  ⟨List.mem_of_find?_eq_some h, by simpa using List.find?_some h⟩

theorem Scope.exists_unbound?_iff {scope : Scope} {names : List String} :
    (∃ name, scope.unbound? names = some name) ↔ ∃ name ∈ names, scope name = none := by
  constructor
  · rintro ⟨name, h⟩
    exact ⟨name, of_unbound? h⟩
  · rintro ⟨name, hmem, hnone⟩
    cases h : scope.unbound? names with
    | some first => exact ⟨first, rfl⟩
    | none => exact absurd hnone (unbound?_eq_none_iff.1 h name hmem)

/-- The first unbound name stands behind names that are all bound. -/
theorem Scope.exists_of_unbound? {scope : Scope} {names : List String} {name : String}
    (h : scope.unbound? names = some name) : ∃ before after, names = before ++ name :: after ∧
      (∀ other ∈ before, scope other ≠ none) ∧ scope name = none := by
  obtain ⟨hname, before, after, hnames, hbefore⟩ := List.find?_eq_some_iff_append.1 h
  refine ⟨before, after, hnames, ?_, by simpa using hname⟩
  intro other ho hnone
  simpa [hnone] using hbefore other ho

theorem Scope.extend_congr {s t : Scope} {name other : String} (value : Binary64)
    (h : other ≠ name → s other = t other) : s.extend name value other = t.extend name value other := by
  by_cases hn : other = name
  · simp [extend, hn]
  · simp [extend, hn, h hn]

namespace Expr

/-! ## Outcomes -/

theorem valueIn_of_unbound? {e : Expr} (hb : e.hasBlank = false) (scope : Scope) :
    (∃ name, scope.unbound? e.freeVars = some name ∧ e.valueIn scope = .error (.unbound name)) ∨
    (scope.unbound? e.freeVars = none ∧ ∃ value, e.valueIn scope = .ok value) := by
  induction e generalizing scope with
  | literal value => exact .inr ⟨rfl, value, rfl⟩
  | var name =>
      cases h : scope name with
      | some value => exact .inr ⟨by simp [freeVars, Scope.unbound?, h], value, by simp [valueIn, h]⟩
      | none => exact .inl ⟨name, by simp [freeVars, Scope.unbound?, h], by simp [valueIn, h]⟩
  | binop op l r ihl ihr =>
      simp only [hasBlank, Bool.or_eq_false_iff] at hb
      rw [freeVars, Scope.unbound?_append, valueIn]
      rcases ihl hb.1 scope with ⟨name, hn, hl⟩ | ⟨hn, x, hl⟩ <;> rw [hn, hl]
      · exact .inl ⟨name, rfl, rfl⟩
      · rcases ihr hb.2 scope with ⟨name, hn, hr⟩ | ⟨hn, y, hr⟩ <;> rw [hn, hr]
        · exact .inl ⟨name, rfl, rfl⟩
        · exact .inr ⟨rfl, _, rfl⟩
  | call _ e ih | paren e ih => exact ih hb scope
  | negate e ih =>
      rw [freeVars, valueIn]
      rcases ih hb scope with ⟨name, hn, he⟩ | ⟨hn, x, he⟩ <;> rw [hn, he]
      · exact .inl ⟨name, rfl, rfl⟩
      · exact .inr ⟨rfl, _, rfl⟩
  | letIn name bound body ihb ihe =>
      simp only [hasBlank, Bool.or_eq_false_iff] at hb
      rw [freeVars, Scope.unbound?_append, valueIn]
      rcases ihb hb.1 scope with ⟨other, hn, hbound⟩ | ⟨hn, value, hbound⟩ <;> rw [hn, hbound]
      · exact .inl ⟨other, rfl, rfl⟩
      · rw [← Scope.unbound?_extend scope name value]
        exact ihe hb.2 (scope.extend name value)
  | blank => cases hb

theorem valueIn_eq_error_iff {e : Expr} (hb : e.hasBlank = false) {scope : Scope} {error : EvalError} :
    e.valueIn scope = .error error ↔ ∃ name, scope.unbound? e.freeVars = some name ∧ error = .unbound name := by
  rcases valueIn_of_unbound? hb scope with ⟨name, hn, he⟩ | ⟨hn, value, he⟩
  · simp [hn, he, eq_comm]
  · simp [hn, he]

theorem valueIn_congr {e : Expr} {s t : Scope} (h : ∀ name ∈ e.freeVars, s name = t name) :
    e.valueIn s = e.valueIn t := by
  induction e generalizing s t with
  | literal | blank => rfl
  | var name => rw [valueIn, valueIn, h name List.mem_cons_self]
  | binop op l r ihl ihr =>
      simp only [freeVars, List.mem_append] at h
      have hl := ihl fun name hn => h name (.inl hn)
      have hr := ihr fun name hn => h name (.inr hn)
      rw [valueIn, valueIn, hl, hr]
  | call _ e ih | paren e ih => exact ih h
  | negate e ih => rw [valueIn, valueIn, ih h]
  | letIn name bound body ihb ihe =>
      simp only [freeVars, List.mem_append, List.mem_filter, bne_iff_ne] at h
      have hbound := ihb fun other ho => h other (.inl ho)
      have hbody (value : Binary64) : body.valueIn (s.extend name value) = body.valueIn (t.extend name value) := by
        apply ihe
        intro other ho
        exact Scope.extend_congr value fun hn => h other (.inr ⟨ho, hn⟩)
      simp only [valueIn, hbound, hbody]

/-! ## Evaluation -/

/-- An expression without blank nodes has a value if all of its free variables are bound. Otherwise it ends with an error,
which names the first of them that is not. Environments that agree on the free variables lead to the same outcome. -/
theorem attempt_of_freeVars {e : Expr} (hb : e.hasBlank = false) (env : Env) :
    ∃ evaluation, e.attempt env = .ok evaluation ∧
      ((∃ error, evaluation.result = .error error) ↔ ∃ name ∈ e.freeVars, env.get? name = none) ∧
      (∀ error, evaluation.result = .error error → ∃ before name after, e.freeVars = before ++ name :: after ∧
        (∀ other ∈ before, env.get? other ≠ none) ∧ env.get? name = none ∧ error = .unbound name) ∧
      ∀ env' : Env, (∀ name ∈ e.freeVars, env'.get? name = env.get? name) →
        ∃ evaluation', e.attempt env' = .ok evaluation' ∧ evaluation'.result = evaluation.result := by
  refine ⟨e.eval env, attempt_eq hb env, ?_, ?_, ?_⟩
  · have hfree : (∃ name ∈ e.freeVars, env.get? name = none) ↔ ∃ name, env.scope.unbound? e.freeVars = some name :=
      Scope.exists_unbound?_iff.symm
    simp only [result_eval, valueIn_eq_error_iff hb, hfree]
    exact ⟨fun ⟨_, name, hn, _⟩ => ⟨name, hn⟩, fun ⟨name, hn⟩ => ⟨_, name, hn, rfl⟩⟩
  · intro error herror
    rw [result_eval, valueIn_eq_error_iff hb] at herror
    obtain ⟨name, hn, rfl⟩ := herror
    obtain ⟨before, after, hvars, hbefore, hnone⟩ := Scope.exists_of_unbound? hn
    exact ⟨before, name, after, hvars, hbefore, hnone, rfl⟩
  · intro env' h
    refine ⟨e.eval env', attempt_eq hb env', ?_⟩
    rw [result_eval, result_eval]
    exact valueIn_congr h

/-- A name is bound in the body of its binding, but not behind it. -/
theorem attempt_of_freeVars_behind_body :
    (binop .add (letIn "x" (var "y") (var "x")) (var "x")).hasBlank = false ∧
    ∃ evaluation evaluation',
      (binop .add (letIn "x" (var "y") (var "x")) (var "x")).attempt ⟨[("y", .one)]⟩ = .ok evaluation ∧
      (binop .add (letIn "x" (var "y") (var "x")) (var "x")).attempt ⟨[("z", .one), ("y", .one)]⟩ = .ok evaluation' ∧
      evaluation.result = .error (.unbound "x") ∧ evaluation'.result = evaluation.result := by
  have hb : (binop .add (letIn "x" (var "y") (var "x")) (var "x")).hasBlank = false := rfl
  obtain ⟨evaluation, ha, hiff, hfirst, hagree⟩ := attempt_of_freeVars hb ⟨[("y", .one)]⟩
  obtain ⟨evaluation', ha', hsame⟩ := hagree ⟨[("z", .one), ("y", .one)]⟩ (by decide)
  obtain ⟨error, herror⟩ := hiff.2 ⟨"x", by decide, rfl⟩
  obtain ⟨before, name, after, hvars, -, hnone, rfl⟩ := hfirst error herror
  have hname : name ∈ ["y", "x"] := by
    rw [show ["y", "x"] = before ++ name :: after from hvars]
    simp
  refine ⟨hb, evaluation, evaluation', ha, ha', ?_, hsame⟩
  simp only [List.mem_cons, List.not_mem_nil, or_false] at hname
  rcases hname with rfl | rfl
  · cases hnone
  · exact herror

end Expr

end Abacus
