import Abacus.Proofs.Printing.RoundTrip

/-!
# Sources made of sources

A source in parentheses, in the place of an argument or in a binding is read as it is read by itself. Its lexemes do not
change with what stands around it, and no expression reaches past a closing parenthesis or a word `in` that is not its own.
-/

namespace Abacus

variable {s₁ s₂ : List Char} {e₁ e₂ : Expr} {name : String}

/-! ## Constructs -/

theorem parse_paren (h : parse s₁ = .ok e₁) : parse ("(".toList ++ s₁ ++ ")".toList) = .ok (.paren e₁) := by
  obtain ⟨w, hs, hw, hg⟩ := lexes_of_parse h
  have htext : "(".toList ++ s₁ ++ ")".toList = '(' :: (s₁ ++ [')']) := by simp
  rw [htext]
  exact parse_of_lexes hs.paren hw.paren hg

theorem parse_call (hn : Expr.isName name = true) (h : parse s₁ = .ok e₁) :
    parse (name.toList ++ "(".toList ++ s₁ ++ ")".toList) = .ok (.call name e₁) := by
  obtain ⟨w, hs, hw, hg⟩ := lexes_of_parse h
  have htext : name.toList ++ "(".toList ++ s₁ ++ ")".toList = name.toList ++ '(' :: (s₁ ++ [')']) := by simp
  rw [htext]
  exact parse_of_lexes (hs.call hn) (hw.call name) hg

theorem parse_letIn (hn : Expr.isName name = true) (h₁ : parse s₁ = .ok e₁) (h₂ : parse s₂ = .ok e₂) :
    parse ("let ".toList ++ name.toList ++ " = ".toList ++ s₁ ++ " in ".toList ++ s₂) = .ok (.letIn name e₁ e₂) := by
  obtain ⟨v, hs₁, hv, hg₁⟩ := lexes_of_parse h₁
  obtain ⟨w, hs₂, hw, hg₂⟩ := lexes_of_parse h₂
  have htext : "let ".toList ++ name.toList ++ " = ".toList ++ s₁ ++ " in ".toList ++ s₂ = ['l', 'e', 't'] ++
      ' ' :: (name.toList ++ ' ' :: (['='] ++ ' ' :: (s₁ ++ ' ' :: (['i', 'n'] ++ ' ' :: s₂)))) := by simp
  have hg : (Expr.letIn name e₁ e₂).grouped = true := by simp [Expr.grouped, hg₁, hg₂]
  rw [htext]
  exact parse_of_lexes (Lexes.letIn hn hs₁ hs₂) (hv.letIn name hw) hg

/-- Parentheses are operands of every operator on both sides. -/
theorem parse_operation (op : Operator) (h₁ : parse s₁ = .ok e₁) (h₂ : parse s₂ = .ok e₂) :
    parse ("(".toList ++ s₁ ++ ") ".toList ++ op.symbol.toList ++ " (".toList ++ s₂ ++ ")".toList) =
      .ok (.binop op (.paren e₁) (.paren e₂)) := by
  obtain ⟨v, hs₁, hv, hg₁⟩ := lexes_of_parse h₁
  obtain ⟨w, hs₂, hw, hg₂⟩ := lexes_of_parse h₂
  have htext : "(".toList ++ s₁ ++ ") ".toList ++ op.symbol.toList ++ " (".toList ++ s₂ ++ ")".toList =
      '(' :: (s₁ ++ [')']) ++ ' ' :: (op.symbol.toList ++ ' ' :: ('(' :: (s₂ ++ [')']))) := by simp
  have hg : (Expr.binop op (.paren e₁) (.paren e₂)).grouped = true := by
    simp [Expr.grouped, Expr.fitsLeft, Expr.fitsRight, Expr.endsInLet, hg₁, hg₂]
  rw [htext]
  exact parse_of_lexes (hs₁.paren.operation op hs₂.paren) (hv.paren.binop op hw.paren) hg

/-! ## All constructs -/

/-- The source is read as the expression, and as one that equals it. -/
def ReadAs (source : List Char) (e : Expr) : Prop := ∃ t, parse source = .ok t ∧ t = e ∧ t.equal? e = some true

theorem readAs_of_parse {source : List Char} {e : Expr} (h : parse source = .ok e) : ReadAs source e := by
  obtain ⟨hb, -, -, hl⟩ := Expr.canonical_iff.1 (canonical_of_parse h)
  have hnan := Expr.allLiterals_imp (fun _ => Expr.isNaN_eq_false_of_unsigned) hl
  exact ⟨e, h, rfl, Expr.equal?_self hb hnan⟩

/-- Sources that are read can be put in parentheses, called, bound, and combined by any operator. Each is read as before,
whatever it begins or ends with. -/
theorem parse_constructs (op : Operator) (hn : Expr.isName name = true) (h₁ : parse s₁ = .ok e₁)
    (h₂ : parse s₂ = .ok e₂) :
    ReadAs ("(".toList ++ s₁ ++ ")".toList) (.paren e₁) ∧
    ReadAs (name.toList ++ "(".toList ++ s₁ ++ ")".toList) (.call name e₁) ∧
    ReadAs ("let ".toList ++ name.toList ++ " = ".toList ++ s₁ ++ " in ".toList ++ s₂) (.letIn name e₁ e₂) ∧
    ReadAs ("(".toList ++ s₁ ++ ") ".toList ++ op.symbol.toList ++ " (".toList ++ s₂ ++ ")".toList)
      (.binop op (.paren e₁) (.paren e₂)) := by
  refine ⟨?_, ?_, ?_, ?_⟩
  · exact readAs_of_parse (parse_paren h₁)
  · exact readAs_of_parse (parse_call hn h₁)
  · exact readAs_of_parse (parse_letIn hn h₁ h₂)
  · exact readAs_of_parse (parse_operation op h₁ h₂)

/-- A binding whose body would take the operator behind it, and an operand that begins with a sign. -/
theorem parse_constructs_open_body :
    Expr.isName "f" = true ∧ parse "let x = y in -x".toList = .ok (.letIn "x" (.var "y") (.negate (.var "x"))) ∧
    parse "- -y".toList = .ok (.negate (.negate (.var "y"))) ∧
    ReadAs "(let x = y in -x) ** (- -y)".toList
      (.binop .pow (.paren (.letIn "x" (.var "y") (.negate (.var "x")))) (.paren (.negate (.negate (.var "y"))))) ∧
    ReadAs "let f = let x = y in -x in - -y".toList
      (.letIn "f" (.letIn "x" (.var "y") (.negate (.var "x"))) (.negate (.negate (.var "y")))) := by
  have hn : Expr.isName "f" = true := by decide
  have h₁ : parse "let x = y in -x".toList = .ok (.letIn "x" (.var "y") (.negate (.var "x"))) :=
    Expr.parse_of_canonical (by decide) (by rfl)
  have h₂ : parse "- -y".toList = .ok (.negate (.negate (.var "y"))) :=
    Expr.parse_of_canonical (by decide) (by rfl)
  obtain ⟨-, -, hlet, hoperation⟩ := parse_constructs .pow hn h₁ h₂
  have hbinding : "let ".toList ++ "f".toList ++ " = ".toList ++ "let x = y in -x".toList ++ " in ".toList ++
      "- -y".toList = "let f = let x = y in -x in - -y".toList := by simp
  have hpower : "(".toList ++ "let x = y in -x".toList ++ ") ".toList ++ Operator.pow.symbol.toList ++ " (".toList ++
      "- -y".toList ++ ")".toList = "(let x = y in -x) ** (- -y)".toList := by simp [Operator.symbol]
  rw [hbinding] at hlet
  rw [hpower] at hoperation
  exact ⟨hn, h₁, h₂, hoperation, hlet⟩

end Abacus
