import Abacus.Expr.Basic
import Abacus.Tokenizer

/-!
# Parsers

A parser pulls tokens from a tokenizer and looks one token ahead. Operators are grouped by their levels: an expression
at a level takes an operand and then every operator that binds at least as tightly, and the right operand of an operator
is an expression at the level above it, or at the same level if the operator groups to the right. The body of a `let`
reaches as far as it can.

A step keeps the parser it leaves, also when it fails: the next step goes on from there.
-/

namespace Abacus

structure Parser where
  tokenizer : Tokenizer
  lookahead? : Option Token

namespace Parser

/-- A parser before its first token. -/
def start (source : List Char) : Parser := ⟨Tokenizer.ofSource source, none⟩

/-- The number of characters that the tokenizer has ahead. -/
def ahead (p : Parser) : Nat := p.tokenizer.cursor.rest.length

/-- What is left to read: the characters ahead, and one more if there is a lookahead. -/
def size (p : Parser) : Nat := p.ahead + if p.lookahead?.isSome then 1 else 0

theorem ahead_le_size (p : Parser) : p.ahead ≤ p.size := Nat.le_add_right ..

theorem ahead_lt_size {p : Parser} {token : Token} (h : p.lookahead? = some token) : p.ahead < p.size := by
  simp [size, h]

end Parser

/-- The outcome of a step, and the parser after it, which has at most `n` to read. -/
structure Step (n : Nat) (α : Type) where
  result : Except Fault α
  parser : Parser
  /-- The parsers on the way, one behind each move of the lookahead. -/
  passed : List Parser
  size_le : parser.size ≤ n

namespace Step

variable {n : Nat} {α β : Type}

def widen {m : Nat} (s : Step m α) (h : m ≤ n) : Step n α :=
  ⟨s.result, s.parser, s.passed, Nat.le_trans s.size_le h⟩

def map (f : α → β) (s : Step n α) : Step n β := ⟨s.result.map f, s.parser, s.passed, s.size_le⟩

/-- The step behind one that passed the given parsers. -/
def behind (passed : List Parser) (s : Step n α) : Step n α := { s with passed := passed ++ s.passed }

/-- Goes on with what the step read, unless it failed. -/
def andThen (s : Step n α) (next : α → (p : Parser) → p.size ≤ n → Step p.size β) : Step n β :=
  match s.result with
  | .error fault => ⟨.error fault, s.parser, s.passed, s.size_le⟩
  | .ok a => ((next a s.parser s.size_le).behind s.passed).widen s.size_le

theorem andThen_of_ok {s : Step n α} {a : α} (h : s.result = .ok a)
    (next : α → (p : Parser) → p.size ≤ n → Step p.size β) :
    s.andThen next = ((next a s.parser s.size_le).behind s.passed).widen s.size_le := by
  simp only [andThen]; split <;> simp_all

theorem andThen_of_error {s : Step n α} {fault : Fault} (h : s.result = .error fault)
    (next : α → (p : Parser) → p.size ≤ n → Step p.size β) :
    s.andThen next = ⟨.error fault, s.parser, s.passed, s.size_le⟩ := by
  simp only [andThen]; split <;> simp_all

end Step

namespace Parser

def done {α : Type} (p : Parser) (a : α) : Step p.size α := ⟨.ok a, p, [], Nat.le_refl _⟩

def fail {α : Type} (p : Parser) (cause : GrammarCause) (span : Span) : Step p.size α :=
  ⟨.error (.grammar ⟨cause, span⟩), p, [], Nat.le_refl _⟩

/-- The span at which the end of the source is reported. -/
def endSpan (p : Parser) : Span := .atEnd p.tokenizer.cursor.source

/-! ## Single tokens -/

/-- Moves the lookahead to the next token. A lexical fault is met here, at the end of the tokens before it. -/
def bump (p : Parser) : Step p.ahead Unit :=
  match h : p.tokenizer.next with
  | (some token, t) =>
    ⟨.ok (), ⟨t, some token⟩, [⟨t, some token⟩], Nat.succ_le_of_lt (Tokenizer.rest_lt_of_next h)⟩
  | (none, t) =>
    have ht : t.cursor.rest.length ≤ p.ahead := by simpa [h, ahead] using p.tokenizer.rest_next_le
    match t.popFault.1 with
    | some fault => ⟨.error (.lexical fault), ⟨t.popFault.2, none⟩, [⟨t.popFault.2, none⟩], ht⟩
    | none => ⟨.ok (), ⟨t.popFault.2, none⟩, [⟨t.popFault.2, none⟩], ht⟩

/-- Takes the lookahead if it has the kind, and fails without reading otherwise. -/
def expect (p : Parser) (kind : Token.Kind) : Step p.size Token :=
  match p.lookahead? with
  | none => p.fail (.endFor kind) p.endSpan
  | some token =>
    if token.kind = kind then (p.bump.map fun _ => token).widen p.ahead_le_size
    else p.fail (.otherThan kind token.kind) token.span

def expectName (p : Parser) : Step p.size String :=
  (p.expect .name).map fun token => token.text

/-! ## Expressions -/

mutual
/-- An expression whose operators outside of brackets bind at least as tightly as `level`. -/
def expr (p : Parser) (level : Int) : Step p.size Expr :=
  p.primary.andThen fun left q _ => q.operators left level
termination_by 4 * p.size + 2

/-- Extends an operand by the operators that follow it. -/
def operators (p : Parser) (left : Expr) (level : Int) : Step p.size Expr :=
  match h : p.lookahead? with
  | some ⟨.operator op, _⟩ =>
    have := ahead_lt_size h
    if level ≤ op.precedence then
      (p.bump.andThen fun _ q _ =>
        (q.expr op.rightLevel).andThen fun right r _ => r.operators (.binop op left right) level).widen
        p.ahead_le_size
    else p.done left
  | _ => p.done left
termination_by 4 * p.size

/-- An operand. The token behind its first is read before the first is judged. -/
def primary (p : Parser) : Step p.size Expr :=
  match h : p.lookahead? with
  | none => p.fail .endForOperand p.endSpan
  | some ⟨lexeme, span⟩ =>
    have := ahead_lt_size h
    (p.bump.andThen fun _ q _ =>
      match lexeme with
      | .name name => q.call name
      | .number value => q.done (.literal value)
      | .openParen =>
        (q.expr 0).andThen fun inner r _ => (r.expect .closeParen).map fun _ => .paren inner
      | .operator op =>
        if op ∈ Operator.signs then (q.expr Operator.signLevel).map op.signed
        else q.fail (.operatorForOperand op) span
      | .letWord => q.letIn
      | lexeme => q.fail (.noOperand lexeme.kind) span).widen p.ahead_le_size
termination_by 4 * p.size + 1

/-- A variable, or a call if the name is followed by an argument in parentheses. -/
def call (p : Parser) (name : String) : Step p.size Expr :=
  match h : p.lookahead? with
  | some ⟨.openParen, _⟩ =>
    have := ahead_lt_size h
    (p.bump.andThen fun _ q _ =>
      (q.expr 0).andThen fun arg r _ => (r.expect .closeParen).map fun _ => .call name arg).widen
      p.ahead_le_size
  | _ => p.done (.var name)
termination_by 4 * p.size

/-- A binding behind the word that starts it. -/
def letIn (p : Parser) : Step p.size Expr :=
  p.expectName.andThen fun name q _ =>
    (q.expect .equals).andThen fun _ q _ =>
      (q.expr 0).andThen fun bound q _ =>
        (q.expect .inWord).andThen fun _ q _ =>
          (q.expr 0).map fun body => .letIn name bound body
termination_by 4 * p.size + 3
end

/-- A whole expression: nothing may follow it. -/
def parse (p : Parser) : Step p.size Expr :=
  (p.expr 0).andThen fun e q _ =>
    match q.lookahead? with
    | none => q.done e
    | some token => q.fail (.afterExpression token.kind) token.span

end Parser

def parse (source : List Char) : Except Fault Expr :=
  ((Parser.start source).bump.andThen fun _ p _ => p.parse).result

end Abacus
