import Abacus.Operator
import Abacus.Source.Span

/-!
# Tokens

A token is a lexeme and the span it was read from. Its kind is what the grammar tells apart; its payload is what it
carries besides.
-/

namespace Abacus

inductive Lexeme where
  | number (value : Binary64)
  | name (text : String)
  | operator (op : Operator)
  | openParen
  | closeParen
  | letWord
  | inWord
  | equals
  deriving DecidableEq

structure Token where
  lexeme : Lexeme
  span : Span
  deriving DecidableEq

namespace Token

inductive Kind where
  | number
  | name
  | operator
  | openParen
  | closeParen
  | letWord
  | inWord
  | equals
  /-- A kind that no lexeme has. -/
  | other (label : String)
  deriving DecidableEq

namespace Kind

/-- The kinds that lexemes have. -/
def all : List Kind := [number, name, operator, openParen, closeParen, letWord, inWord, equals]

def label : Kind → String
  | number => "NUMBER"
  | name => "IDENT"
  | operator => "OPERATOR"
  | openParen => "LPAREN"
  | closeParen => "RPAREN"
  | letWord => "LET"
  | inWord => "IN"
  | equals => "EQUALS"
  | other label => label

def ofLabel (s : String) : Kind := (all.find? (·.label == s)).getD (other s)

end Kind

inductive Payload where
  | number (value : Binary64)
  | text (s : String)
  | operator (op : Operator)

end Token

namespace Lexeme

def kind : Lexeme → Token.Kind
  | number _ => .number
  | name _ => .name
  | operator _ => .operator
  | openParen => .openParen
  | closeParen => .closeParen
  | letWord => .letWord
  | inWord => .inWord
  | equals => .equals

def payload? : Lexeme → Option Token.Payload
  | number value => some (.number value)
  | name text => some (.text text)
  | operator op => some (.operator op)
  | _ => none

/-- The words that are not names. -/
def keywords : List (String × Lexeme) := [("let", letWord), ("in", inWord)]

/-- A keyword, or else a name. -/
def ofWord (word : String) : Lexeme := (keywords.lookup word).getD (name word)

/-- The characters that are lexemes by themselves. -/
def punctuation : List (Char × Lexeme) := [('(', openParen), (')', closeParen)]

theorem kind_mem_all (l : Lexeme) : l.kind ∈ Token.Kind.all := by cases l <;> simp [kind, Token.Kind.all]

end Lexeme

namespace Token

def kind (t : Token) : Kind := t.lexeme.kind

/-- The text of a name, empty for any other token. -/
def text (t : Token) : String :=
  match t.lexeme with
  | .name text => text
  | _ => ""

end Token

end Abacus
