import Abacus.Numeral.Echo
import Abacus.Source.Excerpt
import Abacus.Text.Blank
import Abacus.Token.Basic

/-!
# Listings of tokens

What a listing shows of a token: its kind, its payload and its place. Two listings are equal as their values are, so a
NaN makes a listing differ from itself.
-/

namespace Abacus.Token

namespace Payload

def echo : Payload → String
  | number value => value.echo
  | text s => s
  | operator op => op.symbol

def same : Payload → Payload → Bool
  | number x, number y => x.same y
  | text s, text t => s == t
  | operator a, operator b => a == b
  | _, _ => false

end Payload

structure Listing where
  kind : Kind
  payload? : Option Payload
  span : Span

def listing (t : Token) : Listing := ⟨t.kind, t.lexeme.payload?, t.span⟩

namespace Listing

def same (a b : Listing) : Bool :=
  a.kind == b.kind && a.span == b.span &&
    match a.payload?, b.payload? with
    | none, none => true
    | some p, some q => p.same q
    | _, _ => false

/-- The number of different values among two listings. -/
def distinct (a b : Listing) : Nat := if a.same b then 1 else 2

def constructorForm (l : Listing) : String :=
  match l.payload? with
  | none => "Token(" ++ l.kind.label ++ ")"
  | some payload => "Token(" ++ l.kind.label ++ ", " ++ payload.echo ++ ")"

/-- The kind in a column of eleven characters, then the payload. -/
def headline (l : Listing) : String :=
  let label := l.kind.label
  let column := label ++ String.ofList (List.replicate (11 - label.length) ' ')
  Text.stripEnd ("Token " ++ column ++ " " ++ (l.payload?.map Payload.echo).getD "")

def describe (source : List Char) (l : Listing) : String :=
  l.headline ++ "\n" ++ (Excerpt.ofSpan source l.span).text

end Listing

end Abacus.Token
