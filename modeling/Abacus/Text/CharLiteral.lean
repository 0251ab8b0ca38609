import Abacus.Text.Digit
import Abacus.Text.Letter

/-!
# Characters in messages

A message shows a character between single quotes: as it is if it can be seen, by a short escape or by the hexadecimal
digits of its code point otherwise.
-/

namespace Abacus.Text

/-- Lower-case hexadecimal digits, at least `width` of them. -/
def hex (width n : Nat) : String :=
  let digits := Nat.toDigits 16 n
  String.ofList (List.replicate (width - digits.length) '0' ++ digits)

def shortEscape? (c : Char) : Option String :=
  if c = '\t' then some "\\t"
  else if c = '\n' then some "\\n"
  else if c = '\r' then some "\\r"
  else if c = '\x08' then some "\\b"
  else if c = '\x0c' then some "\\f"
  else if c = '\'' then some "\\'"
  else none

/-- The visible characters of ASCII, letters and digits. -/
def isPlain (c : Char) : Bool := ('!' ≤ c && c ≤ '~') || isLetter c || isDigit c

def charLiteral (c : Char) : String :=
  let body := match shortEscape? c with
    | some escape => escape
    | none => if isPlain c then c.toString else "\\u" ++ hex 4 c.toNat
  "'" ++ body ++ "'"

end Abacus.Text
