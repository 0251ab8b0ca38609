import Abacus.Text.CharLiteral
import Abacus.Text.Printable

/-!
# Quoted text

A text is quoted with single quotes, or with double quotes if that saves escaping. The quote, the backslash and
whatever is not printable are escaped.
-/

namespace Abacus.Text

/-- Double quotes, for a text with a single quote and no double one. -/
def quoteMark (s : String) : Char :=
  if s.toList.contains '\'' && !s.toList.contains '"' then '"' else '\''

/-- The shortest of the three hexadecimal escapes that holds the code point. -/
def hexEscape (c : Char) : String :=
  if c.toNat < 0x100 then "\\x" ++ hex 2 c.toNat
  else if c.toNat < 0x10000 then "\\u" ++ hex 4 c.toNat
  else "\\U" ++ hex 8 c.toNat

def quotedChar (mark c : Char) : String :=
  if c = mark ∨ c = '\\' then "\\" ++ c.toString
  else if c = '\t' then "\\t"
  else if c = '\n' then "\\n"
  else if c = '\r' then "\\r"
  else if isPrintable c then c.toString
  else hexEscape c

def quote (s : String) : String :=
  let mark := (quoteMark s).toString
  mark ++ String.join (s.toList.map (quotedChar (quoteMark s))) ++ mark

end Abacus.Text
