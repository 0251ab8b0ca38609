import Abacus.Text.CharLiteral

/-!
# JSON strings

A JSON string in ASCII: any character outside of the visible ones and the space is escaped, beyond U+FFFF as a pair of
surrogates.
-/

namespace Abacus.Text

def jsonUnit (n : Nat) : String := "\\u" ++ hex 4 n

def jsonChar (c : Char) : String :=
  if c = '"' then "\\\""
  else if c = '\\' then "\\\\"
  else if c = '\n' then "\\n"
  else if c = '\r' then "\\r"
  else if c = '\t' then "\\t"
  else if c = '\x0c' then "\\f"
  else if c = '\x08' then "\\b"
  else if ' ' ≤ c && c ≤ '~' then c.toString
  else if c.toNat < 0x10000 then jsonUnit c.toNat
  else
    let n := c.toNat - 0x10000
    jsonUnit (0xd800 + n / 0x400) ++ jsonUnit (0xdc00 + n % 0x400)

def jsonString (s : String) : String := "\"" ++ String.join (s.toList.map jsonChar) ++ "\""

end Abacus.Text
