import Abacus.Decimal.Basic
import Abacus.Text.Blank
import Abacus.Text.Digit

/-!
# Reading numbers

A number that a user hands over is a sign, digits with an optional point and an optional power of ten, or a word for
infinity or NaN in either case of letters. Blanks around it are dropped, digits of any script are read by their value,
and a single underscore may stand between two digits.
-/

namespace Abacus

namespace Numeral

/-- Blanks, except for the four information separators. -/
def isMargin (c : Char) : Bool := Text.isBlank c && !('\x1c' ≤ c && c ≤ '\x1f')

/-- Digits with single underscores between them, without the underscores; the empty text has no digits. -/
def grouped? : List Char → Option (List Char)
  | [] => some []
  | c :: rest =>
    if c.isDigit then
      match rest with
      | '_' :: d :: more => (grouped? (d :: more)).map (c :: ·)
      | rest => (grouped? rest).map (c :: ·)
    else none

/-- A sign in front, true for minus, and the rest. -/
def splitSign : List Char → Bool × List Char
  | '-' :: rest => (true, rest)
  | '+' :: rest => (false, rest)
  | cs => (false, cs)

/-- The text before the first character of a class, and the text after it if there is one. -/
def splitAt? (p : Char → Bool) (cs : List Char) : List Char × Option (List Char) :=
  (cs.takeWhile (!p ·), (cs.dropWhile (!p ·)).tail?)

/-- A power of ten with its sign; without one it is zero. -/
def exponent? : Option (List Char) → Option Int
  | none => some 0
  | some cs => do
    let (negative, cs) := splitSign cs
    let digits ← grouped? cs
    guard (digits ≠ [])
    let value : Int := Nat.ofDigitChars 10 digits 0
    return if negative then -value else value

/-- The decimal written by an unsigned numeral. Its exponent is cut off where the value is past the last magnitude or
below half the least, so that no power of ten grows with the text of the exponent. -/
def decimal? (cs : List Char) : Option Decimal := do
  let (mantissa, power) := splitAt? (fun c => c == 'e' || c == 'E') cs
  let (whole, fraction) := splitAt? (· == '.') mantissa
  let whole ← grouped? whole
  let fraction ← grouped? (fraction.getD [])
  let exponent ← exponent? power
  let count := whole.length + fraction.length
  guard (count ≠ 0)
  let read := Decimal.ofDigits whole fraction
  return { read with exponent := max (-(count + 330 : Nat)) (min 310 (read.exponent + exponent)) }

end Numeral

/-- The number that a text gives. -/
def Binary64.ofText? (s : String) : Option Binary64 :=
  let cs := (Text.trimmed Numeral.isMargin s.toList).map Text.asciiDigit
  let (negative, body) := Numeral.splitSign cs
  let word := String.ofList (body.map Char.toLower)
  if word = "nan" then some .nan
  else if word = "inf" ∨ word = "infinity" then some (.infinite negative)
  else (Numeral.decimal? body).map (Decimal.nearest negative)

end Abacus
