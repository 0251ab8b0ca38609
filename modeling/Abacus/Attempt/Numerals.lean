import Abacus.Attempt.Tokens
import Abacus.Numeral.Plain

/-!
# Attempts to write numbers

A number becomes source text by way of its echo. An echo without a power of ten stands as it is. Any other is read as the
decimal that it writes, which breaks down if it is no numeral, and the decimal is written without the power.
-/

namespace Abacus

namespace Decimal

/-- The decimal that an unsigned numeral writes, whatever its size. -/
def ofNumeral? (cs : List Char) : Option Decimal := do
  let (mantissa, power?) := Numeral.splitAt? (· == 'e') cs
  let (whole, fraction?) := Numeral.splitAt? (· == '.') mantissa
  let whole ← Numeral.grouped? whole
  let fraction ← Numeral.grouped? (fraction?.getD [])
  let power ← Numeral.exponent? power?
  guard (whole.length + fraction.length ≠ 0)
  let read := ofDigits whole fraction
  return { read with exponent := read.exponent + power }

/-- All digits of the decimal, with a point only if some stand behind it. -/
def expanded (d : Decimal) : List Char :=
  if 0 ≤ d.exponent then d.digits ++ List.replicate d.exponent.toNat '0' else d.positional

end Decimal

namespace Binary64

/-- Writes out the power of ten of an echo. -/
def attemptExpand (text : List Char) : Except Breakdown (List Char) :=
  let (negative, body) := Numeral.splitSign text
  (Decimal.ofNumeral? body).elim (.error (.noNumeral text)) fun d => .ok ((signText negative).toList ++ d.expanded)

def attemptPlain : Binary64 → Except Breakdown String
  | .infinite negative => return signText negative ++ "1" ++ String.ofList (List.replicate 309 '0') ++ ".0"
  | x => do
    let text := x.echo
    if 'e' ∉ text.toList then return text
    let text ← attemptExpand text.toList
    return String.ofList (if '.' ∈ text then text else text ++ ['.', '0'])

end Binary64

end Abacus
