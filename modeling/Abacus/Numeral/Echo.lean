import Abacus.Decimal.Notation
import Abacus.Decimal.Shortest

/-!
# Numbers as they are shown

The shortest decimal that reads back: positional from 0.0001 up to 16 digits before the point, scientific beyond.
-/

namespace Abacus.Binary64

def echoDigits (d : Decimal) : List Char :=
  if -4 ≤ d.leading ∧ d.leading < 16 then d.positional else d.scientific

/-- A minus sign, if the sign is set. -/
def signText (negative : Bool) : String := if negative then "-" else ""

def echo : Binary64 → String
  | .nan => "nan"
  | .infinite negative => signText negative ++ "inf"
  | .finite negative m => signText negative ++ String.ofList (echoDigits m.shortest)

end Abacus.Binary64
