import Abacus.Numeral.Echo

/-!
# Numbers as source text

Source text has no exponents, so every number is written in positional notation. An infinity is written as a number that
is read past the last magnitude.
-/

namespace Abacus.Binary64

/-- A one and 309 zeros: the least power of ten that is read as infinity. -/
def overflowing : Decimal := ⟨1, 309⟩

def plain : Binary64 → String
  | .nan => "nan"
  | .infinite negative => signText negative ++ String.ofList overflowing.positional
  | .finite negative m => signText negative ++ String.ofList m.shortest.positional

end Abacus.Binary64
