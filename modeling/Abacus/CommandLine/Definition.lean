import Abacus.Numeral.Reader
import Abacus.Text.Quoted

/-!
# Definitions on the command line

A definition is a name, an equals sign and a number. Blanks around the name are dropped; any other text is a name.
-/

namespace Abacus

inductive DefinitionError where
  | malformed (text : String)
  | notANumber (name value : String)
  deriving DecidableEq

def DefinitionError.message : DefinitionError → String
  | .malformed text => "expected NAME=VALUE, got " ++ Text.quote text
  | .notANumber name value => "value for " ++ Text.quote name ++ " is not a number: " ++ Text.quote value

/-- Reads a definition; the name ends at the first equals sign. -/
def readDefinition (text : String) : Except DefinitionError (String × Binary64) :=
  let (before, after?) := Numeral.splitAt? (· == '=') text.toList
  let name := Text.strip (String.ofList before)
  match after? with
  | none => .error (.malformed text)
  | some after =>
    if name = "" then .error (.malformed text)
    else
      let value := String.ofList after
      match Binary64.ofText? value with
      | some number => .ok (name, number)
      | none => .error (.notANumber name value)

end Abacus
