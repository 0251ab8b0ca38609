import Abacus.Proofs.Evaluation.FreeVariables
import Abacus.Proofs.Parsing.Theorems
import Abacus.Report

/-!
# The status of a report

The status tells whether the source is an expression all of whose free variables are bound. What is printed ends with the
value, with the first variable that is not bound, or with the fault of the parse.
-/

namespace Abacus

variable {source : List Char}

namespace Report

open Abacus.Parser

/-! ## Output -/

end Report

end Abacus
