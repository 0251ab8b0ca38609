import Abacus.Attempt.Dialogue
import Abacus.Attempt.Evaluation
import Abacus.Attempt.Operators
import Abacus.Attempt.Report
import Abacus.Attempt.Tokens
import Abacus.Dialogue.Lines
import Abacus.Evaluation.Lexical
import Abacus.Evaluation.Lookups
import Abacus.Evaluation.Session
import Abacus.Expr.Shape
import Abacus.Expr.Variables
import Abacus.Expr.Yield
import Abacus.Grammar
import Abacus.Main
import Abacus.Proofs.Arithmetic.Power
import Abacus.Proofs.Attempt.Evaluation
import Abacus.Proofs.Attempt.Operators
import Abacus.Proofs.Attempt.Report
import Abacus.Proofs.Attempt.Tokens
import Abacus.Proofs.Diagnostic.Underline
import Abacus.Proofs.Dialogue.Independence
import Abacus.Proofs.Evaluation.Environment
import Abacus.Proofs.Evaluation.FreeVariables
import Abacus.Proofs.Evaluation.Scoping
import Abacus.Proofs.Evaluation.Substitution
import Abacus.Proofs.Evaluation.Traces
import Abacus.Proofs.Lexing.Calls
import Abacus.Proofs.Lexing.Division
import Abacus.Proofs.Lexing.Shift
import Abacus.Proofs.Numeral.Echo
import Abacus.Proofs.Numeral.Plain
import Abacus.Proofs.Numeral.Reading
import Abacus.Proofs.Parsing.Calls
import Abacus.Proofs.Parsing.Composition
import Abacus.Proofs.Parsing.Levels
import Abacus.Proofs.Parsing.LexicalFaults
import Abacus.Proofs.Parsing.Theorems
import Abacus.Proofs.Parsing.Walks
import Abacus.Proofs.Printing.Canonical
import Abacus.Proofs.Printing.Echo
import Abacus.Proofs.Printing.Json
import Abacus.Proofs.Printing.RoundTrip
import Abacus.Proofs.Printing.Signs
import Abacus.Proofs.Source.Cursor
import Abacus.Segmentation
import Abacus.Tokenizer.Calls
