import Abacus.Numeral.Reader
import Abacus.Text.Quoted

/-!
# Arguments

Every argument is classified by itself, before any of them is acted on: as a switch, perhaps abbreviated and with a
value attached, as text, or as a switch that does not exist. Behind the first `--` all is text.
-/

namespace Abacus.CommandLine

inductive Switch where
  | help
  | define
  | tokens
  | json
  | repl
  | verbose
  deriving DecidableEq

namespace Switch

/-- Every spelling of a switch, in the order in which they are offered. -/
def names : List (String × Switch) :=
  [("-h", help), ("--help", help), ("-D", define), ("--define", define), ("--tokens", tokens), ("--json", json),
   ("--repl", repl), ("-v", verbose), ("--verbose", verbose)]

def ofName? (name : String) : Option Switch := names.lookup name

/-- The spellings of a switch, as messages name it. -/
def title (s : Switch) : String := "/".intercalate ((names.filter (·.2 = s)).map (·.1))

end Switch

inductive Argument where
  | text (s : String)
  | divider
  | switch (s : Switch) (short : Bool) (value? : Option String)
  | unknown (s : String)

/-- An argument that abbreviates more than one switch. -/
structure Ambiguity where
  argument : String
  candidates : List String

namespace Argument

/-- One dash and a letter, not two dashes. -/
def isShort (name : List Char) : Bool := name.take 2 != ['-', '-']

def isDigits (cs : List Char) : Bool := !cs.isEmpty && cs.all Text.isDigit

/-- A minus, digits and perhaps a point with digits behind it; a line break may follow. -/
def isNegativeNumber (cs : List Char) : Bool :=
  match cs with
  | '-' :: body =>
    let body := if body.getLast? = some '\n' then body.dropLast else body
    match Numeral.splitAt? (· == '.') body with
    | (whole, none) => isDigits whole
    | (whole, some fraction) => whole.all Text.isDigit && isDigits fraction
  | _ => false

/-- The switches that an argument may stand for, with their spellings and the value attached: a long one may be cut
short, and a short one may be followed by its value. -/
def candidates (cs : List Char) : List (String × Argument) :=
  if isShort cs then
    match Switch.ofName? (String.ofList (cs.take 2)) with
    | some s => [(String.ofList (cs.take 2), switch s true (some (String.ofList (cs.drop 2))))]
    | none => []
  else
    let (start, value?) := Numeral.splitAt? (· == '=') cs
    (Switch.names.filter fun entry => start.isPrefixOf entry.1.toList).map fun entry =>
      (entry.1, switch entry.2 false (value?.map String.ofList))

/-- The switch that an argument spells out in full, before its first equals sign if it has one. -/
def spelledOut? (cs : List Char) : Option Argument :=
  match Switch.ofName? (String.ofList cs) with
  | some s => some (switch s (isShort cs) none)
  | none =>
    match Numeral.splitAt? (· == '=') cs with
    | (name, some value) =>
      (Switch.ofName? (String.ofList name)).map fun s => switch s (isShort name) (some (String.ofList value))
    | (_, none) => none

def ofString (s : String) : Except Ambiguity Argument :=
  let cs := s.toList
  match cs with
  | '-' :: _ :: _ =>
    match spelledOut? cs with
    | some argument => .ok argument
    | none =>
      match candidates cs with
      | [candidate] => .ok candidate.2
      | [] => .ok (if isNegativeNumber cs || cs.contains ' ' then text s else unknown s)
      | several => .error ⟨s, several.map (·.1)⟩
  | _ => .ok (text s)

/-- Classifies all arguments, or finds the first ambiguous one. -/
def ofStrings : List String → Except Ambiguity (List Argument)
  | [] => .ok []
  | s :: rest =>
    if s = "--" then .ok (divider :: rest.map text)
    else do return (← ofString s) :: (← ofStrings rest)

end Argument

end Abacus.CommandLine
