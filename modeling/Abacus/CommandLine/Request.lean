import Abacus.CommandLine.Argument
import Abacus.CommandLine.Definition
import Abacus.Env

/-!
# Requests

The arguments are acted on in order. The first text is the source; a second one, and a switch that does not exist, are
refused at the end. Short switches may be packed into one argument, of which the last may take a value.
-/

namespace Abacus.CommandLine

inductive UsageError where
  | ambiguous (a : Ambiguity)
  | ignoredValue (s : Switch) (value : String)
  | missingValue (s : Switch)
  | badDefinition (e : DefinitionError)
  | unrecognized (arguments : List String)

/-- A message about the use of one switch. -/
def UsageError.about (s : Switch) (message : String) : String := "argument " ++ s.title ++ ": " ++ message

def UsageError.message : UsageError → String
  | .ambiguous a => "ambiguous option: " ++ a.argument ++ " could match " ++ ", ".intercalate a.candidates
  | .ignoredValue s value => about s ("ignored explicit argument " ++ Text.quote value)
  | .missingValue s => about s "expected one argument"
  | .badDefinition e => about .define e.message
  | .unrecognized arguments => "unrecognized arguments: " ++ " ".intercalate arguments

/-- What keeps a request from being made: a call for help, or an error. -/
inductive Refusal where
  | help
  | usage (e : UsageError)

/-- A definition may be empty: a value that is nothing but `--` is dropped. -/
structure Request where
  source? : Option String
  definitions : List (Option (String × Binary64))
  showTokens : Bool
  asJson : Bool
  interactive : Bool
  verbose : Bool

namespace Request

def empty : Request := ⟨none, [], false, false, false, false⟩

def define (r : Request) (value : String) : Except Refusal Request :=
  if value = "--" then .ok { r with definitions := r.definitions ++ [none] }
  else match readDefinition value with
    | .ok definition => .ok { r with definitions := r.definitions ++ [some definition] }
    | .error e => .error (.usage (.badDefinition e))

/-- Acts on a switch without a value. -/
def turnOn (r : Request) : Switch → Except Refusal Request
  | .help => .error .help
  | .define => .error (.usage (.missingValue .define))
  | .tokens => .ok { r with showTokens := true }
  | .json => .ok { r with asJson := true }
  | .repl => .ok { r with interactive := true }
  | .verbose => .ok { r with verbose := true }

end Request

/-- The switches packed into one argument. -/
structure Cluster where
  flags : List Switch
  /-- Whether a definition comes last, and its value if that is attached. -/
  define? : Option (Option String)

namespace Cluster

def ofSwitch (s : Switch) : Cluster := if s = .define then ⟨[], some none⟩ else ⟨[s], none⟩

/-- A switch with text attached: the value of a definition, or more short switches behind a short one. -/
def ofAttached (s : Switch) (short : Bool) (attached : List Char) : Except UsageError Cluster :=
  if s = .define then .ok ⟨[], some (some (String.ofList attached))⟩
  else
    match attached with
    | [] => .error (.ignoredValue s "")
    | c :: rest =>
      match if short then Switch.ofName? (String.ofList ['-', c]) else none with
      | none => .error (.ignoredValue s (String.ofList (c :: rest)))
      | some next => do
        let cluster ← if rest.isEmpty then .ok (ofSwitch next) else ofAttached next true rest
        return { cluster with flags := s :: cluster.flags }
termination_by structural attached

end Cluster

/-- How far the arguments have been acted on. -/
structure Progress where
  request : Request
  /-- Whether the place of the source is taken, be it by nothing. -/
  sourceTaken : Bool
  /-- What will be refused. -/
  extras : List String

namespace Progress

def start : Progress := ⟨.empty, false, []⟩

def refuse (p : Progress) (argument : String) : Progress := { p with extras := p.extras ++ [argument] }

def takeSource (p : Progress) (source? : Option String) : Progress :=
  { p with request := { p.request with source? := source? }, sourceTaken := true }

def apply (p : Progress) (c : Cluster) (value? : Option String) : Except Refusal Progress := do
  let request ← c.flags.foldlM Request.turnOn p.request
  let request ← match value? with
    | some value => request.define value
    | none => .ok request
  return { p with request }

/-- Acts on the arguments that are left. A `--` in front of the source or behind it is dropped. -/
def run (p : Progress) : List Argument → Except Refusal Progress
  | [] => .ok p
  | .unknown s :: rest => (p.refuse s).run rest
  | .text s :: rest =>
    if p.sourceTaken then (p.refuse s).run rest
    else match rest with
      | .divider :: rest => (p.takeSource (some s)).run rest
      | rest => (p.takeSource (some s)).run rest
  | .divider :: rest =>
    if p.sourceTaken then (p.refuse "--").run rest
    else match rest with
      | .text s :: rest => (p.takeSource (some s)).run rest
      | rest => (p.takeSource none).run rest
  | .switch s short value? :: rest =>
    match value?.elim (.ok (.ofSwitch s)) fun value => Cluster.ofAttached s short value.toList with
    | .error e => .error (.usage e)
    | .ok cluster =>
      match cluster.define?, rest with
      | none, rest => do (← p.apply cluster none).run rest
      | some (some value), rest => do (← p.apply cluster (some value)).run rest
      | some none, .text value :: rest => do (← p.apply cluster (some value)).run rest
      | some none, _ => .error (.usage (.missingValue .define))

end Progress

def Request.ofArguments (arguments : List String) : Except Refusal Request :=
  match Argument.ofStrings arguments with
  | .error ambiguity => .error (.usage (.ambiguous ambiguity))
  | .ok arguments => do
    let p ← Progress.start.run arguments
    if p.extras.isEmpty then return p.request else .error (.usage (.unrecognized p.extras))

/-! ## The environment of a request -/

/-- The place of a definition that is empty. -/
structure EmptyDefinition where
  index : Nat

def EmptyDefinition.message (e : EmptyDefinition) : String := s!"definition {e.index} is empty"

/-- The environment of the definitions, of which none may be empty. -/
def Request.env (r : Request) : Except EmptyDefinition Env :=
  match r.definitions.findIdx? Option.isNone with
  | some index => .error ⟨index⟩
  | none => .ok (.ofList (r.definitions.filterMap id))

end Abacus.CommandLine
