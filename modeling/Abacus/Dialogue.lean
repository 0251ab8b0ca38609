import Abacus.Report

/-!
# Dialogues

A dialogue answers one line after another. Every expression is evaluated in the environment that the dialogue began
with; only the settings change, by commands that start with a colon.
-/

namespace Abacus

structure Dialogue where
  env : Env
  settings : Settings

namespace Dialogue

def prompt : String := "climb> "

def banner : String := "climb REPL. Type :quit to exit.\n"

/-- What is printed when no line is left. -/
def farewell : String := "\nExiting climb REPL.\n"

inductive Command where
  | quit
  | tokens
  | json

def Command.ofText? (s : String) : Option Command :=
  if s = ":quit" ∨ s = ":q" then some .quit
  else if s = ":tokens" then some .tokens
  else if s = ":json" then some .json
  else none

def onOff (on : Bool) : String := if on then "on" else "off"

/-- What a dialogue prints and records for a line, and the dialogue after it, none if the line ends it. -/
structure Reply where
  next? : Option Dialogue
  output : String
  events : List Event

def reply (d : Dialogue) (input : String) : Reply :=
  let text := Text.strip input
  if text = "" then ⟨some d, "", []⟩
  else match Command.ofText? text with
    | some .quit => ⟨none, "", []⟩
    | some .tokens =>
      let on := !d.settings.showTokens
      ⟨some { d with settings.showTokens := on }, Report.line ("[ok] >>> token dump " ++ onOff on), []⟩
    | some .json =>
      let on := !d.settings.asJson
      ⟨some { d with settings.asJson := on }, Report.line ("[ok] >>> JSON output " ++ onOff on), []⟩
    | none =>
      let report := Report.ofSource text.toList d.env d.settings
      ⟨some d, report.output, report.events⟩

/-- What is printed and recorded for a list of lines, with the prompt before each. -/
def answers (d : Dialogue) : List String → String × List Event
  | [] => (prompt ++ farewell, [])
  | input :: inputs =>
    let r := d.reply input
    match r.next? with
    | none => (prompt ++ r.output, r.events)
    | some next =>
      let later := next.answers inputs
      (prompt ++ r.output ++ later.1, r.events ++ later.2)

def transcript (d : Dialogue) (inputs : List String) : String × List Event :=
  let (output, events) := d.answers inputs
  (banner ++ output, events)

/-- The lines of a text; the last one may lack its line break. -/
def lines : List Char → List (List Char)
  | [] => []
  | '\n' :: rest => [] :: lines rest
  | c :: rest =>
    match lines rest with
    | [] => [[c]]
    | first :: others => (c :: first) :: others

end Dialogue

end Abacus
