import Abacus.Attempt.Report
import Abacus.Dialogue

/-!
# Attempts to hold a dialogue

Every expression is evaluated in the environment of the dialogue itself, and the next line meets what the evaluation has
left there.
-/

namespace Abacus.Dialogue

/-- The reply to a line. A line that is neither blank nor a command is attempted as an expression. -/
def attemptReply (d : Dialogue) (input : String) : Except Breakdown Reply :=
  let text := Text.strip input
  if text = "" ∨ (Command.ofText? text).isSome then .ok (d.reply input)
  else do
    let (report, env) ← Report.attempt text.toList d.env d.settings
    return ⟨some { d with env := env }, report.output, report.events⟩

def attemptAnswers (d : Dialogue) : List String → Except Breakdown (String × List Event)
  | [] => .ok (prompt ++ farewell, [])
  | input :: inputs => do
    let r ← d.attemptReply input
    match r.next? with
    | none => return (prompt ++ r.output, r.events)
    | some next =>
      let later ← next.attemptAnswers inputs
      return (prompt ++ r.output ++ later.1, r.events ++ later.2)

def attempt (d : Dialogue) (inputs : List String) : Except Breakdown (String × List Event) := do
  let (output, events) ← d.attemptAnswers inputs
  return (banner ++ output, events)

end Abacus.Dialogue
