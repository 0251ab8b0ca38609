import Abacus.CommandLine.Plan

/-!
# The program

Reads the arguments, then prints what the plan says. A dialogue is held line by line.
-/

namespace Abacus.CommandLine

def emit (output : String) (verbose : Bool) (events : List Event) : IO Unit := do
  let stdout ← IO.getStdout
  stdout.putStr output
  stdout.flush
  IO.eprint (Plan.journal verbose events)

/-- Answers lines until one ends the dialogue or none is left. -/
partial def converse (d : Dialogue) (verbose : Bool) : IO Unit := do
  emit Dialogue.prompt false []
  let input ← (← IO.getStdin).getLine
  if input.isEmpty then emit Dialogue.farewell false []
  else
    let reply := d.reply input
    emit reply.output verbose reply.events
    match reply.next? with
    | some next => converse next verbose
    | none => return

def execute : Plan → IO UInt32
  | .stop outcome => do
    emit outcome.output false []
    IO.eprint outcome.errors
    return outcome.status.toUInt32
  | .report source env settings verbose => do
    let r := Report.ofSource source env settings
    emit r.output verbose r.events
    return r.status.toUInt32
  | .converse dialogue verbose => do
    emit Dialogue.banner false []
    converse dialogue verbose
    return 0

end Abacus.CommandLine

def main (arguments : List String) : IO UInt32 := do
  match Abacus.CommandLine.Plan.ofArguments arguments with
  | .ok plan => Abacus.CommandLine.execute plan
  | .error e =>
    IO.eprintln e.message
    return 1
