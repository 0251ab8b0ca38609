import Abacus.Source.Cursor

/-!
# Calls of a cursor

A cursor is asked for the next character, for one some places away, whether it is at the end, or for a run of a class of
characters. The calls come in any order, and each goes on with the cursor that the one before it left.
-/

namespace Abacus.Cursor

inductive Call where
  | next
  | peek (offset : Int)
  | atEnd
  | advanceWhile (p : Char → Bool)

/-- Whether a call asks for nothing to be taken. -/
def Call.looks : Call → Bool
  | peek _ | atEnd => true
  | next | advanceWhile _ => false

inductive Answer where
  | char (c : Char)
  /-- There was no character to take. -/
  | pastEnd (message : String)
  | seen (c? : Option Char)
  | ended (atEnd : Bool)
  | run (text : List Char)

/-- The text that was taken from the source for an answer. -/
def Answer.taken : Answer → List Char
  | char c => [c]
  | run text => text
  | pastEnd _ | seen _ | ended _ => []

def perform (c : Cursor) : Call → Answer × Cursor
  | .next => c.next?.elim (.pastEnd c.endMessage, c) fun next => (.char next.1, next.2)
  | .peek offset => (.seen (c.peek offset), c)
  | .atEnd => (.ended c.atEnd, c)
  | .advanceWhile p => (.run (c.advanceWhile p).1, (c.advanceWhile p).2)

/-- A call, the cursor that it was made of, and what came of it. -/
structure Reply where
  call : Call
  before : Cursor
  answer : Answer
  after : Cursor

def reply (c : Cursor) (call : Call) : Reply := ⟨call, c, (c.perform call).1, (c.perform call).2⟩

def replies (c : Cursor) : List Call → List Reply
  | [] => []
  | call :: calls => c.reply call :: (c.reply call).after.replies calls

/-- The cursor that the last of the calls leaves. -/
def behind (c : Cursor) : List Call → Cursor
  | [] => c
  | call :: calls => (c.reply call).after.behind calls

end Abacus.Cursor
