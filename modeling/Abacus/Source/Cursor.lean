/-!
# Cursors

A cursor is a place in a text that only moves forward. It may have been set behind the end.
-/

namespace Abacus

structure Cursor where
  source : List Char
  position : Nat
  deriving DecidableEq

namespace Cursor

/-- The text ahead of the cursor. -/
def rest (c : Cursor) : List Char := c.source.drop c.position

def atEnd (c : Cursor) : Bool := c.source.length ≤ c.position

/-- The character a number of places ahead, or behind for a negative number. -/
def peek (c : Cursor) (offset : Int) : Option Char :=
  let i := c.position + offset
  if i < 0 then none else c.source[i.toNat]?

def skip (c : Cursor) (count : Nat) : Cursor := { c with position := c.position + count }

/-- The character ahead and the cursor behind it. -/
def next? (c : Cursor) : Option (Char × Cursor) := c.source[c.position]?.map fun ch => (ch, c.skip 1)

/-- What a cursor says when nothing is ahead of it. -/
def endMessage (c : Cursor) : String := s!"read past end of source at position=<{c.position}>"

/-- The longest text ahead of which every character is in the class, and the cursor behind it. -/
def advanceWhile (p : Char → Bool) (c : Cursor) : List Char × Cursor :=
  let run := c.rest.takeWhile p
  (run, c.skip run.length)

/-! ## The text ahead -/

theorem skip_skip (c : Cursor) (m n : Nat) : (c.skip m).skip n = c.skip (m + n) := by
  simp [skip, Nat.add_assoc]

theorem rest_skip (c : Cursor) (n : Nat) : (c.skip n).rest = c.rest.drop n := by
  simp [rest, skip, List.drop_drop]

theorem rest_eq_nil_iff {c : Cursor} : c.rest = [] ↔ c.atEnd = true := by
  simp [rest, atEnd]

theorem rest_advanceWhile (p : Char → Bool) (c : Cursor) : (c.advanceWhile p).2.rest = c.rest.dropWhile p := by
  simp only [advanceWhile, rest_skip]
  calc c.rest.drop (c.rest.takeWhile p).length
      = (c.rest.takeWhile p ++ c.rest.dropWhile p).drop (c.rest.takeWhile p).length := by
        rw [List.takeWhile_append_dropWhile]
    _ = c.rest.dropWhile p := List.drop_left

end Cursor

end Abacus
