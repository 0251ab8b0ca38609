/-!
# Spans

A span is a stretch of a source text, counted in characters. Its start may be any integer: like every index into a text,
a negative one counts from the end.
-/

namespace Abacus

/-- The place in a text of the given length that an index means: a negative index counts from the end, and one outside
the text is moved to the nearer end. -/
def resolveIndex (length : Nat) (i : Int) : Nat :=
  if i < 0 then (length + i).toNat else min i.toNat length

/-- The part of a text between two indices, empty if the second lies before the first. -/
def slice (cs : List Char) (first last : Int) : List Char :=
  let start := resolveIndex cs.length first
  (cs.drop start).take (resolveIndex cs.length last - start)

structure Span where
  start : Int
  length : Nat
  deriving DecidableEq

/-- Why a span is refused. -/
inductive SpanError where
  | negativeLength (length : Int)
  | immutable
  deriving DecidableEq

def SpanError.message : SpanError → String
  | .negativeLength length => s!"span length negative: {length}"
  | .immutable => "Span is immutable"

namespace Span

def stop (s : Span) : Int := s.start + s.length

def ofLength (start length : Int) : Except SpanError Span :=
  if length < 0 then .error (.negativeLength length) else .ok ⟨start, length.toNat⟩

/-- The span from one index up to another. -/
def between (start stop : Int) : Except SpanError Span := ofLength start (stop - start)

/-- The empty span behind the last character. -/
def atEnd (source : List Char) : Span := ⟨source.length, 0⟩

/-- A span never changes: it takes no new value in any field. -/
def assign (_ : Span) (_field : String) (_value : Int) : Except SpanError Span := .error .immutable

def text (s : Span) (source : List Char) : List Char := slice source s.start s.stop

def constructorForm (s : Span) : String := s!"Span({s.start}, {s.length})"

/-! ## Text within bounds -/

theorem text_of_le {s : Span} {source : List Char} {start : Nat} (h : s.start = start)
    (hs : start + s.length ≤ source.length) : s.text source = (source.drop start).take s.length := by
  simp only [text, slice, stop, resolveIndex, h]
  have h1 : ¬ ((start : Int) < 0) := by omega
  have h2 : ¬ ((start : Int) + (s.length : Int) < 0) := by omega
  have h3 : min start source.length = start := by omega
  have h4 : min ((start : Int) + (s.length : Int)).toNat source.length - start = s.length := by omega
  simp only [h1, h2, if_false, Int.toNat_natCast, h3, h4]

end Span

end Abacus
