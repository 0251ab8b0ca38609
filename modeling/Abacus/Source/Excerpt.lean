import Abacus.Source.Span

/-!
# Excerpts

An excerpt shows the line on which a span starts and marks the span below it. A span that starts behind the last
character is shown under the last line. The margin before the mark keeps the tabs of the line, so that the two stay
aligned.
-/

namespace Abacus

namespace Source

/-- The number of characters in front of the line on which the character at `i` stands. -/
def lineStart (source : List Char) (i : Nat) : Nat :=
  i - ((source.take i).reverse.takeWhile (· ≠ '\n')).length

/-- The line on which the character at `i` stands, without its line break. -/
def lineAt (source : List Char) (i : Nat) : List Char :=
  ((source.take i).reverse.takeWhile (· ≠ '\n')).reverse ++ (source.drop i).takeWhile (· ≠ '\n')

end Source

structure Excerpt where
  line : List Char
  margin : List Char
  mark : List Char

namespace Excerpt

/-- One caret for at most one character; a caret at either end and tildes between for more. -/
def markOf (length : Nat) : List Char :=
  if length ≤ 1 then ['^'] else '^' :: List.replicate (length - 2) '~' ++ ['^']

/-- What stands below a text to keep its width: tabs below tabs, spaces below all else. -/
def blankOut (cs : List Char) : List Char := cs.map fun c => if c = '\t' then '\t' else ' '

/-- The character that decides which line is shown. -/
def anchor (source : List Char) (span : Span) : Nat := (min span.start (source.length - 1)).toNat

def ofSpan (source : List Char) (span : Span) : Excerpt where
  line := Source.lineAt source (anchor source span)
  margin := blankOut (slice source (Source.lineStart source (anchor source span)) span.start)
  mark := markOf span.length

def text (e : Excerpt) : String :=
  String.ofList e.line ++ "\n" ++ String.ofList (e.margin ++ e.mark)

end Excerpt

end Abacus
