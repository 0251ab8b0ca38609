import Abacus.Expr.Echo
import Abacus.Text.JsonString

/-!
# Expressions as records

A record has the kind of a node, its value and the records of its children. It carries what equality compares, and it is
what the JSON form writes.
-/

namespace Abacus

inductive Record.Value where
  | absent
  | number (value : Binary64)
  | text (s : String)

inductive Record where
  | node (kind : String) (value : Record.Value) (children : List Record)

namespace Record

def Value.same : Value → Value → Bool
  | absent, absent => true
  | number x, number y => x.same y
  | text s, text t => s == t
  | _, _ => false

mutual
/-- Records are equal if their kinds, values and children are. -/
def same : Record → Record → Bool
  | node k v cs, node l w ds => k == l && v.same w && sameAll cs ds

def sameAll : List Record → List Record → Bool
  | [], [] => true
  | c :: cs, d :: ds => same c d && sameAll cs ds
  | _, _ => false
end

/-! ## JSON -/

/-- An infinity is spelled out, and so is NaN. -/
def jsonNumber : Binary64 → String
  | .nan => "NaN"
  | .infinite negative => Binary64.signText negative ++ "Infinity"
  | x => x.echo

def Value.json : Value → String
  | absent => "null"
  | number value => jsonNumber value
  | text s => Text.jsonString s

/-- A line break and two spaces for each level. -/
def newline (level : Nat) : String := "\n" ++ String.ofList (List.replicate (2 * level) ' ')

/-- Items on lines of their own between two marks, which stand at a level of indentation. -/
def enclosed (level : Nat) (first last : String) (items : List String) : String :=
  if items.isEmpty then first ++ last
  else first ++ newline (level + 1) ++ ("," ++ newline (level + 1)).intercalate items ++ newline level ++ last

/-- A key of a JSON object with its value. -/
def entry (key value : String) : String := Text.jsonString key ++ ": " ++ value

mutual
/-- The JSON text of a record that stands at a level of indentation. -/
def jsonAt (level : Nat) : Record → String
  | node kind value children =>
    enclosed level "\x7b" "\x7d"
      [entry "kind" (Text.jsonString kind), entry "value" value.json,
       entry "children" (enclosed (level + 1) "[" "]" (jsonAll (level + 2) children))]

def jsonAll (level : Nat) : List Record → List String
  | [] => []
  | c :: cs => jsonAt level c :: jsonAll level cs
end

def json (r : Record) : String := r.jsonAt 0

end Record

namespace Expr

def Value.field : Value → Record.Value
  | number value => .number value
  | text s => .text s
  | operator op => .text op.symbol

/-- The value of a node as it is recorded. -/
def field (e : Expr) : Record.Value := (e.value?.map Value.field).getD .absent

def record : Expr → Record
  | e@(binop _ l r) | e@(letIn _ l r) => .node e.kindName e.field [l.record, r.record]
  | e@(call _ d) | e@(paren d) | e@(negate d) => .node e.kindName e.field [d.record]
  | e => .node e.kindName e.field []

end Expr

end Abacus
