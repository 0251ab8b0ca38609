import Abacus.Tokenizer

/-!
# Calls of a tokenizer

A tokenizer is asked for one token at a time, for all that are left, or for the fault that finished it. The calls come in
any order, and each goes on with the tokenizer that the one before it left.
-/

namespace Abacus.Tokenizer

inductive Call where
  | next
  /-- The next item of an iteration over the tokens. -/
  | iterate
  | drain
  | popFault

inductive Answer where
  | token (next : Token)
  /-- There is no next token. -/
  | ended
  /-- The iteration has no next item. -/
  | stopped
  | tokens (left : List Token)
  | fault (popped? : Option LexicalFault)

namespace Answer

/-- The tokens that an answer hands out. -/
def handed : Answer → List Token
  | token next => [next]
  | tokens left => left
  | ended | stopped | fault _ => []

/-- Whether an answer says that no token is left. -/
def reportsEnd : Answer → Bool
  | ended | stopped | tokens _ => true
  | token _ | fault _ => false

/-- The fault that an answer hands out. -/
def fault? : Answer → Option LexicalFault
  | fault popped? => popped?
  | token _ | ended | stopped | tokens _ => none

end Answer

/-- An answer and the tokenizer after it. -/
structure Reply where
  answer : Answer
  after : Tokenizer

def reply (t : Tokenizer) : Call → Reply
  | .next => ⟨t.next.1.elim .ended .token, t.next.2⟩
  | .iterate => ⟨t.next.1.elim .stopped .token, t.next.2⟩
  | .drain => ⟨.tokens t.drain.1, t.drain.2⟩
  | .popFault => ⟨.fault t.popFault.1, t.popFault.2⟩

def replies (t : Tokenizer) : List Call → List Reply
  | [] => []
  | call :: calls => t.reply call :: (t.reply call).after.replies calls

end Abacus.Tokenizer
