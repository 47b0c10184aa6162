import Soql.Cursor.Basic
import Soql.Operator

/-!
# Requests to a cursor

What can be asked of a cursor, as data, so that a whole session is a list of requests. A request
has an answer, read at the place where the cursor stands, and moves the cursor; `Cursor.run`
answers a session in order.
-/

namespace Soql.Cursor

/-- Something asked of a cursor. -/
inductive Request
  | advance
  | peek
  | peekNth (n : Nat)
  | skip (n : Nat)
  | skipGroup
  | rewind
  | atPhrase (phrase : Phrase)
  | matchOperator
  | findKeyword (keyword : Text)
  | clause (start : Text) (ends : List Text)
  | objectName
  | isBalanced
  | hasUnclosed

/-- What a cursor answers. -/
inductive Answer
  | done
  | token (found : Option (Token × Span))
  | flag (b : Bool)
  | operator (found : Option (Operator × Nat))
  | offset (found : Option Nat)
  | text (found : Option Text)

/-- The `n`-th token from the cursor on, with its span. -/
def locatedNth (c : Cursor) (n : Nat) : Option (Token × Span) := do
  return (← c.peekNth n, ← c.span? (c.pos + n))

/-- The answer to a request. -/
def answer (c : Cursor) : Request → Answer
  | .advance | .peek => .token (c.locatedNth 0)
  | .peekNth n => .token (c.locatedNth n)
  | .skip _ | .skipGroup | .rewind => .done
  | .atPhrase phrase => .flag (c.atPhrase phrase)
  | .matchOperator => .operator (Operator.matchAt? c.ahead)
  | .findKeyword keyword => .offset (c.findKeyword keyword)
  | .clause start ends => .text (c.clause start ends)
  | .objectName => .text c.objectName
  | .isBalanced => .flag c.isBalanced
  | .hasUnclosed => .flag c.hasUnclosed

/-- The cursor after a request: a search leaves it at the place where it ended. -/
def move (c : Cursor) : Request → Cursor
  | .advance => c.advance
  | .skip n => c.skip n
  | .skipGroup => c.skipGroup
  | .rewind | .isBalanced => c.rewind
  | .findKeyword keyword => c.toKeyword keyword
  | .clause start ends => c.toClauseEnd start ends
  | .objectName => c.toKeyword Keyword.FROM.spelling
  | .peek | .peekNth _ | .atPhrase _ | .matchOperator | .hasUnclosed => c

/-- The answers to requests in order, each with the cursor behind it. -/
def run (c : Cursor) : List Request → List (Answer × Cursor)
  | [] => []
  | r :: rs => (c.answer r, c.move r) :: (c.move r).run rs

end Soql.Cursor
