import Soql.Token.Phrase

/-!
# A cursor over the tokens of a query

A cursor stands before one of the tokens of its source, or behind the last one, and knows the
nesting of the parentheses it has passed. It moves forward token by token and back only to the
start. The searches (`findKeyword`, `clause`, `objectName`, `isBalanced`) start over from the
first token, so their answers do not depend on where the cursor stood; they leave it where they
stopped.
-/

namespace Soql

/-- A place between the tokens of a source. -/
structure Cursor where
  source : Text
  tokens : List Token
  pos : Nat
  nesting : Nesting

namespace Cursor

/-- A cursor before the first token of a text. -/
def ofText (source : Text) : Cursor :=
  { source, tokens := tokenize source, pos := 0, nesting := Nesting.top }

/-- The tokens that the cursor has not passed. -/
def ahead (c : Cursor) : List Token :=
  c.tokens.drop c.pos

/-- The tokens that the cursor has passed. -/
def passed (c : Cursor) : List Token :=
  c.tokens.take c.pos

/-- The `n`-th token from the cursor on, counted from zero. -/
def peekNth (c : Cursor) (n : Nat) : Option Token :=
  c.tokens[c.pos + n]?

/-- The token that the cursor stands before. -/
def peek (c : Cursor) : Option Token :=
  c.peekNth 0

/-- No token is left. -/
def atEnd (c : Cursor) : Bool :=
  c.ahead.isEmpty

/-- No parenthesis is open at the cursor. -/
def atTopLevel (c : Cursor) : Bool :=
  c.nesting.depth == 0

/-- The span of the `n`-th token of the source. -/
def span? (c : Cursor) (n : Nat) : Option Span :=
  (Token.spans 0 c.tokens)[n]?

/-- The byte offset of the token at the cursor, or the size of the source at the end. -/
def offset (c : Cursor) : Nat :=
  match c.span? c.pos with
  | some span => span.start
  | none => c.source.byteSize

/-- The cursor before the first token. -/
def rewind (c : Cursor) : Cursor :=
  { c with pos := 0, nesting := Nesting.top }

/-- The cursor behind the token it stood before; at the end it stays. -/
def advance (c : Cursor) : Cursor :=
  match c.peek with
  | some t => { c with pos := c.pos + 1, nesting := c.nesting.step t }
  | none => c

/-- The cursor `n` tokens further on, or at the end. -/
def skip (c : Cursor) : Nat → Cursor
  | 0 => c
  | n + 1 => if c.atEnd then c else c.advance.skip n

/-- The cursor behind the group that starts at it; where none starts it stays. -/
def skipGroup (c : Cursor) : Cursor :=
  c.skip (Token.groupLength c.ahead)

/-- A phrase stands at the cursor. -/
def atPhrase (c : Cursor) (phrase : Phrase) : Bool :=
  phrase.isAt c.ahead

/-- The cursor at the first place at top level where one of the phrases stands, or at the end. The
search starts at the cursor. -/
def seek (c : Cursor) (phrases : List Phrase) : Cursor :=
  c.skip (Token.cutTop (fun ts => phrases.any (·.isAt ts)) c.nesting.depth c.ahead).1.length

/-- The cursor at the first place at top level where a keyword stands, or at the end. -/
def toKeyword (c : Cursor) (keyword : Text) : Cursor :=
  c.rewind.seek [Phrase.ofText keyword]

/-- The byte offset of the first place at top level where a keyword stands. -/
def findKeyword (c : Cursor) (keyword : Text) : Option Nat :=
  let found := c.toKeyword keyword
  if found.atEnd then none else some found.offset

/-- The cursor where the clause that `start` opens has ended. -/
def toClauseEnd (c : Cursor) (start : Text) (ends : List Text) : Cursor :=
  let found := c.toKeyword start
  (found.skip (Phrase.ofText start).length).seek (ends.map Phrase.ofText)

/-- The text of the clause that `start` opens and the first of `ends` closes. -/
def clause (c : Cursor) (start : Text) (ends : List Text) : Option Text :=
  (Phrase.ofText start).body? (ends.map Phrase.ofText) c.tokens

/-- The word behind the first `FROM` at top level. -/
def objectName (c : Cursor) : Option Text :=
  Token.objectName? c.tokens

/-- Parentheses close exactly as often as they open, none too early. -/
def isBalanced (c : Cursor) : Bool :=
  Token.isBalanced c.tokens

/-- Some quoted text of the source lacks its closing quote. -/
def hasUnclosed (c : Cursor) : Bool :=
  Token.hasUnclosed c.tokens

end Cursor

end Soql
