import Soql.Cursor.Request
import Soql.Text.Slice

/-!
# Answering by walking

The searches of a cursor as loops: the cursor is moved on token by token, the place where it stands
is looked at each time, and a text is cut out of the source between the offsets where it stopped.
An answer is `Checked`, so that it is there only if every slice on the way was in range.
`Cursor.walkSession` answers the requests of a session in this way, one cursor going through all of
them.
-/

namespace Soql.Cursor

theorem length_ahead_advance {c : Cursor} (h : c.atEnd = false) :
    c.advance.ahead.length < c.ahead.length := by
  have hpos : c.pos < c.tokens.length := by simpa [atEnd, ahead] using h
  simp only [ahead, advance, peek, peekNth, Nat.add_zero, List.getElem?_eq_getElem hpos,
    List.length_drop]
  omega

/-- The cursor where `stop` first holds, or at the end. -/
def walk (stop : Cursor → Bool) (c : Cursor) : Cursor :=
  if c.atEnd then c
  else if stop c then c
  else c.advance.walk stop
termination_by c.ahead.length
decreasing_by exact length_ahead_advance (by simp_all)

/-- One of the phrases stands at the cursor, outside parentheses. -/
def atTopPhrase (phrases : List Phrase) (c : Cursor) : Bool :=
  c.atTopLevel && phrases.any (c.atPhrase ·)

/-- The next token closes a parenthesis and brings the depth back to `depth`. -/
def atClosing (depth : Nat) (c : Cursor) : Bool :=
  c.peek.any (·.kind == .closeParen) && c.advance.nesting.depth == depth

/-- Walks over the group that starts at the cursor. -/
def walkGroup (c : Cursor) : Cursor :=
  if c.peek.any (·.kind == .openParen) then
    (c.advance.walk (atClosing c.nesting.depth)).advance
  else c

/-- Walks from the first token to a keyword at top level. -/
def walkToKeyword (c : Cursor) (keyword : Text) : Cursor :=
  c.rewind.walk (atTopPhrase [Phrase.ofText keyword])

/-- Walks through the clause that `start` opens and slices its text out of the source. -/
def walkClause (c : Cursor) (start : Text) (ends : List Text) : Checked (Option Text × Cursor) :=
  let found := c.walkToKeyword start
  if found.atEnd then some (none, found)
  else do
    let begun := found.skip (Phrase.ofText start).length
    let ended := begun.walk (atTopPhrase (ends.map Phrase.ofText))
    let slice ← c.source.slice? begun.offset ended.offset
    some (some slice.trim, ended)

/-- Walks to the first `FROM` and slices the word behind it out of the source. -/
def walkObjectName (c : Cursor) : Checked (Option Text × Cursor) :=
  let found := c.walkToKeyword Keyword.FROM.spelling
  if found.atEnd then some (none, found)
  else
    match found.locatedNth 1 with
    | some (t, span) =>
      if t.kind.isWord then
        (c.source.slice? span.start span.stop).map fun name => (some name, found)
      else some (none, found)
    | none => some (none, found)

/-- Walks over all tokens, looks at the nesting behind them and goes back to the start. -/
def walkBalance (c : Cursor) : Bool × Cursor :=
  let passed := c.rewind.walk fun _ => false
  (passed.nesting == Nesting.top, passed.rewind)

/-- The answer to a request, found by walking, with the cursor behind it. -/
def walkRequest (c : Cursor) : Request → Checked (Answer × Cursor)
  | .skipGroup => some (.done, c.walkGroup)
  | .findKeyword keyword =>
    let found := c.walkToKeyword keyword
    some (.offset (if found.atEnd then none else some found.offset), found)
  | .clause start ends => (c.walkClause start ends).map fun (body, ended) => (.text body, ended)
  | .objectName => c.walkObjectName.map fun (name, found) => (.text name, found)
  | .isBalanced => some (.flag c.walkBalance.1, c.walkBalance.2)
  | r => some (c.answer r, c.move r)

/-- The answers to requests in order, found by walking, with the cursor behind the last one. -/
def walkSession (c : Cursor) : List Request → Checked (List Answer × Cursor)
  | [] => some ([], c)
  | r :: rs => do
    let (answer, next) ← c.walkRequest r
    let (answers, last) ← next.walkSession rs
    some (answer :: answers, last)

end Soql.Cursor
