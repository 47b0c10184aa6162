import Soql.Text.Slice
import Soql.Token.Parts

/-!
# Reading with byte offsets

The tokens of a source can also be kept as their kinds and spans only, with each text sliced out of
the source when it is asked for. The functions here read a query in this way: they look for the
same phrases, separators and parentheses, but what they cut out are slices between byte offsets.
A result is `Checked`, so that it is there only if every slice on the way was in range.
-/

namespace Soql

/-- A token and where its text lies. Only its kind is read off; its text is sliced. -/
abbrev Mark :=
  Token × Span

namespace Scanner

section Source

variable (source : Text)

/-- The byte offset of the first mark, or of the end of the source. -/
def offset : List Mark → Nat
  | [] => source.byteSize
  | m :: _ => m.2.start

/-- The text of a mark. -/
def text? (m : Mark) : Checked Text :=
  source.slice? m.2.start m.2.stop

/-- The marks start with the words of a phrase. -/
def leads? : Phrase → List Mark → Checked Bool
  | [], _ => some true
  | _ :: _, [] => some false
  | word :: phrase, m :: ms =>
    if m.1.kind.isWord then do
      let text ← text? source m
      if Text.eqIgnoreCase text word then leads? phrase ms else some false
    else some false

/-- A phrase with at least one word stands at the front of the marks. -/
def isAt? (phrase : Phrase) (ms : List Mark) : Checked Bool :=
  if phrase.isEmpty then some false else leads? source phrase ms

/-- One of some phrases stands at the front of the marks. -/
def isAtAny? (phrases : List Phrase) (ms : List Mark) : Checked Bool :=
  phrases.anyM fun phrase => isAt? source phrase ms

/-- The marks from the first place at top level where `found` holds. `d` is the depth at the
start. -/
def seek? (found : List Mark → Checked Bool) (d : Nat) : List Mark → Checked (List Mark)
  | [] => some []
  | m :: ms => do
    let here ← if d == 0 then found (m :: ms) else some false
    if here then some (m :: ms) else seek? found (m.1.depthAfter d) ms

/-- The marks from the first place at top level where a phrase stands. -/
def find? (phrase : Phrase) (ms : List Mark) : Checked (List Mark) :=
  seek? (isAt? source phrase) 0 ms

/-- The text of the clause that `start` opens and the first of `ends` closes, if there is one. -/
def clause? (start : Phrase) (ends : List Phrase) (ms : List Mark) : Checked (Option Text) := do
  let found ← find? source start ms
  if found.isEmpty then some none
  else do
    let body := found.drop start.length
    let behind ← seek? (isAtAny? source ends) 0 body
    let slice ← source.slice? (offset source body) (offset source behind)
    some (some slice.trim)

/-- The texts between the marks at top level that satisfy `sep`; the first one starts at `start`,
and `d` is the depth there. -/
def splitFrom? (sep : Token → Bool) (start d : Nat) : List Mark → Checked (List Text)
  | [] => do
    let part ← source.slice? start source.byteSize
    some [part.trim]
  | m :: ms =>
    if d == 0 && sep m.1 then do
      let part ← source.slice? start m.2.start
      let parts ← splitFrom? sep m.2.stop (m.1.depthAfter d) ms
      some (part.trim :: parts)
    else splitFrom? sep start (m.1.depthAfter d) ms

/-- The word behind the first `FROM` at top level. -/
def objectName? (ms : List Mark) : Checked (Option Text) := do
  let found ← find? source [Keyword.FROM.spelling] ms
  match found with
  | _ :: m :: _ => if m.1.kind.isWord then (text? source m).map some else some none
  | _ => some none

end Source

/-- The mark of the parenthesis that closes a group, and the marks behind it. `d` counts the
further parentheses that are open. -/
def closing (d : Nat) : List Mark → Option (Mark × List Mark)
  | [] => none
  | m :: ms =>
    if m.1.kind == .closeParen && d == 0 then some (m, ms) else closing (m.1.depthAfter d) ms

/-- The text of the clause that `start` opens and the first of `ends` closes. -/
def extractClause? (start : Text) (ends : List Text) (query : Text) : Checked (Option Text) :=
  clause? query (Phrase.ofText start) (ends.map Phrase.ofText) (Token.located query)

/-- The texts between the tokens at top level that satisfy `sep`, without empty ones. -/
def splitParts? (sep : Token → Bool) (s : Text) : Checked (List Text) :=
  (splitFrom? s sep 0 0 (Token.located s)).map fun parts => parts.filter (!·.isEmpty)

/-- The items of a list with commas. -/
def splitItems? (s : Text) : Checked (List Text) :=
  splitParts? Token.isComma s

/-- The conditions between `AND` and `OR`. -/
def splitConditions? (s : Text) : Checked (List Text) :=
  splitParts? Token.isConnective s

/-- The text between parentheses that open at the start of `s` and close each other at its end:
what lies between the first byte and the closing parenthesis. -/
def stripOuterParens? (s : Text) : Checked (Option Text) :=
  match Token.located s.trim with
  | m :: ms =>
    if m.1.kind == .openParen then
      match closing 0 ms with
      | some (close, []) => (s.trim.slice? 1 close.2.start).map fun inside => some inside.trim
      | _ => some none
    else some none
  | [] => some none

/-- The text of a `(SELECT ...)` without its parentheses. -/
def subqueryBody? (s : Text) : Checked (Option Text) := do
  let inside ← stripOuterParens? s
  match inside with
  | some body => do
    let isQuery ← isAt? body [Keyword.SELECT.spelling] (Token.located body)
    some (if isQuery then some body else none)
  | none => some none

end Scanner

end Soql
