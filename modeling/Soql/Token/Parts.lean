import Soql.Token.Phrase

/-!
# Parts of a text

Lists and conditions are cut apart at tokens outside parentheses; the parts are texts without
blanks at their ends, and empty parts are dropped. A text in parentheses is opened by
`stripOuterParens?`, provided that its first parenthesis closes at its very end.
-/

namespace Soql

namespace Token

/-- Separates the items of a list. -/
def isComma (t : Token) : Bool :=
  t.kind == .comma

/-- Separates conditions. -/
def isConnective (t : Token) : Bool :=
  t.kind == .keyword .AND || t.kind == .keyword .OR

end Token

/-- The texts between the tokens at top level that satisfy `sep`. -/
def splitParts (sep : Token → Bool) (s : Text) : List Text :=
  let (part, parts) := Token.splitTop sep 0 (tokenize s)
  ((part :: parts).map fun ts => (Token.render ts).trim).filter (!·.isEmpty)

/-- The items of a list with commas. -/
def splitItems (s : Text) : List Text :=
  splitParts Token.isComma s

/-- The conditions between `AND` and `OR`. -/
def splitConditions (s : Text) : List Text :=
  splitParts Token.isConnective s

/-- The text between parentheses that open at the start of `s` and close each other at its end. -/
def stripOuterParens? (s : Text) : Option Text :=
  match tokenize s.trim with
  | t :: ts =>
    if t.kind == .openParen then
      match Token.closeGroup? 0 ts with
      | some (inside, []) => some (Token.render inside).trim
      | _ => none
    else none
  | [] => none

/-- The text of a `(SELECT ...)` without its parentheses. -/
def subqueryBody? (s : Text) : Option Text :=
  (stripOuterParens? s).filter fun body =>
    Phrase.isAt [Keyword.SELECT.spelling] (tokenize body)

end Soql
