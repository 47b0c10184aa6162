import Soql.Text.Blank
import Soql.Token.Lexer
import Soql.Token.Nesting

/-!
# Keyword phrases

A phrase such as `GROUP BY` is found as whole words in a row, in any case and with any blanks
between them, and only outside parentheses. `Phrase.body?` is the text of the clause that a phrase
opens: up to the first of its end phrases, or to the end of the query.
-/

namespace Soql

/-- Words that are looked for one behind the other. -/
abbrev Phrase := List Text

namespace Phrase

/-- The phrase that a text spells. -/
def ofText (s : Text) : Phrase :=
  Text.words s

/-- The tokens start with the words of a phrase. -/
def leads : Phrase → List Token → Bool
  | [], _ => true
  | _ :: _, [] => false
  | word :: phrase, t :: ts => t.kind.isWord && Text.eqIgnoreCase t.text word && leads phrase ts

/-- A phrase with at least one word stands at the front of the tokens. -/
def isAt (phrase : Phrase) (ts : List Token) : Bool :=
  !phrase.isEmpty && phrase.leads ts

/-- The tokens from the first place at top level where a phrase stands. -/
def find? (phrase : Phrase) (ts : List Token) : Option (List Token) :=
  match Token.cutTop phrase.isAt 0 ts with
  | (_, []) => none
  | (_, found) => some found

/-- The tokens between a phrase at top level and the first of `ends` at top level behind it. -/
def between? (phrase : Phrase) (ends : List Phrase) (ts : List Token) : Option (List Token) :=
  (phrase.find? ts).map fun found =>
    (Token.cutTop (fun rest => ends.any (·.isAt rest)) 0 (found.drop phrase.length)).1

/-- The text between a phrase and the first of `ends` behind it, without blanks at its ends. -/
def body? (phrase : Phrase) (ends : List Phrase) (ts : List Token) : Option Text :=
  (phrase.between? ends ts).map fun body => (Token.render body).trim

end Phrase

/-- The text of the clause that `start` opens and the first of `ends` closes. -/
def extractClause (start : Text) (ends : List Text) (query : Text) : Option Text :=
  (Phrase.ofText start).body? (ends.map Phrase.ofText) (tokenize query)

/-- The word behind the first `FROM` at top level. -/
def Token.objectName? (ts : List Token) : Option Text :=
  match Phrase.find? [Keyword.FROM.spelling] ts with
  | some (_ :: t :: _) => if t.kind.isWord then some t.text else none
  | _ => none

end Soql
