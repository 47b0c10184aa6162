import Soql.Decimal.Canonical
import Soql.Literal.Bind
import Soql.Literal.Date
import Soql.Literal.Quoted
import Soql.Token.Parts

/-!
# Values as they are written in a condition

A value of a condition is kept as plain text; writing it decides what it looks like in a query.
Booleans, canonical numbers, null, relative dates and bind variables are written bare, everything
else as a quoted text. A value that already is a literal is read first, so that it is not quoted
twice.
-/

namespace Soql.Literal

/-- A text as a literal: a boolean or a canonical number bare, any other text in quotes. -/
def quoteText (s : Text) : Text :=
  if Text.eqIgnoreCase s "true".toList || Text.eqIgnoreCase s "false".toList then Text.foldCase s
  else if isCanonicalNumber s then s
  else Json.Quoted.encode s

/-- A text as a literal, or null for none. -/
def quote : Option Text → Text
  | some s => quoteText s
  | none => "null".toList

/-- The right-hand side of a comparison with one value. -/
def writeValue (value : Text) : Text :=
  let s := unquote value
  if Text.eqIgnoreCase s "null".toList then "null".toList
  else if Date.isLiteral s || isBindVariable s then s
  else quoteText s

/-- The right-hand side of a comparison with a list: the items of the value in parentheses, or the
value itself when it starts with a parenthesis. -/
def writeList (value : Text) : Text :=
  let s := value.trim
  if s.head? == some '(' then s
  else '(' :: Text.join ", ".toList ((splitItems s).map writeValue) ++ [')']

end Soql.Literal
