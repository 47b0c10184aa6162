import Soql.Literal.Bind
import Soql.Literal.Date
import Soql.Literal.Quoted
import Soql.Query.Model
import Soql.Schema.Describe
import Soql.Validation.Finding

/-!
# Values of conditions

The type of a field decides which literals it can be compared with. `checkValue?` is the finding,
if any, on one value; `Condition.values` are the values that a condition compares with.
-/

namespace Soql

namespace Literal

/-- A number: an optional sign, digits, and a fraction with a point. -/
def isNumeric (s : Text) : Bool :=
  let s := if s.head? == some '-' || s.head? == some '+' then s.drop 1 else s
  match Text.cutAt (· == '.') s with
  | some (whole, fraction) => Text.isDigits whole && Text.isDigits fraction
  | none => Text.isDigits s

/-- A record id: fifteen or eighteen ASCII letters and digits. -/
def isRecordId (s : Text) : Bool :=
  (s.length == 15 || s.length == 18) && s.all Char.isAlphanum

/-- A boolean, in any case. -/
def isBoolean (s : Text) : Bool :=
  Text.eqIgnoreCase s "true".toList || Text.eqIgnoreCase s "false".toList

/-- Null, in any case. -/
def isNull (s : Text) : Bool :=
  Text.eqIgnoreCase s "null".toList

end Literal

/-- The values that a condition compares a field with: the items of a list, none of a subquery,
and otherwise the whole right-hand side. -/
def Condition.values (c : Condition) : List Text :=
  if c.operator.takesList then
    if (subqueryBody? c.rawValue).isSome then []
    else ((stripOuterParens? c.rawValue).map splitItems).getD []
  else [c.rawValue.trim]

namespace Validation

/-- An operator that compares text with text. -/
def needsQuotes (op : Operator) : Bool :=
  op.isLike || op == .equal || op == .notEqual

/-- What is wrong with a value for a date field. -/
def checkDate? (name : Text) (type : Schema.FieldType) (value : Text) : Option Finding :=
  if Literal.isQuoted value then some (.dateValueQuoted name value)
  else if Date.isLiteral value || Date.isIsoDate value ||
      (type == .dateTime && Date.isIsoDateTime value) then none
  else some (.dateValue name value)

/-- What is wrong with a value for a field. -/
def checkValue? (field : Schema.Field) (op : Operator) (value : Text) : Option Finding :=
  let name := field.name
  let type := field.fieldType
  if type == .boolean then
    if Literal.isBoolean value then none else some (.booleanValue name value)
  else if type.isNumeric then
    if Literal.isNumeric value then none else some (.numericValue name value)
  else if type.isDate then checkDate? name type value
  else if type.isId then
    if Literal.isRecordId (Literal.trimQuotes value) then none else some (.idValue name value)
  else if type.isTextual then
    if needsQuotes op && !Literal.isQuoted value then some (.stringValueUnquoted name op value)
    else none
  else none

end Validation

end Soql
