import Soql.Query.Path
import Soql.Token.Parts

/-!
# Items of the select list

An item is told by its shape: a field, a path through a relationship, a subquery, a call of an
aggregate function, the `FIELDS` macro, or some other expression. Items of the select and group
lists may carry decorations (an alias, an order direction, a `ROLLUP` around them); the functions
here take those off.
-/

namespace Soql

/-- The shape of an item. -/
inductive SelectItem
  | field | lookup | subquery | aggregate | fieldsMacro | expression
  deriving DecidableEq

namespace SelectItem

/-- The functions that combine rows. -/
def aggregateFunctions : List Text :=
  ["COUNT", "COUNT_DISTINCT", "SUM", "AVG", "MIN", "MAX"].map String.toList

/-- The shape of a call of `function`. -/
def ofCall (function : Text) : SelectItem :=
  if Text.eqIgnoreCase function "FIELDS".toList then .fieldsMacro
  else if aggregateFunctions.any (Text.eqIgnoreCase function) then .aggregate
  else .expression

/-- The shape of tokens that are not a call. -/
def ofPath (ts : List Token) : SelectItem :=
  match Path.length? ts with
  | some n =>
    if n == ts.length then (if n == 1 then .field else .lookup) else .expression
  | none => .expression

/-- The shape of an item. -/
def ofText (item : Text) : SelectItem :=
  if (subqueryBody? item).isSome then .subquery
  else
    match tokenize item with
    | t :: paren :: ts =>
      if t.kind.isWord && paren.kind == .openParen then ofCall t.text
      else ofPath (t :: paren :: ts)
    | ts => ofPath ts

/-- Plain columns, which rows can be grouped by. -/
def isColumn : SelectItem → Bool
  | .field | .lookup | .expression => true
  | _ => false

end SelectItem

/-- A path without the alias behind it; other items as they are. -/
def stripAlias (item : Text) : Text :=
  let ts := tokenize item
  match Path.length? ts with
  | some n =>
    match ts.drop n with
    | [t] => if t.kind == .identifier then (Token.render (ts.take n)).trim else item.trim
    | _ => item.trim
  | none => item.trim

/-- Words that start the direction of an item to sort by. -/
def Token.isDirection (t : Token) : Bool :=
  t.kind == .keyword .ASC || t.kind == .keyword .DESC || t.kind == .keyword .NULLS

/-- An item to sort by without its direction and the place of nulls. -/
def stripOrderDirection (item : Text) : Text :=
  let (before, _) := Token.cutTop (fun ts => ts.head?.any Token.isDirection) 0 (tokenize item)
  (Token.render before).trim

/-- The tokens start with a call of `ROLLUP` or `CUBE`. -/
def Token.startsGroupingCall : List Token → Bool
  | t :: paren :: _ =>
    t.kind.isWord && paren.kind == .openParen &&
      (Text.eqIgnoreCase t.text "ROLLUP".toList || Text.eqIgnoreCase t.text "CUBE".toList)
  | _ => false

/-- The items that an item to group by stands for: the arguments of a `ROLLUP` or `CUBE`, or the
item itself. -/
def expandGrouping (item : Text) : List Text :=
  let ts := tokenize item
  if Token.startsGroupingCall ts then
    match stripOuterParens? (Token.render (ts.drop 1)) with
    | some arguments => splitItems arguments
    | none => [item]
  else [item]

end Soql
