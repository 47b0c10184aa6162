import Soql.Builder.Import
import Soql.Scanner.Literal
import Soql.Scanner.Query

/-!
# Composing and importing by slices

The steps between builder states and query texts that slice: literals are opened, lists and
conditions are cut apart, and the text behind the object of a subquery is cut off.
-/

namespace Soql.Scanner

open Builder

section Compose

/-- The right-hand side of a comparison with one value. -/
def writeValue? (value : Text) : Checked Text := do
  let s ← unquote? value
  if Text.eqIgnoreCase s "null".toList then some "null".toList
  else if Date.isLiteral s || Literal.isBindVariable s then some s
  else some (Literal.quoteText s)

/-- The right-hand side of a comparison with a list. -/
def writeList? (value : Text) : Checked Text :=
  if value.trim.head? == some '(' then some value.trim
  else do
    let items ← splitItems? value.trim
    let written ← items.mapM writeValue?
    some ('(' :: Text.join ", ".toList written ++ [')'])

/-- A condition as it is written in a query. -/
def writeFilter? (f : Filter) : Checked Text := do
  let value ← if f.operator.takesList then writeList? f.value else writeValue? f.value
  some (f.field.trim ++ ' ' :: f.operator.spelling ++ ' ' :: value)

/-- The body of the `WHERE` clause: the conditions that have a field. -/
def writeFilters? (filters : List Filter) : Checked Text := do
  let written ← (filters.filter (!·.field.trim.isEmpty)).mapM writeFilter?
  some (Text.join " AND ".toList written)

/-- The query of a state; empty while no object is chosen. -/
def compose? (s : State) : Checked Text :=
  if s.object.trim.isEmpty then some []
  else do
    let conditions ← writeFilters? s.filters
    let arguments := Text.join [' '] (
      (if conditions.isEmpty then [] else ["WHERE ".toList ++ conditions]) ++
        State.orderClause s.orderBy ++ State.countClause "LIMIT".toList s.limit ++
          State.countClause "OFFSET".toList s.offset)
    some ("SELECT ".toList ++ s.selection ++ " FROM ".toList ++ s.object.trim ++
      if arguments.isEmpty then [] else ' ' :: arguments)

end Compose

section Import

/-- The value that a literal denotes, or the literal again where the plain value would not be read
back. -/
def literalValue? (inList : Bool) (raw : Text) : Checked Text := do
  let value ← unquote? raw
  let inside ← trimQuotes? value
  let readsBack := inside.byteSize == value.byteSize && value.trim == value
  let splitsBack := !value.isEmpty && value.head? != some '(' &&
    !value.any fun c => c == ',' || c == '\'' || c == '"'
  some (if readsBack && (!inList || splitsBack) then value else Literal.quoteText value)

/-- The value of a right-hand side. -/
def filterValue? (operator : Operator) (raw : Text) : Checked Text :=
  if operator.takesList then do
    let body ← subqueryBody? raw
    if body.isSome then some raw.trim
    else do
      let inside ← stripOuterParens? raw
      match inside with
      | some list => do
        let items ← splitItems? list
        let values ← items.mapM (literalValue? true)
        some (Text.join ", ".toList values)
      | none => literalValue? false raw
  else literalValue? false raw

/-- The text behind `FROM` and the object in the body of a subquery. -/
def clausesAfterFrom? (body : Text) : Checked Text := do
  let found ← find? body [Keyword.FROM.spelling] (Token.located body)
  match found with
  | _ :: object :: _ => do
    let clauses ← body.slice? object.2.stop body.byteSize
    some clauses.trim
  | _ => some []

/-- The subquery that an item is, without an identity. -/
def subqueryOf? (item : Text) : Checked (Option Subquery) := do
  let body ← subqueryBody? item
  match body with
  | none => some none
  | some body => do
    let inner ← query? body
    match inner.objectName with
    | none => some none
    | some relationship => do
      let clauses ← clausesAfterFrom? body
      some (some {
        id := []
        relationship
        childObject := []
        fields := Text.join ", ".toList inner.selectItems
        clauses })

/-- An item of the select list with its shape, and the subquery that it is. -/
structure Item where
  text : Text
  shape : SelectItem
  subquery : Option Subquery

/-- The item has a place in a state. -/
def Item.isSupported (item : Item) : Bool :=
  match item.shape with
  | .field | .lookup => true
  | .subquery => item.subquery.isSome
  | _ => false

/-- An item with its shape. -/
def item? (text : Text) : Checked Item := do
  let shape ← selectItem? text
  let subquery ← if shape == .subquery then subqueryOf? text else some none
  some { text, shape, subquery }

/-- The filter with a number that a condition becomes. -/
def filter? (c : Condition × Nat) : Checked Filter := do
  let value ← filterValue? c.1.operator c.1.rawValue
  some {
    id := 'f' :: Text.ofNat (c.2 + 1)
    field := c.1.field
    operator := c.1.operator
    value }

/-- The order that an item to sort by states. -/
def orderBy? (item : Text) : Checked OrderBy := do
  let field ← stripOrderDirection? item
  some {
    field
    direction := if (tokens (Token.located item)).any (·.kind == .keyword .DESC) then .descending
      else .ascending }

/-- The object of a text that can be imported. -/
def importable? (text : Text) : Checked (Except ImportError Text) :=
  let ms := Token.located text
  if Token.hasUnclosed (tokens ms) then some (.error .unterminatedString)
  else if !Token.isBalanced (tokens ms) then some (.error .unbalancedParentheses)
  else do
    let selection ← clauseOf? text .selection
    if selection.isNone then some (.error .missingSelect)
    else do
      let object ← objectName? text ms
      match object with
      | some object => some (.ok object)
      | none => some (.error .missingFrom)

/-- The state that a query on `object` becomes, and what it leaves out. -/
def readState? (previous : State) (object text : Text) : Checked (State × Report) := do
  let q ← query? text
  let items ← q.selectItems.mapM item?
  let condition ← clauseOf? text .condition
  let fragments ← ofClause? splitConditions? condition
  let conditions ← fragments.mapM condition?
  let filters ← (conditions.filterMap id).zipIdx.mapM filter?
  let ordering ← clauseOf? text .ordering
  let orderItems ← ofClause? splitItems? ordering
  let order ← (orderItems.take 1).mapM orderBy?
  let state : State := {
    enabled := previous.enabled
    object
    fields := (items.filter (·.shape == .field)).map Item.text
    lookups := (items.filter (·.shape == .lookup)).map Item.text
    subqueries := (items.filterMap Item.subquery).zipIdx.map fun s =>
      s.1.identify previous.subqueries (s.2 + 1)
    filters
    orderBy := order.head?
    limit := (pageCount? q.limit).getD 0
    offset := (pageCount? q.offset).getD 0
    after := previous.after }
  let report : Report := {
    unsupportedItems := (items.filter (!·.isSupported)).map Item.text
    unsupportedFilters := ((fragments.zip conditions).filter (·.2.isNone)).map Prod.fst
    droppedOrderBy := orderItems.drop 1
    droppedPaging := droppedCount "LIMIT".toList q.limit q.rawLimit ++
      droppedCount "OFFSET".toList q.offset q.rawOffset
    usesOr := condition.any fun body =>
      (tokens (Token.located body)).any (·.kind == .keyword .OR) }
  some (state, report)

/-- The state that a query text becomes, and what it leaves out. -/
def import? (text : Text) (previous : State) : Checked (Except ImportError (State × Report)) := do
  let object ← importable? text
  match object with
  | .error e => some (.error e)
  | .ok object => (readState? previous object text).map .ok

end Import

end Soql.Scanner
