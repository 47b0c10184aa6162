import Soql.Builder.Compose
import Soql.Query.Model

/-!
# Builder states from queries

`State.import?` turns a query text into a state. Items of the select list are sorted by their
shape, conditions and order are taken over, and what a state has no place for is listed in a
report. A text that is not a query yet (no object, open quotes or parentheses) is refused, so a
state is replaced only by one that parsed.

What a query cannot say comes from the previous state: whether it is enabled, the page cursor, and
for each subquery the identity and child object of the subquery on the same relationship.
-/

namespace Soql.Builder

/-- Why a text cannot be imported. -/
inductive ImportError
  | missingSelect
  | missingFrom
  | unbalancedParentheses
  | unterminatedString
  deriving DecidableEq

/-- What is said of a text that cannot be imported. -/
def ImportError.message : ImportError → Text
  | .missingSelect => "Query has no SELECT clause".toList
  | .missingFrom => "Query has no top-level FROM with an object name".toList
  | .unbalancedParentheses => "Parentheses are not balanced".toList
  | .unterminatedString => "String literal is not terminated".toList

/-- What a state does not keep of a query: items that are neither fields, lookups nor subqueries;
conditions of another form; items to sort by after the first; counts out of range; and that
conditions were joined by `OR`. -/
structure Report where
  unsupportedItems : List Text
  unsupportedFilters : List Text
  droppedOrderBy : List Text
  droppedPaging : List Text
  usesOr : Bool
  deriving DecidableEq

/-- Nothing of the query was lost. -/
def Report.isLossless (r : Report) : Bool :=
  r.unsupportedItems.isEmpty && r.unsupportedFilters.isEmpty && r.droppedOrderBy.isEmpty &&
    r.droppedPaging.isEmpty && !r.usesOr

/-- The text behind `FROM` and the object in the body of a subquery. -/
def clausesAfterFrom (body : Text) : Text :=
  match Phrase.find? [Keyword.FROM.spelling] (tokenize body) with
  | some (_ :: _ :: rest) => (Token.render rest).trim
  | _ => []

/-- The subquery that an item is, without an identity. -/
def Subquery.ofItem? (item : Text) : Option Subquery := do
  let body ← subqueryBody? item
  let inner := Query.ofText body
  let relationship ← inner.objectName
  return {
    id := []
    relationship
    childObject := []
    fields := Text.join ", ".toList inner.selectItems
    clauses := clausesAfterFrom body }

/-- Gives a subquery the identity and child object of the first one in `known` with the same
relationship, or a number as its identity. -/
def Subquery.identify (known : List Subquery) (number : Nat) (s : Subquery) : Subquery :=
  match known.find? fun k => Text.eqIgnoreCase k.relationship s.relationship with
  | some k => { s with id := k.id, childObject := k.childObject }
  | none => { s with id := "sq".toList ++ Text.ofNat number }

/-- An item has a place in a state. -/
def isSupported (item : Text) : Bool :=
  match SelectItem.ofText item with
  | .field | .lookup => true
  | .subquery => (Subquery.ofItem? item).isSome
  | _ => false

/-- The value that a literal denotes, or the literal again where the plain value would not be read
back: it looks quoted, has blanks at its ends, or would fall apart as an item of a list. -/
def literalValue (inList : Bool) (raw : Text) : Text :=
  let value := Literal.unquote raw
  let readsBack := !Literal.isQuoted value && value.trim == value
  let splitsBack := !value.isEmpty && value.head? != some '(' &&
    !value.any fun c => c == ',' || c == '\'' || c == '"'
  if readsBack && (!inList || splitsBack) then value else Literal.quoteText value

/-- The value of a right-hand side: a literal as its text, a list as its items with commas, a
subquery as it is. -/
def filterValue (operator : Operator) (raw : Text) : Text :=
  if operator.takesList then
    if (subqueryBody? raw).isSome then raw.trim
    else
      match stripOuterParens? raw with
      | some items => Text.join ", ".toList ((splitItems items).map (literalValue true))
      | none => literalValue false raw
  else literalValue false raw

/-- The filter with a number that a condition becomes. -/
def Filter.ofCondition (number : Nat) (c : Condition) : Filter :=
  { id := 'f' :: Text.ofNat number
    field := c.field
    operator := c.operator
    value := filterValue c.operator c.rawValue }

/-- The order that an item to sort by states. -/
def OrderBy.ofItem (item : Text) : OrderBy :=
  { field := stripOrderDirection item
    direction := if (tokenize item).any (·.kind == .keyword .DESC) then .descending
      else .ascending }

/-- A count that fits a state. -/
def pageCount? (count : Option Nat) : Option UInt32 :=
  count.bind fun n => if n < UInt32.size then some (UInt32.ofNat n) else none

/-- The clause of a count that a state cannot hold. -/
def droppedCount (keyword : Text) (count : Option Nat) : Option Text → List Text
  | some raw => if (pageCount? count).isSome then [] else [keyword ++ ' ' :: raw]
  | none => []

/-- The fragments of the `WHERE` clause. -/
def fragments (ts : List Token) : List Text :=
  ((Clause.condition.body? ts).map splitConditions).getD []

/-- The items of the `ORDER BY` clause. -/
def orderItems (ts : List Token) : List Text :=
  ((Clause.ordering.body? ts).map splitItems).getD []

/-- The `WHERE` clause has an `OR`, inside parentheses or outside. -/
def usesOr (ts : List Token) : Bool :=
  (Clause.condition.body? ts).any fun body => (tokenize body).any (·.kind == .keyword .OR)

/-- The object of a text that can be imported. -/
def importable (ts : List Token) : Except ImportError Text :=
  if Token.hasUnclosed ts then .error .unterminatedString
  else if !Token.isBalanced ts then .error .unbalancedParentheses
  else if (Clause.selection.body? ts).isNone then .error .missingSelect
  else
    match Token.objectName? ts with
    | some object => .ok object
    | none => .error .missingFrom

/-- The state that a query on `object` becomes. -/
def stateOf (previous : State) (object : Text) (ts : List Token) : State :=
  let q := Query.ofTokens ts
  let subqueries := q.selectItems.filterMap Subquery.ofItem?
  { enabled := previous.enabled
    object
    fields := q.selectItems.filter (SelectItem.ofText · == .field)
    lookups := q.selectItems.filter (SelectItem.ofText · == .lookup)
    subqueries := subqueries.zipIdx.map fun (s, k) => s.identify previous.subqueries (k + 1)
    filters := ((fragments ts).filterMap Condition.ofText?).zipIdx.map fun (c, k) =>
      Filter.ofCondition (k + 1) c
    orderBy := (orderItems ts).head?.map OrderBy.ofItem
    limit := (pageCount? q.limit).getD 0
    offset := (pageCount? q.offset).getD 0
    after := previous.after }

/-- What the state of a query leaves out. -/
def reportOf (ts : List Token) : Report :=
  let q := Query.ofTokens ts
  { unsupportedItems := q.selectItems.filter (!isSupported ·)
    unsupportedFilters := (fragments ts).filter fun s => (Condition.ofText? s).isNone
    droppedOrderBy := (orderItems ts).drop 1
    droppedPaging := droppedCount "LIMIT".toList q.limit q.rawLimit ++
      droppedCount "OFFSET".toList q.offset q.rawOffset
    usesOr := usesOr ts }

namespace State

/-- The state that a query text becomes, and what it leaves out. -/
def import? (text : Text) (previous : State) : Except ImportError (State × Report) := do
  let ts := tokenize text
  let object ← importable ts
  return (stateOf previous object ts, reportOf ts)

/-- The state after a query text is applied to it: the imported one, or the same as before when
the text is refused. -/
def apply (s : State) (text : Text) : State × Except ImportError Report :=
  match import? text s with
  | .ok (next, report) => (next, .ok report)
  | .error e => (s, .error e)

/-- The state after query texts are applied to it one after another. -/
def applyAll (s : State) (texts : List Text) : State :=
  texts.foldl (fun s text => (s.apply text).1) s

end State

end Soql.Builder
