import Soql.Builder.Import
import Soql.Query.Json

/-!
# Builder states in JSON

A state is kept as a record. Reading fills in what is missing from the initial state, and a record
can be changed key by key before it is read again. The clauses of a subquery are left out when
they are empty.
-/

namespace Soql.Builder

namespace Subquery

/-- The keys of a subquery. -/
def keys : List Text :=
  ["id", "relationship", "childObject", "fields", "clauses"].map String.toList

/-- A subquery as a record. -/
def toJson (s : Subquery) : Json :=
  let values : List Json :=
    [.string s.id, .string s.relationship, .string s.childObject, .string s.fields]
  .object (keys.zip (if s.clauses.isEmpty then values else values ++ [.string s.clauses]))

/-- Reads a subquery; identity and relationship are needed. -/
def ofJson? (j : Json) : Option Subquery := do
  let [id, relationship, childObject, fields, clauses] ← j.record? keys 0 | none
  return {
    id := ← Json.needed Json.text? id
    relationship := ← Json.needed Json.text? relationship
    childObject := ← Json.withDefault [] Json.text? childObject
    fields := ← Json.withDefault [] Json.text? fields
    clauses := ← Json.withDefault [] Json.text? clauses }

end Subquery

namespace Filter

/-- The keys of a condition. -/
def keys : List Text :=
  ["id", "field", "op", "value"].map String.toList

/-- A condition as a record. -/
def toJson (f : Filter) : Json :=
  .object (keys.zip [.string f.id, .string f.field, f.operator.toJson, .string f.value])

/-- Reads a condition; only the value may be missing. -/
def ofJson? (j : Json) : Option Filter := do
  let [id, field, operator, value] ← j.record? keys 0 | none
  return {
    id := ← Json.needed Json.text? id
    field := ← Json.needed Json.text? field
    operator := ← Json.needed Operator.ofJson? operator
    value := ← Json.withDefault [] Json.text? value }

end Filter

namespace Direction

/-- The direction with a spelling, in capitals. -/
def ofText? (s : Text) : Option Direction :=
  [Direction.ascending, .descending].find? (·.spelling == s)

/-- A direction as its spelling. -/
def toJson (d : Direction) : Json :=
  .string d.spelling

/-- Reads a direction: its spelling, or an object with the spelling as the only key, and null. -/
def ofJson? : Json → Option Direction
  | .string s => ofText? s
  | .object [(key, .null)] => ofText? key
  | _ => none

end Direction

namespace OrderBy

/-- The keys of an order. -/
def keys : List Text :=
  ["field", "dir"].map String.toList

/-- An order as a record. -/
def toJson (o : OrderBy) : Json :=
  .object (keys.zip [.string o.field, o.direction.toJson])

/-- Reads an order, ascending when it does not say. -/
def ofJson? (j : Json) : Option OrderBy := do
  let [field, direction] ← j.record? keys 0 | none
  return {
    field := ← Json.needed Json.text? field
    direction := ← Json.withDefault .ascending Direction.ofJson? direction }

end OrderBy

/-- A report as a record. -/
def Report.toJson (r : Report) : Json :=
  .object
    [ ("unsupportedItems".toList, .ofTexts r.unsupportedItems),
      ("unsupportedFilters".toList, .ofTexts r.unsupportedFilters),
      ("droppedOrderBy".toList, .ofTexts r.droppedOrderBy),
      ("droppedPaging".toList, .ofTexts r.droppedPaging),
      ("usesOr".toList, .bool r.usesOr) ]

namespace State

/-- The keys of a state. -/
def keys : List Text :=
  [ "enabled", "object", "fields", "lookups", "subqueries", "filters", "orderBy", "limit",
    "offset", "after" ].map String.toList

/-- The members of a state's record. -/
def members (s : State) : List (Text × Json) :=
  keys.zip
    [ .bool s.enabled, .string s.object, .ofTexts s.fields, .ofTexts s.lookups,
      .array (s.subqueries.map Subquery.toJson), .array (s.filters.map Filter.toJson),
      (s.orderBy.map OrderBy.toJson).getD .null, .ofNat s.limit.toNat, .ofNat s.offset.toNat,
      .string s.after ]

/-- A state as a record. -/
def toJson (s : State) : Json :=
  .object s.members

/-- Reads a number of rows. -/
def rowsOfJson? (j : Json) : Option UInt32 :=
  (j.natBelow? UInt32.size).map UInt32.ofNat

/-- Reads a state; what is missing is as in the initial state. -/
def ofJson? (j : Json) : Option State := do
  let [enabled, object, fields, lookups, subqueries, filters, orderBy, limit, offset, after] ←
    j.record? keys 0 | none
  let default := State.initial
  return {
    enabled := ← Json.withDefault default.enabled Json.bool? enabled
    object := ← Json.withDefault default.object Json.text? object
    fields := ← Json.withDefault default.fields (Json.listOf? Json.text?) fields
    lookups := ← Json.withDefault default.lookups (Json.listOf? Json.text?) lookups
    subqueries := ← Json.withDefault default.subqueries (Json.listOf? Subquery.ofJson?) subqueries
    filters := ← Json.withDefault default.filters (Json.listOf? Filter.ofJson?) filters
    orderBy := ← Json.withDefault default.orderBy (Json.nullable? OrderBy.ofJson?) orderBy
    limit := ← Json.withDefault default.limit rowsOfJson? limit
    offset := ← Json.withDefault default.offset rowsOfJson? offset
    after := ← Json.withDefault default.after Json.text? after }

/-- The state with the values that a patch gives for keys of its record. -/
def merge? (s : State) (patch : List (Text × Json)) : Option State :=
  ofJson? (.object (patch.foldl (fun members m => Json.setMember m.1 m.2 members) s.members))

end State

end Soql.Builder
