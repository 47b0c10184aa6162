import Soql.Json.Record
import Soql.Query.Model

/-!
# Queries in JSON

A query is exchanged as a record of its clauses. Names, counts and bodies that a query lacks are
null, or may be left out of an object; every other part must be given.
-/

namespace Soql

/-- Reads an operator from the text that spells it. -/
def Operator.ofJson? (j : Json) : Option Operator :=
  j.text?.bind Operator.ofText?

/-- An operator as its spelling. -/
def Operator.toJson (op : Operator) : Json :=
  .string op.spelling

namespace Condition

/-- The keys of a condition. -/
def keys : List Text :=
  ["field", "operator", "rawValue"].map String.toList

/-- A condition as a record. -/
def toJson (c : Condition) : Json :=
  .object (keys.zip [.string c.field, c.operator.toJson, .string c.rawValue])

/-- Reads a condition. -/
def ofJson? (j : Json) : Option Condition := do
  let [field, operator, rawValue] ← j.record? keys 3 | none
  return {
    field := ← Json.needed Json.text? field
    operator := ← Json.needed Operator.ofJson? operator
    rawValue := ← Json.needed Json.text? rawValue }

end Condition

namespace Query

/-- The keys of a query. -/
def keys : List Text :=
  [ "objectName", "selectFields", "groupByFields", "hasGroupBy", "hasHaving", "hasOrderBy",
    "orderByFields", "filters", "limit", "offset", "rawLimit", "rawOffset" ].map String.toList

/-- A count, or null for none. -/
def countToJson : Option Nat → Json
  | some n => .ofNat n
  | none => .null

/-- A query as a record. -/
def toJson (q : Query) : Json :=
  .object (keys.zip
    [ .ofText? q.objectName, .ofTexts q.selectItems, .ofTexts q.groupItems, .bool q.hasGroupBy,
      .bool q.hasHaving, .bool q.hasOrderBy, .ofTexts q.orderItems,
      .array (q.conditions.map Condition.toJson), countToJson q.limit, countToJson q.offset,
      .ofText? q.rawLimit, .ofText? q.rawOffset ])

/-- Reads a query. An array must give all parts. -/
def ofJson? (j : Json) : Option Query := do
  let [objectName, selectItems, groupItems, hasGroupBy, hasHaving, hasOrderBy, orderItems,
    conditions, limit, offset, rawLimit, rawOffset] ← j.record? keys 12 | none
  let texts := Json.needed (Json.listOf? Json.text?)
  let flag := Json.needed Json.bool?
  let body := Json.withDefault none (Json.nullable? Json.text?)
  let count := Json.withDefault none (Json.nullable? (Json.natBelow? countBound))
  return {
    objectName := ← body objectName
    selectItems := ← texts selectItems
    groupItems := ← texts groupItems
    hasGroupBy := ← flag hasGroupBy
    hasHaving := ← flag hasHaving
    hasOrderBy := ← flag hasOrderBy
    orderItems := ← texts orderItems
    conditions := ← Json.needed (Json.listOf? Condition.ofJson?) conditions
    limit := ← count limit
    offset := ← count offset
    rawLimit := ← body rawLimit
    rawOffset := ← body rawOffset }

end Query

end Soql
