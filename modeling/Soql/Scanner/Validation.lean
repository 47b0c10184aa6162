import Soql.Scanner.Literal
import Soql.Scanner.Query
import Soql.Validation.Result

/-!
# Validating by slices

The rules that look into the texts of a query: they take items and right-hand sides apart again.
The other rules look at the clauses only and slice nothing.
-/

namespace Soql.Scanner

open Validation

section Values

/-- The values that a condition compares a field with. -/
def values? (c : Condition) : Checked (List Text) :=
  if c.operator.takesList then do
    let body ← subqueryBody? c.rawValue
    if body.isSome then some []
    else do
      let list ← stripOuterParens? c.rawValue
      ofClause? splitItems? list
  else some [c.rawValue.trim]

/-- What is wrong with a value for a date field. -/
def checkDate? (name : Text) (type : Schema.FieldType) (value : Text) :
    Checked (Option Finding) := do
  let quoted ← isQuoted? value
  if quoted then some (some (.dateValueQuoted name value))
  else do
    let date ← isIsoDate? value
    let dateTime ← if type == .dateTime then isIsoDateTime? value else some false
    some (if Date.isLiteral value || date || dateTime then none else some (.dateValue name value))

/-- What is wrong with a value for a field. -/
def checkValue? (field : Schema.Field) (op : Operator) (value : Text) :
    Checked (Option Finding) :=
  let name := field.name
  let type := field.fieldType
  if type == .boolean || type.isNumeric then some (Validation.checkValue? field op value)
  else if type.isDate then checkDate? name type value
  else if type.isId then do
    let id ← trimQuotes? value
    some (if Literal.isRecordId id then none else some (.idValue name value))
  else if type.isTextual then do
    let quoted ← isQuoted? value
    some (if needsQuotes op && !quoted then some (.stringValueUnquoted name op value) else none)
  else some none

end Values

section Rules

variable (c : Context)

/-- The shapes of the items of the select list. -/
def shapes? : Checked (List SelectItem) :=
  c.query.selectItems.mapM selectItem?

/-- The subqueries of the select list and those on the right of list operators. -/
def subqueries? : Checked (List Text) := do
  let selected ← c.query.selectItems.mapM subqueryBody?
  let compared ← (c.query.conditions.filter (·.operator.takesList)).mapM (subqueryBody? ·.rawValue)
  some (selected.filterMap id ++ compared.filterMap id)

/-- The `FIELDS` macro beside columns or aggregates. -/
def fieldsMacro? : Checked (List Finding) := do
  let shapes ← shapes? c
  some (if shapes.contains .fieldsMacro then
      (if shapes.any SelectItem.isColumn then [.fieldsMacroWithFields] else []) ++
        if shapes.contains .aggregate then [.fieldsMacroWithAggregate] else []
    else [])

/-- Aggregates beside columns in a query without a grouping. -/
def aggregateWithoutGroupBy? : Checked (List Finding) := do
  let shapes ← shapes? c
  some (if !c.query.hasGroupBy && shapes.contains .aggregate && shapes.any SelectItem.isColumn then
    [.aggregateWithoutGroupBy] else [])

/-- Columns of a grouped query that it is not grouped by. -/
def fieldNotGrouped? : Checked (List Finding) :=
  if c.query.hasGroupBy then do
    let shapes ← shapes? c
    let columns := ((c.query.selectItems.zip shapes).filter (·.2.isColumn)).map Prod.fst
    let fields ← columns.mapM stripAlias?
    let missing := fields.filter fun field => !c.query.groupItems.any (Text.eqIgnoreCase · field)
    some (missing.map .fieldNotGrouped)
  else some []

/-- The body of a subquery has an order. -/
def isSorted? (body : Text) : Checked Bool := do
  let found ← find? body (Phrase.ofText "ORDER BY".toList) (Token.located body)
  some (!found.isEmpty)

/-- Subqueries that are sorted. -/
def orderByInSubquery? : Checked (List Finding) := do
  let bodies ← subqueries? c
  let sorted ← bodies.mapM isSorted?
  let found := ((bodies.zip sorted).filter (·.2)).map Prod.fst
  some (found.map fun body => .orderByInSubquery ('(' :: body ++ [')']))

/-- What is wrong with a condition that compares with a subquery. -/
def semiJoinFindings? (condition : Condition) : Checked (List Finding) := do
  let body ← subqueryBody? condition.rawValue
  match body with
  | none => some []
  | some body => do
    let inner ← query? body
    if inner.selectItems.length != 1 then
      some [.semiJoinFieldCount condition.field inner.selectItems.length]
    else if c.config.warnIdSemiJoin then do
      let item ← inner.selectItems[0]?
      if Text.eqIgnoreCase item "Id".toList then
        match c.query.objectName, inner.objectName with
        | some outer, some object =>
          some (if Text.eqIgnoreCase outer object then []
            else [.semiJoinSelectsId condition.field object outer])
        | _, _ => some []
      else some []
    else some []

/-- Comparisons with subqueries of a wrong shape. -/
def semiJoins? : Checked (List Finding) := do
  let findings ← (c.query.conditions.filter (·.operator.isMembership)).mapM (semiJoinFindings? c)
  some findings.flatten

/-- The finding on the right-hand side of a list operator. -/
def checkList? (condition : Condition) : Checked (Option Finding) :=
  if (tokens (Token.located condition.rawValue)).head?.any (·.kind.isComparison) then
    some (some (.comparisonAfterListOperator condition.field condition.operator))
  else do
    let list ← stripOuterParens? condition.rawValue
    some (if list.isNone then some (.listOperatorRequiresList condition.field condition.operator)
      else none)

/-- List operators with neither a list nor a subquery behind them. -/
def listOperators? : Checked (List Finding) := do
  let findings ← (c.query.conditions.filter (·.operator.takesList)).mapM checkList?
  some (findings.filterMap id)

/-- The findings on the values of a condition. -/
def valueFindings? (describe : Schema.Describe) (condition : Condition) :
    Checked (List Finding) := do
  let shape ← selectItem? condition.field
  if shape == .field then
    match describe.getField? condition.field with
    | some field => do
      let values ← values? condition
      let findings ← (values.filter fun value =>
        !(Literal.isNull value || Literal.isBindVariable value)).mapM
          (checkValue? field condition.operator)
      some (findings.filterMap id)
    | none => some []
  else some []

/-- Values that do not fit the types of their fields. -/
def valueTypes? : Checked (List Finding) :=
  match c.describe with
  | some describe =>
    if c.config.checkValueTypes then do
      let findings ← c.query.conditions.mapM (valueFindings? describe)
      some findings.flatten
    else some []
  | none => some []

end Rules

/-- The findings of a rule. -/
def findings? (c : Context) : Rule → Checked (List Finding)
  | .fieldsMacroAlone => fieldsMacro? c
  | .aggregatesNeedGroupBy => aggregateWithoutGroupBy? c
  | .groupedFields => fieldNotGrouped? c
  | .noOrderByInSubquery => orderByInSubquery? c
  | .semiJoinShape => semiJoins? c
  | .listOperatorRhs => listOperators? c
  | .valueTypes => valueTypes? c
  | rule => some (rule.findings c)

/-- The findings on a query text, in the order of the rules. -/
def validate? (config : Config) (describe : Option Schema.Describe) (s : Text) :
    Checked Result := do
  let query ← query? s
  let findings ← Rule.all.mapM (findings? { query, describe, config })
  some { query, findings := findings.flatten }

end Soql.Scanner
