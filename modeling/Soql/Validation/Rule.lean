import Soql.Validation.Value

/-!
# Validation rules

Each rule looks at a query, at the describe of its object if there is one, and at the
configuration, and lists its findings. Rules do not depend on each other; `Rule.all` only fixes
the order in which their findings are reported.
-/

namespace Soql.Validation

/-- Switches for rules that depend on what the caller knows. -/
structure Config where
  /-- Report a query on an object without a describe. -/
  requireDescribe : Bool
  /-- Compare values with the types of fields. -/
  checkValueTypes : Bool
  /-- Warn of a subquery that selects the ids of another object. -/
  warnIdSemiJoin : Bool
  deriving DecidableEq

/-- All switches on. -/
def Config.standard : Config :=
  ⟨true, true, true⟩

/-- What a rule looks at. -/
structure Context where
  query : Query
  describe : Option Schema.Describe
  config : Config

namespace Context

/-- The shapes of the items of the select list. -/
def shapes (c : Context) : List SelectItem :=
  c.query.selectItems.map SelectItem.ofText

/-- The subqueries of the select list and those on the right of list operators, without their
parentheses. -/
def subqueries (c : Context) : List Text :=
  c.query.selectItems.filterMap subqueryBody? ++
    (c.query.conditions.filter (·.operator.takesList)).filterMap (subqueryBody? ·.rawValue)

/-- A query that selects nothing. -/
def emptySelect (c : Context) : List Finding :=
  if c.query.selectItems.isEmpty then [.emptySelect] else []

/-- A query that names no object. -/
def missingObject (c : Context) : List Finding :=
  if c.query.objectName.isNone then [.missingObject] else []

/-- An object without a describe, where one is required. -/
def describeUnavailable (c : Context) : List Finding :=
  match c.query.objectName, c.describe with
  | some object, none =>
    if c.config.requireDescribe then [.describeUnavailable object] else []
  | _, _ => []

/-- A describe that is of another object and no sample. -/
def objectMismatch (c : Context) : List Finding :=
  match c.query.objectName, c.describe with
  | some object, some describe =>
    if !describe.isDemo && !Text.eqIgnoreCase describe.name object then
      [.objectMismatch object describe.name]
    else []
  | _, _ => []

/-- The `FIELDS` macro beside columns or aggregates; subqueries do not count. -/
def fieldsMacro (c : Context) : List Finding :=
  if c.shapes.contains .fieldsMacro then
    (if c.shapes.any SelectItem.isColumn then [.fieldsMacroWithFields] else []) ++
      if c.shapes.contains .aggregate then [.fieldsMacroWithAggregate] else []
  else []

/-- An order without fields. -/
def emptyOrderBy (c : Context) : List Finding :=
  if c.query.hasOrderBy && c.query.orderItems.isEmpty then [.emptyOrderBy] else []

/-- The finding on a body that is there and denotes no count. -/
def invalidCount (finding : Text → Finding) (raw : Option Text) (count : Option Nat) :
    List Finding :=
  match raw, count with
  | some raw, none => [finding raw]
  | _, _ => []

/-- Bodies of limit and offset that are no counts, and an offset without a limit. -/
def paging (c : Context) : List Finding :=
  invalidCount .invalidLimit c.query.rawLimit c.query.limit ++
    invalidCount .invalidOffset c.query.rawOffset c.query.offset ++
    if c.query.rawOffset.isSome && c.query.rawLimit.isNone then [.offsetWithoutLimit] else []

/-- Aggregates beside columns in a query without a grouping. -/
def aggregateWithoutGroupBy (c : Context) : List Finding :=
  if !c.query.hasGroupBy && c.shapes.contains .aggregate && c.shapes.any SelectItem.isColumn then
    [.aggregateWithoutGroupBy]
  else []

/-- Columns of a grouped query that it is not grouped by. -/
def fieldNotGrouped (c : Context) : List Finding :=
  if c.query.hasGroupBy then
    let columns := c.query.selectItems.filter fun item => (SelectItem.ofText item).isColumn
    let missing := (columns.map stripAlias).filter fun field =>
      !c.query.groupItems.any (Text.eqIgnoreCase · field)
    missing.map .fieldNotGrouped
  else []

/-- A condition on groups in a query without a grouping. -/
def havingWithoutGroupBy (c : Context) : List Finding :=
  if c.query.hasHaving && !c.query.hasGroupBy then [.havingWithoutGroupBy] else []

/-- Subqueries that are sorted. -/
def orderByInSubquery (c : Context) : List Finding :=
  let sorted := c.subqueries.filter fun body =>
    (Phrase.find? (Phrase.ofText "ORDER BY".toList) (tokenize body)).isSome
  sorted.map fun body => .orderByInSubquery ('(' :: body ++ [')'])

/-- What is wrong with a condition that compares with a subquery: it selects one field, and not
the id of an object other than the one queried. -/
def semiJoinFindings (c : Context) (condition : Condition) : List Finding :=
  match subqueryBody? condition.rawValue with
  | none => []
  | some body =>
    let inner := Query.ofText body
    match inner.selectItems with
    | [item] =>
      if c.config.warnIdSemiJoin && Text.eqIgnoreCase item "Id".toList then
        match c.query.objectName, inner.objectName with
        | some outer, some object =>
          if Text.eqIgnoreCase outer object then []
          else [.semiJoinSelectsId condition.field object outer]
        | _, _ => []
      else []
    | items => [.semiJoinFieldCount condition.field items.length]

/-- Comparisons with subqueries of a wrong shape. -/
def semiJoins (c : Context) : List Finding :=
  (c.query.conditions.filter (·.operator.isMembership)).flatMap c.semiJoinFindings

/-- The finding on the right-hand side of a list operator. -/
def checkList? (condition : Condition) : Option Finding :=
  if (tokenize condition.rawValue).head?.any (·.kind.isComparison) then
    some (.comparisonAfterListOperator condition.field condition.operator)
  else if (stripOuterParens? condition.rawValue).isNone then
    some (.listOperatorRequiresList condition.field condition.operator)
  else none

/-- List operators with neither a list nor a subquery behind them. -/
def listOperators (c : Context) : List Finding :=
  (c.query.conditions.filter (·.operator.takesList)).filterMap checkList?

/-- The findings on the values of a condition; null and bind variables fit every field. -/
def valueFindings (describe : Schema.Describe) (condition : Condition) : List Finding :=
  if SelectItem.ofText condition.field == .field then
    match describe.getField? condition.field with
    | some field =>
      let values := condition.values.filter fun value =>
        !(Literal.isNull value || Literal.isBindVariable value)
      values.filterMap (checkValue? field condition.operator)
    | none => []
  else []

/-- Values that do not fit the types of their fields. -/
def valueTypes (c : Context) : List Finding :=
  match c.describe with
  | some describe =>
    if c.config.checkValueTypes then c.query.conditions.flatMap (valueFindings describe) else []
  | none => []

/-- Null compared with by an equals sign. -/
def nullEquality (c : Context) : List Finding :=
  let comparisons := c.query.conditions.filter fun condition =>
    condition.operator == .equal && Literal.isNull condition.rawValue
  comparisons.map (.nullEquality ·.field)

end Context

/-- A validation rule. -/
inductive Rule
  | selectNotEmpty | objectPresent | describeAvailable | describeMatchesObject
  | fieldsMacroAlone | orderByHasFields | limitAndOffset | aggregatesNeedGroupBy
  | groupedFields | havingNeedsGroupBy | noOrderByInSubquery | semiJoinShape
  | listOperatorRhs | valueTypes | nullEquality
  deriving DecidableEq

namespace Rule

/-- Every rule, in the order of reporting. -/
def all : List Rule :=
  [.selectNotEmpty, .objectPresent, .describeAvailable, .describeMatchesObject,
    .fieldsMacroAlone, .orderByHasFields, .limitAndOffset, .aggregatesNeedGroupBy,
    .groupedFields, .havingNeedsGroupBy, .noOrderByInSubquery, .semiJoinShape,
    .listOperatorRhs, .valueTypes, .nullEquality]

/-- The name of a rule. -/
def name : Rule → Text
  | .selectNotEmpty => "select_not_empty".toList
  | .objectPresent => "object_present".toList
  | .describeAvailable => "describe_available".toList
  | .describeMatchesObject => "describe_matches_object".toList
  | .fieldsMacroAlone => "fields_macro_alone".toList
  | .orderByHasFields => "order_by_has_fields".toList
  | .limitAndOffset => "limit_and_offset".toList
  | .aggregatesNeedGroupBy => "aggregates_need_group_by".toList
  | .groupedFields => "grouped_fields".toList
  | .havingNeedsGroupBy => "having_needs_group_by".toList
  | .noOrderByInSubquery => "no_order_by_in_subquery".toList
  | .semiJoinShape => "semi_join_shape".toList
  | .listOperatorRhs => "list_operator_rhs".toList
  | .valueTypes => "value_types".toList
  | .nullEquality => "null_equality".toList

/-- The findings of a rule. -/
def findings : Rule → Context → List Finding
  | .selectNotEmpty => Context.emptySelect
  | .objectPresent => Context.missingObject
  | .describeAvailable => Context.describeUnavailable
  | .describeMatchesObject => Context.objectMismatch
  | .fieldsMacroAlone => Context.fieldsMacro
  | .orderByHasFields => Context.emptyOrderBy
  | .limitAndOffset => Context.paging
  | .aggregatesNeedGroupBy => Context.aggregateWithoutGroupBy
  | .groupedFields => Context.fieldNotGrouped
  | .havingNeedsGroupBy => Context.havingWithoutGroupBy
  | .noOrderByInSubquery => Context.orderByInSubquery
  | .semiJoinShape => Context.semiJoins
  | .listOperatorRhs => Context.listOperators
  | .valueTypes => Context.valueTypes
  | .nullEquality => Context.nullEquality

end Rule

end Soql.Validation
