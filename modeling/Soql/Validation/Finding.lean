import Soql.Operator

/-!
# Findings

What validation reports about a query. A finding carries the texts it speaks of; its message is
derived from them. All findings but one are errors.
-/

namespace Soql.Validation

/-- How grave a finding is: a warning may be intended. -/
inductive Severity
  | error | warning
  deriving DecidableEq

/-- Something that is wrong with a query. -/
inductive Finding
  | emptySelect
  | missingObject
  | describeUnavailable (object : Text)
  | objectMismatch (queryObject describeObject : Text)
  | fieldsMacroWithFields
  | fieldsMacroWithAggregate
  | emptyOrderBy
  | invalidLimit (written : Text)
  | invalidOffset (written : Text)
  | offsetWithoutLimit
  | aggregateWithoutGroupBy
  | fieldNotGrouped (field : Text)
  | havingWithoutGroupBy
  | orderByInSubquery (subquery : Text)
  | semiJoinFieldCount (field : Text) (count : Nat)
  | semiJoinSelectsId (field subqueryObject outerObject : Text)
  | listOperatorRequiresList (field : Text) (operator : Operator)
  | comparisonAfterListOperator (field : Text) (operator : Operator)
  | booleanValue (field value : Text)
  | numericValue (field value : Text)
  | dateValueQuoted (field value : Text)
  | dateValue (field value : Text)
  | idValue (field value : Text)
  | stringValueUnquoted (field : Text) (operator : Operator) (value : Text)
  | nullEquality (field : Text)
  deriving DecidableEq

namespace Finding

/-- A subquery may be meant to select the ids of another object; all else is an error. -/
def severity : Finding → Severity
  | .semiJoinSelectsId .. => .warning
  | _ => .error

/-- A value that was found, at the end of a message. -/
def found (value : Text) : Text :=
  " (found ".toList ++ value ++ [')']

/-- What a user is told. -/
def message : Finding → Text
  | .emptySelect => "SELECT list is empty".toList
  | .missingObject => "Missing object name after FROM".toList
  | .describeUnavailable object => "Failed to retrieve describe for ".toList ++ object
  | .objectMismatch queryObject describeObject =>
    "Query object '".toList ++ queryObject ++ "' does not match describe for '".toList ++
      describeObject ++ ['\'']
  | .fieldsMacroWithFields => "FIELDS() cannot be combined with explicit fields".toList
  | .fieldsMacroWithAggregate => "FIELDS() cannot be combined with aggregate functions".toList
  | .emptyOrderBy => "ORDER BY has no fields".toList
  | .invalidLimit written =>
    "LIMIT must be a non-negative integer".toList ++ found ('\'' :: written ++ ['\''])
  | .invalidOffset written =>
    "OFFSET must be a non-negative integer".toList ++ found ('\'' :: written ++ ['\''])
  | .offsetWithoutLimit => "OFFSET requires LIMIT".toList
  | .aggregateWithoutGroupBy =>
    "Aggregate functions cannot be mixed with non-aggregated fields without GROUP BY".toList
  | .fieldNotGrouped field =>
    "Field '".toList ++ field ++ "' must be aggregated or appear in GROUP BY".toList
  | .havingWithoutGroupBy => "HAVING requires GROUP BY".toList
  | .orderByInSubquery subquery =>
    "ORDER BY is not allowed inside a subquery: ".toList ++ subquery
  | .semiJoinFieldCount field count =>
    "Subquery for '".toList ++ field ++ "' must select exactly one field".toList ++
      found (Text.ofNat count)
  | .semiJoinSelectsId field subqueryObject outerObject =>
    "Subquery for '".toList ++ field ++ "' selects Id from ".toList ++ subqueryObject ++
      "; it should reference a relationship Id such as ".toList ++ outerObject ++ "Id".toList
  | .listOperatorRequiresList field operator =>
    operator.spelling ++ " on '".toList ++ field ++
      "' requires a parenthesized list or subquery".toList
  | .comparisonAfterListOperator field operator =>
    "Unexpected comparison operator after ".toList ++ operator.spelling ++ " on '".toList ++
      field ++ ['\'']
  | .booleanValue field value =>
    "Boolean field '".toList ++ field ++ "' expects TRUE or FALSE without quotes".toList ++
      found value
  | .numericValue field value =>
    "Numeric field '".toList ++ field ++ "' expects a number".toList ++ found value
  | .dateValueQuoted field value =>
    "Date field '".toList ++ field ++ "' expects an unquoted date literal".toList ++ found value
  | .dateValue field value =>
    "Date field '".toList ++ field ++
      "' expects a date literal such as TODAY or LAST_N_DAYS:7".toList ++ found value
  | .idValue field value =>
    "Id field '".toList ++ field ++ "' expects a 15 or 18 character Id".toList ++ found value
  | .stringValueUnquoted field operator value =>
    "Text field '".toList ++ field ++ "' expects a quoted value for ".toList ++
      operator.spelling ++ found value
  | .nullEquality field =>
    '\'' :: field ++ " = null' should be written as ".toList ++ field ++ " IS NULL".toList

end Finding

end Soql.Validation
