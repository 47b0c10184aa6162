import Soql.Builder.Import
import Soql.Schema.Sample
import Soql.Validation.Result

/-!
# An overview of a query

What the command line prints of a query: its tokens in number, its clauses, the findings of
validation against a sample describe, and the query that remains after a round trip through a
builder state, with what was lost on the way.
-/

namespace Soql.Overview

/-- The query that is shown when none is given. -/
def defaultQuery : Text :=
  ("SELECT Id, Name, Owner.Name, (SELECT Id, Email FROM Contacts) " ++
    "FROM Account WHERE Industry = 'Technology' AND CreatedDate = LAST_N_DAYS:30 " ++
    "ORDER BY Name DESC LIMIT 20").toList

/-- The query that the arguments of the command line give, with blanks between them. -/
def queryOfArguments : List Text → Text
  | [] => defaultQuery
  | arguments => Text.join [' '] arguments

/-- The clauses of a query. -/
def clauseLines (q : Query) : List Text :=
  ["--- Parsing ---".toList,
    "Object: ".toList ++ q.objectName.getD "<none>".toList] ++
  q.selectItems.map ("  select: ".toList ++ ·) ++
  q.conditions.map (fun c => "  where:  ".toList ++
    Text.join [' '] [c.field, c.operator.spelling, c.rawValue]) ++
  (if q.orderItems.isEmpty then []
    else ["  order:  ".toList ++ Text.join ", ".toList q.orderItems]) ++
  (q.rawLimit.map ("  limit:  ".toList ++ ·)).toList ++ [[]]

/-- How a severity is called. -/
def severityName : Validation.Severity → Text
  | .error => "Error".toList
  | .warning => "Warning".toList

/-- The findings on a query, checked against the sample of its object. -/
def findingLines (query : Text) : List Text :=
  let describe := (Query.ofText query).objectName.bind Schema.Sample.describe?
  let result := Validation.validate .standard describe query
  ["--- Validating ---".toList] ++
  (if describe.isNone then ["(no demo describe for this object)".toList] else []) ++
  (if result.ok then ["Query is valid".toList]
    else result.findings.map fun f =>
      "  ".toList ++ severityName f.severity ++ ": ".toList ++ f.message) ++ [[]]

/-- What a report says was lost. -/
def lossLines (r : Builder.Report) : List Text :=
  if r.isLossless then []
  else
    ["Not representable in the builder:".toList] ++
    (r.unsupportedItems ++ r.unsupportedFilters).map ("  ".toList ++ ·) ++
    r.droppedOrderBy.map ("  ORDER BY ".toList ++ ·) ++
    r.droppedPaging.map ("  ".toList ++ ·) ++
    if r.usesOr then ["  OR conditions (builder joins with AND)".toList] else []

/-- The round trip of a query through a builder state. -/
def roundTripLines (query : Text) : List Text :=
  ["--- Builder round trip ---".toList] ++
  match Builder.State.import? query .initial with
  | .ok (state, report) => ("Composed: ".toList ++ state.query) :: lossLines report
  | .error e => ["Import failed: ".toList ++ e.message]

/-- All lines of the overview. -/
def lines (query : Text) : List Text :=
  ["=== SOQL Query Demo ===".toList, [], query, [],
    "--- Tokenizing ---".toList,
    "Found ".toList ++ Text.ofNat (tokenize query).length ++ " tokens".toList, []] ++
  clauseLines (Query.ofText query) ++ findingLines query ++ roundTripLines query

/-- The overview as text, each line with a line feed behind it. -/
def text (query : Text) : Text :=
  (lines query).flatMap (· ++ ['\n'])

end Soql.Overview
