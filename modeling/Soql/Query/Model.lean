import Soql.Query.Clause
import Soql.Query.Condition
import Soql.Query.SelectItem

/-!
# Queries taken apart

`Query.ofText` takes a query apart into its clauses. It accepts every text: a clause that is not
found is empty, and what such gaps mean is left to validation. The bodies of `LIMIT` and `OFFSET`
are kept as written next to the counts they denote, if any.
-/

namespace Soql

/-- The clauses of a query. -/
structure Query where
  objectName : Option Text
  selectItems : List Text
  groupItems : List Text
  hasGroupBy : Bool
  hasHaving : Bool
  hasOrderBy : Bool
  orderItems : List Text
  conditions : List Condition
  limit : Option Nat
  offset : Option Nat
  rawLimit : Option Text
  rawOffset : Option Text
  deriving DecidableEq

namespace Query

/-- Counts are below this number. -/
def countBound : Nat :=
  UInt64.size

/-- The count that a text of ASCII digits denotes, when it is below the bound. -/
def count? (s : Text) : Option Nat :=
  if Text.isDigits s && Text.digitsValue s < countBound then some (Text.digitsValue s) else none

/-- The query with the given tokens. -/
def ofTokens (ts : List Token) : Query :=
  let grouping := Clause.grouping.body? ts
  let ordering := Clause.ordering.body? ts
  let rawLimit := Clause.limit.body? ts
  let rawOffset := Clause.offset.body? ts
  { objectName := Token.objectName? ts
    selectItems := ((Clause.selection.body? ts).map splitItems).getD []
    groupItems := (grouping.map fun body => (splitItems body).flatMap expandGrouping).getD []
    hasGroupBy := grouping.isSome
    hasHaving := (Phrase.find? [Keyword.HAVING.spelling] ts).isSome
    hasOrderBy := ordering.isSome
    orderItems := (ordering.map fun body =>
      ((splitItems body).map stripOrderDirection).filter (!·.isEmpty)).getD []
    conditions := ((Clause.condition.body? ts).map fun body =>
      (splitConditions body).filterMap Condition.ofText?).getD []
    limit := rawLimit.bind count?
    offset := rawOffset.bind count?
    rawLimit
    rawOffset }

/-- The clauses of a query text. -/
def ofText (s : Text) : Query :=
  ofTokens (tokenize s)

end Query

end Soql
