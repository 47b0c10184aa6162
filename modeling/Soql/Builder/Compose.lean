import Soql.Builder.State
import Soql.Literal.Written

/-!
# The query of a builder state

`State.query` writes the query that a state stands for, in one form: clauses in their usual order
with single blanks, empty ones left out; in the select list fields come first, then lookups, then
subqueries. Entries without a field or relationship are passed over.
-/

namespace Soql.Builder

/-- A condition as it is written in a query. -/
def Filter.write (f : Filter) : Text :=
  let value := if f.operator.takesList then Literal.writeList f.value
    else Literal.writeValue f.value
  f.field.trim ++ ' ' :: f.operator.spelling ++ ' ' :: value

/-- A subquery as it is written in the select list; it selects `Id` when no fields are given. -/
def Subquery.write (s : Subquery) : Text :=
  let fields := if s.fields.trim.isEmpty then "Id".toList else s.fields.trim
  let clauses := if s.clauses.trim.isEmpty then [] else ' ' :: s.clauses.trim
  "(SELECT ".toList ++ fields ++ " FROM ".toList ++ s.relationship.trim ++ clauses ++ [')']

/-- The body of the `WHERE` clause: the conditions that have a field. -/
def writeFilters (filters : List Filter) : Text :=
  Text.join " AND ".toList ((filters.filter (!·.field.trim.isEmpty)).map Filter.write)

namespace State

/-- The items of the select list. -/
def selectionItems (s : State) : List Text :=
  ((s.fields ++ s.lookups).map Text.trim).filter (!·.isEmpty) ++
    (s.subqueries.filter (!·.relationship.trim.isEmpty)).map Subquery.write

/-- The select list, `Id` when nothing is selected. -/
def selection (s : State) : Text :=
  if s.selectionItems.isEmpty then "Id".toList else Text.join ", ".toList s.selectionItems

/-- A clause with a count; none for zero. -/
def countClause (keyword : Text) (n : UInt32) : List Text :=
  if n = 0 then [] else [keyword ++ ' ' :: Text.ofNat n.toNat]

/-- The clause that sorts; none without a field. -/
def orderClause : Option OrderBy → List Text
  | some order =>
    if order.field.trim.isEmpty then []
    else ["ORDER BY ".toList ++ order.field.trim ++ ' ' :: order.direction.spelling]
  | none => []

/-- The clause with the conditions; none without any. -/
def conditionClause (filters : List Filter) : List Text :=
  if (writeFilters filters).isEmpty then [] else ["WHERE ".toList ++ writeFilters filters]

/-- Everything behind the object: conditions, order, limit and offset. -/
def arguments (s : State) : Text :=
  Text.join [' '] (conditionClause s.filters ++ orderClause s.orderBy ++
    countClause "LIMIT".toList s.limit ++ countClause "OFFSET".toList s.offset)

/-- The query of a state; empty while no object is chosen. -/
def query (s : State) : Text :=
  if s.object.trim.isEmpty then []
  else
    "SELECT ".toList ++ s.selection ++ " FROM ".toList ++ s.object.trim ++
      if s.arguments.isEmpty then [] else ' ' :: s.arguments

end State

end Soql.Builder
