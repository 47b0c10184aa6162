import Soql.Operator

/-!
# Builder states

What is edited when a query is put together piece by piece: an object, lists of fields, lookups
and subqueries, conditions, one order, a page. Everything is plain text as it was typed; values of
conditions are not quoted. A limit or offset of zero stands for none.
-/

namespace Soql.Builder

/-- A subquery on a child relationship: the relationship behind `FROM`, the object it leads to if
that is known, a list of fields, and the text behind the relationship. -/
structure Subquery where
  id : Text
  relationship : Text
  childObject : Text
  fields : Text
  clauses : Text
  deriving DecidableEq

/-- A condition; the value is a list with commas when the operator takes one. -/
structure Filter where
  id : Text
  field : Text
  operator : Operator
  value : Text
  deriving DecidableEq

/-- The direction of sorting. -/
inductive Direction
  | ascending | descending
  deriving DecidableEq

/-- A direction as it is written in a query. -/
def Direction.spelling : Direction → Text
  | .ascending => "ASC".toList
  | .descending => "DESC".toList

/-- A field to sort by. -/
structure OrderBy where
  field : Text
  direction : Direction
  deriving DecidableEq

/-- A query under construction, with a switch and a page cursor that its text does not show. -/
structure State where
  enabled : Bool
  object : Text
  fields : List Text
  lookups : List Text
  subqueries : List Subquery
  filters : List Filter
  orderBy : Option OrderBy
  limit : UInt32
  offset : UInt32
  after : Text
  deriving DecidableEq

/-- The state before anything is chosen: enabled, with `Id` as the only field. -/
def State.initial : State :=
  { enabled := true, object := [], fields := ["Id".toList], lookups := [], subqueries := []
    filters := [], orderBy := none, limit := 0, offset := 0, after := [] }

/-- The initial state for an object. -/
def State.ofObject (object : Text) : State :=
  { State.initial with object }

end Soql.Builder
