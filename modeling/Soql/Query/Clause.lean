import Soql.Token.Phrase

/-!
# Clauses of a query

Each clause opens with a phrase and runs up to one of the phrases that may close it. Which phrases
close a clause depends on the clause: `LIMIT` ends at `OFFSET` and `OFFSET` ends at `LIMIT`, so
the two may come in either order.
-/

namespace Soql

/-- The clauses whose text is read. -/
inductive Clause
  | selection | condition | grouping | ordering | limit | offset
  deriving DecidableEq

namespace Clause

/-- The phrase that opens a clause. -/
def opening : Clause → Text
  | .selection => "SELECT".toList
  | .condition => "WHERE".toList
  | .grouping => "GROUP BY".toList
  | .ordering => "ORDER BY".toList
  | .limit => "LIMIT".toList
  | .offset => "OFFSET".toList

/-- The phrases that close a clause. -/
def endings : Clause → List Text
  | .selection => ["FROM"].map String.toList
  | .condition =>
    ["GROUP BY", "ORDER BY", "LIMIT", "OFFSET", "HAVING", "WITH", "FOR"].map String.toList
  | .grouping => ["HAVING", "ORDER BY", "LIMIT", "OFFSET", "WITH", "FOR"].map String.toList
  | .ordering => ["LIMIT", "OFFSET", "FOR"].map String.toList
  | .limit => ["OFFSET", "FOR"].map String.toList
  | .offset => ["LIMIT", "FOR"].map String.toList

/-- The text of a clause, when the query has it at top level. -/
def body? (clause : Clause) (ts : List Token) : Option Text :=
  (Phrase.ofText clause.opening).body? (clause.endings.map Phrase.ofText) ts

end Clause

end Soql
