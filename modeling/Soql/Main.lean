import Soql.Overview

/-!
# Command line

Prints the overview of the query that the arguments give.
-/

/-- Prints the overview of a query. -/
def main (arguments : List String) : IO Unit :=
  IO.print (String.ofList
    (Soql.Overview.text (Soql.Overview.queryOfArguments (arguments.map String.toList))))
