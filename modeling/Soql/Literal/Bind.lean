import Soql.Text.Alphanumeric

/-!
# Bind variables

A colon and a name stand for a value that is supplied when the query is run.
-/

namespace Soql.Literal

/-- A colon and at least one letter, numeral, underscore or point. -/
def isBindVariable : Text → Bool
  | ':' :: name =>
    !name.isEmpty && name.all fun c => Text.isAlphanumeric c || c == '_' || c == '.'
  | _ => false

end Soql.Literal
