import Soql.Operator
import Soql.Query.Path

/-!
# Conditions

A condition compares a field with a value. The field is a path, with a group in parentheses behind
it if it is a call; the value is whatever follows the operator, kept as it is written. A fragment
that starts in another way, such as a group or a negation, is no condition of this form.
-/

namespace Soql

/-- A field, an operator and the text of the right-hand side. -/
structure Condition where
  field : Text
  operator : Operator
  rawValue : Text
  deriving DecidableEq

namespace Condition

/-- The first token can start a field. -/
def startsField : List Token → Bool
  | t :: _ => t.kind.isWord && t.kind != .keyword .NOT
  | [] => false

/-- The condition that a fragment states. -/
def ofText? (fragment : Text) : Option Condition :=
  let ts := tokenize fragment
  if startsField ts then do
    let path ← Path.length? ts
    let n := path + Token.groupLength (ts.drop path)
    let (operator, m) ← Operator.matchAt? (ts.drop n)
    return {
      field := (Token.render (ts.take n)).trim
      operator
      rawValue := (Token.render (ts.drop (n + m))).trim }
  else none

end Condition

end Soql
