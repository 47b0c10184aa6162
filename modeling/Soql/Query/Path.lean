import Soql.Token.Basic

/-!
# Field paths

A field is named by words with points between them. `Path.length?` counts the tokens of the
longest path at the front of some tokens.
-/

namespace Soql.Path

/-- How many tokens go on with a path: pairs of a point and a word. -/
def tailLength : List Token → Nat
  | point :: word :: ts =>
    if point.kind == .dot && word.kind.isWord then tailLength ts + 2 else 0
  | _ => 0

/-- How many tokens the path at the front has, when a word is there. -/
def length? : List Token → Option Nat
  | word :: ts => if word.kind.isWord then some (tailLength ts + 1) else none
  | [] => none

end Soql.Path
