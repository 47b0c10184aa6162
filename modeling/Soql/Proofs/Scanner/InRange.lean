import Soql.Proofs.Scanner.Builder
import Soql.Proofs.Scanner.Validation

/-!
# No slice is out of range

Reading, importing, composing and validating give a result for every text, state, describe and
configuration when each slice and each index on the way is checked. So none of them is out of
range, whatever is unbalanced, unclosed or beyond ASCII, and the checks make no difference to the
result.
-/

namespace Soql.Scanner

open Builder Validation

/-- Every slice and every index is in range, and what is computed with them is what the tokens
alone give. -/
theorem checked_eq_some (text start : Text) (ends : List Text) (state : State) (config : Config)
    (describe : Option Schema.Describe) :
    query? text = some (Query.ofText text) ∧
    splitItems? text = some (Soql.splitItems text) ∧
    splitConditions? text = some (Soql.splitConditions text) ∧
    extractClause? start ends text = some (Soql.extractClause start ends text) ∧
    stripOuterParens? text = some (Soql.stripOuterParens? text) ∧
    unquote? text = some (Literal.unquote text) ∧
    condition? text = some (Condition.ofText? text) ∧
    stripAlias? text = some (Soql.stripAlias text) ∧
    stripOrderDirection? text = some (Soql.stripOrderDirection text) ∧
    Scanner.import? text state = some (State.import? text state) ∧
    compose? state = some state.query ∧
    validate? config describe text = some (validate config describe text) ∧
    isIsoDate? text = some (Date.isIsoDate text) ∧
    isIsoDateTime? text = some (Date.isIsoDateTime text) :=
  ⟨query?_eq text, splitItems?_eq text, splitConditions?_eq text, extractClause?_eq start ends text,
    stripOuterParens?_eq text, unquote?_eq text, condition?_eq text, stripAlias?_eq text,
    stripOrderDirection?_eq text, import?_eq text state, compose?_eq state,
    validate?_eq config describe text, isIsoDate?_eq text, isIsoDateTime?_eq text⟩

end Soql.Scanner
