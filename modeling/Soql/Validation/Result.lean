import Soql.Validation.Rule

/-!
# Validating a query

Validation runs every rule over the clauses of a query. It accepts every text; a query is valid
when no rule has a finding, and warnings count as findings.
-/

namespace Soql.Validation

/-- The findings on a query, in the order of the rules. -/
structure Result where
  query : Query
  findings : List Finding
  deriving DecidableEq

namespace Result

/-- No rule has a finding. -/
def ok (r : Result) : Bool :=
  r.findings.isEmpty

/-- One message per finding. -/
def messages (r : Result) : List Text :=
  r.findings.map Finding.message

/-- The findings of a severity. -/
def ofSeverity (r : Result) (severity : Severity) : List Finding :=
  r.findings.filter (·.severity == severity)

end Result

/-- Validates the clauses of a query. -/
def validateQuery (config : Config) (describe : Option Schema.Describe) (query : Query) : Result :=
  { query, findings := Rule.all.flatMap (·.findings { query, describe, config }) }

/-- Validates a query text. -/
def validate (config : Config) (describe : Option Schema.Describe) (s : Text) : Result :=
  validateQuery config describe (Query.ofText s)

end Soql.Validation
