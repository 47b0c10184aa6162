import Soql.Proofs.Literal.FoldCase
import Soql.Proofs.Query.FoldCase
import Soql.Validation.Result

/-!
# Validating a query in any case

No rule sees the ASCII case of a query: on a query in lower case it has the same findings, whose
texts are the old ones in some case. A rule with this property is said to ignore case. The names
that findings take from a describe are not folded, so the findings are compared with all their
texts in lower case. Since every rule ignores case, queries that differ in case only are taken
apart alike and have the same findings up to the case of their texts.
-/

namespace Soql.Validation

open Text

namespace Finding

/-- A finding with the texts that it speaks of in lower case. -/
def foldCase : Finding → Finding
  | .emptySelect => .emptySelect
  | .missingObject => .missingObject
  | .describeUnavailable object => .describeUnavailable (Text.foldCase object)
  | .objectMismatch queryObject describeObject =>
    .objectMismatch (Text.foldCase queryObject) (Text.foldCase describeObject)
  | .fieldsMacroWithFields => .fieldsMacroWithFields
  | .fieldsMacroWithAggregate => .fieldsMacroWithAggregate
  | .emptyOrderBy => .emptyOrderBy
  | .invalidLimit written => .invalidLimit (Text.foldCase written)
  | .invalidOffset written => .invalidOffset (Text.foldCase written)
  | .offsetWithoutLimit => .offsetWithoutLimit
  | .aggregateWithoutGroupBy => .aggregateWithoutGroupBy
  | .fieldNotGrouped field => .fieldNotGrouped (Text.foldCase field)
  | .havingWithoutGroupBy => .havingWithoutGroupBy
  | .orderByInSubquery subquery => .orderByInSubquery (Text.foldCase subquery)
  | .semiJoinFieldCount field count => .semiJoinFieldCount (Text.foldCase field) count
  | .semiJoinSelectsId field subqueryObject outerObject =>
    .semiJoinSelectsId (Text.foldCase field) (Text.foldCase subqueryObject)
      (Text.foldCase outerObject)
  | .listOperatorRequiresList field operator =>
    .listOperatorRequiresList (Text.foldCase field) operator
  | .comparisonAfterListOperator field operator =>
    .comparisonAfterListOperator (Text.foldCase field) operator
  | .booleanValue field value => .booleanValue (Text.foldCase field) (Text.foldCase value)
  | .numericValue field value => .numericValue (Text.foldCase field) (Text.foldCase value)
  | .dateValueQuoted field value => .dateValueQuoted (Text.foldCase field) (Text.foldCase value)
  | .dateValue field value => .dateValue (Text.foldCase field) (Text.foldCase value)
  | .idValue field value => .idValue (Text.foldCase field) (Text.foldCase value)
  | .stringValueUnquoted field operator value =>
    .stringValueUnquoted (Text.foldCase field) operator (Text.foldCase value)
  | .nullEquality field => .nullEquality (Text.foldCase field)

/-- How severe a finding is does not depend on its texts. -/
@[simp] theorem severity_foldCase (f : Finding) : f.foldCase.severity = f.severity := by
  cases f <;> rfl

end Finding

/-- The case of a query is not seen by a rule, but for the texts of its findings. -/
def IgnoresCase (rule : Context → List Finding) : Prop :=
  ∀ c : Context, (rule { c with query := c.query.map foldCase }).map Finding.foldCase =
    (rule c).map Finding.foldCase

section Lists

variable {α : Type} {g : α → α}

theorem filter_map_of_invariant {p : α → Bool} (hp : ∀ x, p (g x) = p x) (xs : List α) :
    (xs.map g).filter p = (xs.filter p).map g := by
  rw [List.filter_map, show p ∘ g = p from funext hp]

/-- Folding the texts of conditions keeps their operators. -/
theorem filter_operator_map (p : Operator → Bool) (conditions : List Condition) :
    ((conditions.map (Condition.map foldCase)).filter fun d => p d.operator) =
      (conditions.filter fun d => p d.operator).map (Condition.map foldCase) :=
  filter_map_of_invariant (g := Condition.map foldCase) (p := fun d => p d.operator)
    (fun _ => rfl) conditions

/-- A check that ignores case finds the same of each folded element. -/
theorem findings_filterMap {check : α → Option Finding}
    (h : ∀ x, (check (g x)).map Finding.foldCase = (check x).map Finding.foldCase) (xs : List α) :
    ((xs.map g).filterMap check).map Finding.foldCase =
      (xs.filterMap check).map Finding.foldCase := by
  rw [List.filterMap_map, List.map_filterMap, List.map_filterMap]
  exact congrArg (List.filterMap · xs) (funext h)

/-- So does a check with several findings. -/
theorem findings_flatMap {check check' : α → List Finding}
    (h : ∀ x, (check' (g x)).map Finding.foldCase = (check x).map Finding.foldCase) (xs : List α) :
    ((xs.map g).flatMap check').map Finding.foldCase = (xs.flatMap check).map Finding.foldCase := by
  rw [List.flatMap_map, List.map_flatMap, List.map_flatMap]
  exact congrArg (List.flatMap · xs) (funext h)

end Lists

section Values

theorem checkDate?_foldCase (name : Text) (type : Schema.FieldType) (value : Text) :
    (checkDate? name type (foldCase value)).map Finding.foldCase =
      (checkDate? name type value).map Finding.foldCase := by
  rw [checkDate?, Literal.isQuoted_foldCase, Date.isLiteral_foldCase, Date.isIsoDate_foldCase,
    Date.isIsoDateTime_foldCase, checkDate?]
  split_ifs <;> simp [Finding.foldCase]

/-- A value fits its field in any case. -/
theorem checkValue?_foldCase (field : Schema.Field) (op : Operator) (value : Text) :
    (checkValue? field op (foldCase value)).map Finding.foldCase =
      (checkValue? field op value).map Finding.foldCase := by
  simp only [checkValue?, Literal.isBoolean_foldCase, Literal.isNumeric_foldCase,
    Literal.trimQuotes_foldCase, Literal.isRecordId_foldCase, Literal.isQuoted_foldCase]
  split_ifs <;> first
    | exact checkDate?_foldCase field.name field.fieldType value
    | simp [Finding.foldCase]

/-- The values of a folded condition are the folded values. -/
theorem values_foldCase (c : Condition) :
    (c.map foldCase).values = c.values.map foldCase := by
  simp only [Condition.values, Condition.map, subqueryBody?_foldCase, Option.isSome_map,
    stripOuterParens?_foldCase, trim_foldCase]
  split_ifs
  · rfl
  · cases stripOuterParens? c.rawValue with
    | none => rfl
    | some items => exact splitItems_foldCase items
  · rfl

end Values

namespace Context

theorem shapes_map (c : Context) :
    shapes { c with query := c.query.map foldCase } = c.shapes := by
  simp only [shapes, Query.map, List.map_map]
  exact congrArg (List.map · _) (funext SelectItem.ofText_foldCase)

/-- The subqueries of a folded query are the folded subqueries. -/
theorem subqueries_map (c : Context) :
    subqueries { c with query := c.query.map foldCase } = c.subqueries.map foldCase := by
  have hbody : subqueryBody? ∘ foldCase = Option.map foldCase ∘ subqueryBody? :=
    funext subqueryBody?_foldCase
  have hvalue : (fun d : Condition => subqueryBody? d.rawValue) ∘ Condition.map foldCase =
      Option.map foldCase ∘ fun d => subqueryBody? d.rawValue :=
    funext fun d => subqueryBody?_foldCase d.rawValue
  simp only [subqueries, Query.map, List.map_append]
  rw [filter_operator_map Operator.takesList, List.filterMap_map, List.filterMap_map, hbody, hvalue,
    List.map_filterMap, List.map_filterMap]
  rfl

theorem ignoresCase_emptySelect : IgnoresCase emptySelect := by
  intro c
  simp [emptySelect, Query.map]

theorem ignoresCase_missingObject : IgnoresCase missingObject := by
  intro c
  simp [missingObject, Query.map]

theorem ignoresCase_describeUnavailable : IgnoresCase describeUnavailable := by
  rintro ⟨query, describe, config⟩
  cases hobject : query.objectName <;> cases describe <;>
    simp [describeUnavailable, Query.map, hobject]
  split <;> simp [Finding.foldCase]

/-- Objects are compared without regard to case. -/
theorem ignoresCase_objectMismatch : IgnoresCase objectMismatch := by
  rintro ⟨query, describe, config⟩
  cases hobject : query.objectName <;> cases describe <;>
    simp [objectMismatch, Query.map, hobject]
  split <;> simp [Finding.foldCase]

theorem ignoresCase_fieldsMacro : IgnoresCase fieldsMacro := by
  intro c
  rw [fieldsMacro, shapes_map, fieldsMacro]

theorem ignoresCase_emptyOrderBy : IgnoresCase emptyOrderBy := by
  intro c
  simp [emptyOrderBy, Query.map]

/-- A count that is no number is reported in either case. -/
theorem invalidCount_foldCase (finding : Text → Finding)
    (h : ∀ s, (finding (foldCase s)).foldCase = (finding s).foldCase) (raw : Option Text)
    (count : Option Nat) : (invalidCount finding (raw.map foldCase) count).map Finding.foldCase =
      (invalidCount finding raw count).map Finding.foldCase := by
  cases raw <;> cases count <;> simp [invalidCount, h]

/-- Both counts of a page are compared as numbers. -/
theorem ignoresCase_paging : IgnoresCase paging := by
  intro c
  simp only [paging, Query.map, List.map_append, Option.isSome_map, Option.isNone_map]
  rw [invalidCount_foldCase .invalidLimit (by simp [Finding.foldCase]),
    invalidCount_foldCase .invalidOffset (by simp [Finding.foldCase])]

theorem ignoresCase_aggregateWithoutGroupBy : IgnoresCase aggregateWithoutGroupBy := by
  intro c
  rw [aggregateWithoutGroupBy, shapes_map, aggregateWithoutGroupBy]
  rfl

/-- Columns are compared with the grouping without regard to case. -/
theorem ignoresCase_fieldNotGrouped : IgnoresCase fieldNotGrouped := by
  intro c
  have hcolumn (item : Text) : (SelectItem.ofText (foldCase item)).isColumn =
      (SelectItem.ofText item).isColumn := by
    rw [SelectItem.ofText_foldCase]
  have hgrouped (field : Text) :
      ((c.query.groupItems.map foldCase).any fun item => eqIgnoreCase item (foldCase field)) =
        c.query.groupItems.any fun item => eqIgnoreCase item field := by
    simp only [List.any_map, Function.comp_def, eqIgnoreCase_foldCase_left,
      eqIgnoreCase_foldCase_right]
  have hstrip : stripAlias ∘ foldCase = foldCase ∘ stripAlias := funext stripAlias_foldCase
  have hcolumns := filter_map_of_invariant (g := foldCase)
    (p := fun item => (SelectItem.ofText item).isColumn) hcolumn c.query.selectItems
  simp only [fieldNotGrouped, Query.map]
  by_cases hgroup : c.query.hasGroupBy = true
  · simp only [hgroup, if_true, hcolumns, List.map_map, hstrip]
    simp only [List.filter_map, Function.comp_def, hgrouped]
    simp [Finding.foldCase]
  · simp [hgroup]

theorem ignoresCase_havingWithoutGroupBy : IgnoresCase havingWithoutGroupBy :=
  fun _ => rfl

theorem ignoresCase_orderByInSubquery : IgnoresCase orderByInSubquery := by
  intro c
  have hparen : '('.toLower = '(' ∧ ')'.toLower = ')' := by decide
  rw [orderByInSubquery, subqueries_map, filter_map_of_invariant, orderByInSubquery]
  · simp [Finding.foldCase, hparen]
  · intro body
    rw [tokenize_foldCase, Phrase.find?_foldCase, Option.isSome_map]

/-- The findings on one subquery are those on its folded text, folded. -/
theorem semiJoinFindings_foldCase (c : Context) (condition : Condition) :
    (semiJoinFindings { c with query := c.query.map foldCase }
      (condition.map foldCase)).map Finding.foldCase =
        (c.semiJoinFindings condition).map Finding.foldCase := by
  simp only [semiJoinFindings, Condition.map, Query.map, subqueryBody?_foldCase]
  cases subqueryBody? condition.rawValue with
  | none => rfl
  | some body =>
    simp only [Option.map_some, Query.ofText_foldCase, Query.map]
    rcases (Query.ofText body).selectItems with _ | ⟨item, _ | ⟨next, items⟩⟩
    · simp [Finding.foldCase]
    · simp only [List.map_cons, List.map_nil, eqIgnoreCase_foldCase_left]
      split
      · cases c.query.objectName with
        | none => rfl
        | some outer =>
          cases (Query.ofText body).objectName with
          | none => rfl
          | some object =>
            simp only [Option.map_some, eqIgnoreCase_foldCase_left, eqIgnoreCase_foldCase_right]
            split <;> simp [Finding.foldCase]
      · rfl
    · simp [Finding.foldCase]

/-- A subquery in a condition is read in any case. -/
theorem ignoresCase_semiJoins : IgnoresCase semiJoins := by
  intro c
  have hconditions := filter_operator_map Operator.isMembership c.query.conditions
  simp only [semiJoins, Query.map, hconditions]
  exact findings_flatMap (semiJoinFindings_foldCase c) _

/-- Whether a list is missing does not depend on case. -/
theorem checkList?_foldCase (condition : Condition) :
    (checkList? (condition.map foldCase)).map Finding.foldCase =
      (checkList? condition).map Finding.foldCase := by
  have hhead : ((tokenize condition.rawValue).map Token.foldCase).head?.any
      (·.kind.isComparison) = (tokenize condition.rawValue).head?.any (·.kind.isComparison) := by
    cases tokenize condition.rawValue <;> rfl
  simp only [checkList?, Condition.map, tokenize_foldCase, hhead, stripOuterParens?_foldCase,
    Option.isNone_map]
  split_ifs <;> simp [Finding.foldCase]

theorem ignoresCase_listOperators : IgnoresCase listOperators := by
  intro c
  have hconditions := filter_operator_map Operator.takesList c.query.conditions
  simp only [listOperators, Query.map, hconditions]
  exact findings_filterMap checkList?_foldCase _

/-- The findings on one condition are those on the folded one, folded. -/
theorem valueFindings_foldCase (describe : Schema.Describe) (condition : Condition) :
    (valueFindings describe (condition.map foldCase)).map Finding.foldCase =
      (valueFindings describe condition).map Finding.foldCase := by
  have hfield : describe.getField? (foldCase condition.field) =
      describe.getField? condition.field := by
    simp only [Schema.Describe.getField?, Schema.NameMap.get?, lowercase_foldCase]
  simp only [valueFindings, values_foldCase]
  simp only [Condition.map, SelectItem.ofText_foldCase, hfield]
  split
  · cases describe.getField? condition.field with
    | none => rfl
    | some field =>
      simp only
      rw [filter_map_of_invariant]
      · exact findings_filterMap (checkValue?_foldCase field condition.operator) _
      · intro value
        rw [Literal.isNull_foldCase, Literal.isBindVariable_foldCase]
  · rfl

/-- Fields are looked up without regard to case, and values are checked in any case. -/
theorem ignoresCase_valueTypes : IgnoresCase valueTypes := by
  rintro ⟨query, describe, config⟩
  cases describe with
  | none => rfl
  | some describe =>
    simp only [valueTypes, Query.map]
    split
    · exact findings_flatMap (valueFindings_foldCase describe) _
    · rfl

theorem ignoresCase_nullEquality : IgnoresCase nullEquality := by
  intro c
  simp only [nullEquality, Query.map]
  rw [filter_map_of_invariant]
  · simp [Finding.foldCase, Condition.map]
  · intro condition
    simp only [Condition.map, Literal.isNull_foldCase]

end Context

/-- No rule depends on letter case. -/
theorem Rule.ignoresCase (r : Rule) : IgnoresCase r.findings := by
  cases r with
  | selectNotEmpty => exact Context.ignoresCase_emptySelect
  | objectPresent => exact Context.ignoresCase_missingObject
  | describeAvailable => exact Context.ignoresCase_describeUnavailable
  | describeMatchesObject => exact Context.ignoresCase_objectMismatch
  | fieldsMacroAlone => exact Context.ignoresCase_fieldsMacro
  | orderByHasFields => exact Context.ignoresCase_emptyOrderBy
  | limitAndOffset => exact Context.ignoresCase_paging
  | aggregatesNeedGroupBy => exact Context.ignoresCase_aggregateWithoutGroupBy
  | groupedFields => exact Context.ignoresCase_fieldNotGrouped
  | havingNeedsGroupBy => exact Context.ignoresCase_havingWithoutGroupBy
  | noOrderByInSubquery => exact Context.ignoresCase_orderByInSubquery
  | semiJoinShape => exact Context.ignoresCase_semiJoins
  | listOperatorRhs => exact Context.ignoresCase_listOperators
  | valueTypes => exact Context.ignoresCase_valueTypes
  | nullEquality => exact Context.ignoresCase_nullEquality

/-- The findings on a query, up to case, are those on the query in lower case. -/
theorem findings_validate_foldCase (config : Config) (describe : Option Schema.Describe) (s : Text) :
    (validate config describe (foldCase s)).findings.map Finding.foldCase =
      (validate config describe s).findings.map Finding.foldCase := by
  simp only [validate, validateQuery, Query.ofText_foldCase, List.map_flatMap]
  exact congrArg (List.flatMap · Rule.all)
    (funext fun r => r.ignoresCase { query := Query.ofText s, describe, config })

/-- Queries that differ in the case of ASCII letters only have the same clauses and the same
findings, with texts that differ in case only. -/
theorem validate_of_eqIgnoreCase {q q' : Text} (h : eqIgnoreCase q q' = true) (config : Config)
    (describe : Option Schema.Describe) :
    Query.Similar (fun s t => eqIgnoreCase s t = true) (Query.ofText q) (Query.ofText q') ∧
    (validate config describe q).findings.map Finding.foldCase =
      (validate config describe q').findings.map Finding.foldCase ∧
    (validate config describe q).findings.map Finding.severity =
      (validate config describe q').findings.map Finding.severity ∧
    (validate config describe q).ok = (validate config describe q').ok := by
  have hfindings : (validate config describe q).findings.map Finding.foldCase =
      (validate config describe q').findings.map Finding.foldCase := by
    rw [← findings_validate_foldCase, eqIgnoreCase_iff.1 h, findings_validate_foldCase]
  refine ⟨Query.similar_of_eqIgnoreCase h, hfindings, ?_, ?_⟩
  · have hseverity : Finding.severity ∘ Finding.foldCase = Finding.severity :=
      funext Finding.severity_foldCase
    have := congrArg (List.map Finding.severity) hfindings
    rwa [List.map_map, List.map_map, hseverity] at this
  · have := congrArg List.isEmpty hfindings
    simpa [Result.ok] using this

/-- Two spellings of a query whose limit is no number. -/
theorem validate_of_eqIgnoreCase_limitTen :
    eqIgnoreCase "SELECT Id FROM Contact LIMIT ten".toList
      "select ID from CONTACT limit TEN".toList = true ∧
    (validate .standard none "select ID from CONTACT limit TEN".toList).findings.map
      Finding.foldCase = [.describeUnavailable "contact".toList, .invalidLimit "ten".toList] :=
  ⟨by decide, (validate_of_eqIgnoreCase (q := "SELECT Id FROM Contact LIMIT ten".toList)
    (by decide) .standard none).2.1.symm.trans (by decide +kernel)⟩

end Soql.Validation
