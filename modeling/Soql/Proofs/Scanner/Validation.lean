import Soql.Proofs.Scanner.Literal
import Soql.Proofs.Scanner.Query
import Soql.Scanner.Validation

/-!
# Validation never slices out of range

Whatever the text, the describe and the configuration, the rules take items and right-hand sides
apart within their texts, and have the findings that the tokens alone give.
-/

namespace Soql.Scanner

open Validation Token

section Values

/-- The values of a condition are read within its right-hand side. -/
theorem values?_eq (c : Condition) : values? c = some c.values := by
  rw [values?, Condition.values, subqueryBody?_eq, stripOuterParens?_eq]
  simp only [Option.bind_eq_bind, Option.bind_some, ofClause?_eq splitItems?_eq]
  split
  · split <;> rfl
  · rfl

/-- A value is compared with dates by its bytes. -/
theorem checkDate?_eq (name : Text) (type : Schema.FieldType) (value : Text) :
    checkDate? name type value = some (Validation.checkDate? name type value) := by
  rw [checkDate?, Validation.checkDate?, isQuoted?_eq, isIsoDate?_eq, isIsoDateTime?_eq]
  simp only [Option.bind_eq_bind, Option.bind_some]
  split
  · rfl
  · cases type == .dateTime <;> simp

/-- A value is checked against its field without reading outside it. -/
theorem checkValue?_eq (field : Schema.Field) (op : Operator) (value : Text) :
    checkValue? field op value = some (Validation.checkValue? field op value) := by
  rw [checkValue?, checkDate?_eq, trimQuotes?_eq, isQuoted?_eq]
  simp only [Option.bind_eq_bind, Option.bind_some]
  split
  · rfl
  · next h =>
    rw [Bool.or_eq_true, not_or] at h
    rw [Validation.checkValue?]
    simp only [if_neg h.1, if_neg h.2]
    split
    · rfl
    · split
      · rfl
      · split <;> rfl

end Values

section Rules

variable (c : Context)

theorem shapes?_eq : shapes? c = some c.shapes :=
  mapM_eq selectItem?_eq c.query.selectItems

/-- The queries in the selection are slices of their items. -/
theorem subqueries?_eq : subqueries? c = some c.subqueries := by
  rw [subqueries?, mapM_eq subqueryBody?_eq, mapM_eq fun d : Condition => subqueryBody?_eq d.rawValue]
  simp [Context.subqueries, List.filterMap_map]

theorem fieldsMacro?_eq : fieldsMacro? c = some c.fieldsMacro := by
  rw [fieldsMacro?, shapes?_eq]
  rfl

theorem aggregateWithoutGroupBy?_eq :
    aggregateWithoutGroupBy? c = some c.aggregateWithoutGroupBy := by
  rw [aggregateWithoutGroupBy?, shapes?_eq]
  rfl

/-- Columns are compared with the grouping by slices of their items. -/
theorem fieldNotGrouped?_eq : fieldNotGrouped? c = some c.fieldNotGrouped := by
  rw [fieldNotGrouped?, Context.fieldNotGrouped, shapes?_eq]
  split
  · simp only [Option.bind_eq_bind, Option.bind_some, Context.shapes, mapM_eq stripAlias?_eq,
      map_fst_filter_zip SelectItem.isColumn]
  · rfl

theorem isSorted?_eq (body : Text) : isSorted? body =
    some (Phrase.find? (Phrase.ofText "ORDER BY".toList) (tokenize body)).isSome := by
  have hfind := find?_place (Phrase.ofText "ORDER BY".toList) (lies_tokenize body)
  rw [Text.byteSize_nil] at hfind
  rw [isSorted?, located_eq, hfind, isSome_find?]
  simp only [Option.bind_eq_bind, Option.bind_some, isEmpty_place]

/-- An order is looked for within each subquery. -/
theorem orderByInSubquery?_eq : orderByInSubquery? c = some c.orderByInSubquery := by
  rw [orderByInSubquery?, subqueries?_eq]
  simp only [Option.bind_eq_bind, Option.bind_some, mapM_eq isSorted?_eq]
  rw [map_fst_filter_zip fun sorted => sorted]
  rfl

/-- The query in a condition is a slice of its value. -/
theorem semiJoinFindings?_eq (condition : Condition) :
    semiJoinFindings? c condition = some (c.semiJoinFindings condition) := by
  rw [semiJoinFindings?, Context.semiJoinFindings, subqueryBody?_eq]
  simp only [Option.bind_eq_bind, Option.bind_some]
  cases Soql.subqueryBody? condition.rawValue with
  | none => rfl
  | some body =>
    simp only [query?_eq, Option.bind_some]
    generalize Query.ofText body = inner
    rcases hitems : inner.selectItems with _ | ⟨item, _ | ⟨other, items⟩⟩
    · rfl
    · cases c.config.warnIdSemiJoin with
      | false => rfl
      | true =>
        simp only [List.length_singleton, bne_self_eq_false, Bool.false_eq_true, if_false, if_true,
          List.getElem?_cons_zero, Option.bind_some, Bool.true_and]
        split
        · cases c.query.objectName <;> cases inner.objectName <;> rfl
        · rfl
    · rfl

theorem semiJoins?_eq : semiJoins? c = some c.semiJoins := by
  rw [semiJoins?, mapM_eq (semiJoinFindings?_eq c), Context.semiJoins, List.flatMap_def]
  rfl

/-- A list is checked by its first token and its parentheses. -/
theorem checkList?_eq (condition : Condition) :
    checkList? condition = some (Context.checkList? condition) := by
  rw [checkList?, Context.checkList?, located_eq, tokens_place, stripOuterParens?_eq]
  split
  · rfl
  · simp only [Option.bind_eq_bind, Option.bind_some]

theorem listOperators?_eq : listOperators? c = some c.listOperators := by
  rw [listOperators?, mapM_eq checkList?_eq]
  simp [Context.listOperators, List.filterMap_map]

/-- Each value of a condition is checked without reading outside it. -/
theorem valueFindings?_eq (describe : Schema.Describe) (condition : Condition) :
    valueFindings? describe condition = some (Context.valueFindings describe condition) := by
  rw [valueFindings?, Context.valueFindings, selectItem?_eq, values?_eq]
  simp only [Option.bind_eq_bind, Option.bind_some]
  split
  · cases describe.getField? condition.field with
    | none => rfl
    | some field =>
      simp [mapM_eq (checkValue?_eq field condition.operator), List.filterMap_map]
  · rfl

theorem valueTypes?_eq : valueTypes? c = some c.valueTypes := by
  rw [valueTypes?, Context.valueTypes]
  cases c.describe with
  | none => rfl
  | some describe =>
    simp only [mapM_eq (valueFindings?_eq describe), Option.bind_eq_bind, Option.bind_some,
      List.flatMap_def]
    split <;> rfl

end Rules

/-- No rule reads outside a text. -/
theorem findings?_eq (c : Context) (rule : Rule) : findings? c rule = some (rule.findings c) := by
  cases rule with
  | fieldsMacroAlone => exact fieldsMacro?_eq c
  | aggregatesNeedGroupBy => exact aggregateWithoutGroupBy?_eq c
  | groupedFields => exact fieldNotGrouped?_eq c
  | noOrderByInSubquery => exact orderByInSubquery?_eq c
  | semiJoinShape => exact semiJoins?_eq c
  | listOperatorRhs => exact listOperators?_eq c
  | valueTypes => exact valueTypes?_eq c
  | _ => rfl

/-- Every text is validated within its bounds, to the same findings. -/
theorem validate?_eq (config : Config) (describe : Option Schema.Describe) (s : Text) :
    validate? config describe s = some (validate config describe s) := by
  rw [validate?, query?_eq]
  simp only [Option.bind_eq_bind, Option.bind_some, mapM_eq (findings?_eq _)]
  rw [validate, validateQuery, List.flatMap_def]

end Soql.Scanner
