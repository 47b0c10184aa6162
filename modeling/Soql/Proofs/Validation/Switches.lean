import Mathlib.Data.List.Basic
import Soql.Validation.Result

/-!
# Switches only filter findings

A configuration takes part in three rules, each of which looks at one switch for one family of
findings. With all switches on a rule has every finding that it can have, and a configuration takes
out the families that are switched off (`Config.reports`); the others stay, in their order. A rule
with this property is said to be filtered. Since every rule is, so is a whole validation.
-/

namespace Soql.Validation

/-- A finding is reported unless it belongs to a family whose switch is off. -/
def Config.reports (config : Config) : Finding → Bool
  | .describeUnavailable _ => config.requireDescribe
  | .booleanValue .. | .numericValue .. | .dateValueQuoted .. | .dateValue .. | .idValue ..
  | .stringValueUnquoted .. => config.checkValueTypes
  | .semiJoinSelectsId .. => config.warnIdSemiJoin
  | _ => true

/-- Every configuration reports the finding. -/
def Finding.Unswitched (f : Finding) : Prop :=
  ∀ config : Config, config.reports f = true

/-- The findings of a rule are those with all switches on, less those that the configuration does
not report. -/
def Filtered (rule : Context → List Finding) : Prop :=
  ∀ c : Context, rule c = (rule { c with config := .standard }).filter c.config.reports

/-- A rule is filtered if it does not look at the configuration and finds nothing that has a
switch. -/
theorem filtered_of_unswitched {rule : Context → List Finding}
    (hconfig : ∀ c, rule { c with config := .standard } = rule c)
    (hfindings : ∀ c, ∀ f ∈ rule c, f.Unswitched) : Filtered rule := by
  intro c
  rw [hconfig, List.filter_eq_self.2]
  exact fun f hf => hfindings c f hf c.config

/-- Findings of one family stay all together or go all together. -/
theorem filter_reports_of_switch {config : Config} {on : Bool} {fs : List Finding}
    (h : ∀ f ∈ fs, config.reports f = on) : fs.filter config.reports = if on then fs else [] := by
  rw [List.filter_congr h]
  cases on
  · rw [if_neg Bool.false_ne_true, List.filter_false]
  · rw [if_pos rfl, List.filter_true]

section Members

variable {c : Context} {f : Finding}

/-- A rule with one finding for each of some items. -/
theorem unswitched_of_mem_map {α : Type} {finding : α → Finding}
    (hfinding : ∀ x, (finding x).Unswitched) {xs : List α} (hf : f ∈ xs.map finding) :
    f.Unswitched := by
  obtain ⟨x, -, rfl⟩ := List.mem_map.1 hf
  exact hfinding x

/-- A rule with one possible finding. -/
theorem unswitched_of_mem_ite {p : Prop} [Decidable p] {g : Finding} (hg : g.Unswitched)
    (hf : f ∈ if p then [g] else []) : f.Unswitched := by
  rw [List.mem_ite_nil_right, List.mem_singleton] at hf
  exact hf.2 ▸ hg

/-- Counts are reported whatever the configuration. -/
theorem unswitched_of_mem_invalidCount {finding : Text → Finding}
    (hfinding : ∀ s, (finding s).Unswitched) {raw : Option Text} {count : Option Nat}
    (hf : f ∈ Context.invalidCount finding raw count) : f.Unswitched := by
  unfold Context.invalidCount at hf
  split at hf
  · rw [List.mem_singleton] at hf
    exact hf ▸ hfinding _
  · cases hf

theorem unswitched_of_mem_objectMismatch (hf : f ∈ c.objectMismatch) : f.Unswitched := by
  unfold Context.objectMismatch at hf
  split at hf
  · exact unswitched_of_mem_ite (fun _ => rfl) hf
  · cases hf

theorem unswitched_of_mem_fieldsMacro (hf : f ∈ c.fieldsMacro) : f.Unswitched := by
  simp only [Context.fieldsMacro, List.mem_ite_nil_right, List.mem_append, List.mem_singleton] at hf
  obtain ⟨-, ⟨-, rfl⟩ | ⟨-, rfl⟩⟩ := hf <;> exact fun _ => rfl

/-- The findings on the counts of a page are in no configuration left out. -/
theorem unswitched_of_mem_paging (hf : f ∈ c.paging) : f.Unswitched := by
  simp only [Context.paging, List.mem_append, List.mem_ite_nil_right, List.mem_singleton] at hf
  rcases hf with (hf | hf) | ⟨-, rfl⟩
  · exact unswitched_of_mem_invalidCount (fun _ _ => rfl) hf
  · exact unswitched_of_mem_invalidCount (fun _ _ => rfl) hf
  · exact fun _ => rfl

theorem unswitched_of_mem_fieldNotGrouped (hf : f ∈ c.fieldNotGrouped) : f.Unswitched := by
  rw [Context.fieldNotGrouped, List.mem_ite_nil_right] at hf
  exact unswitched_of_mem_map (fun _ _ => rfl) hf.2

theorem unswitched_of_mem_listOperators (hf : f ∈ c.listOperators) : f.Unswitched := by
  obtain ⟨condition, -, hcheck⟩ := List.mem_filterMap.1 hf
  unfold Context.checkList? at hcheck
  split_ifs at hcheck <;> cases hcheck <;> exact fun _ => rfl

/-- What is wrong with a value is reported exactly if values are compared with types. -/
theorem reports_of_checkValue? {field : Schema.Field} {op : Operator} {value : Text}
    (hf : checkValue? field op value = some f) (config : Config) :
    config.reports f = config.checkValueTypes := by
  simp only [checkValue?, checkDate?] at hf
  split_ifs at hf <;> cases hf <;> rfl

/-- The findings on values are reported if values are checked. -/
theorem reports_of_mem_valueFindings {describe : Schema.Describe} {condition : Condition}
    (hf : f ∈ Context.valueFindings describe condition) (config : Config) :
    config.reports f = config.checkValueTypes := by
  unfold Context.valueFindings at hf
  split at hf
  · split at hf
    · obtain ⟨value, -, hvalue⟩ := List.mem_filterMap.1 hf
      exact reports_of_checkValue? hvalue config
    · cases hf
  · cases hf

end Members

namespace Context

/-- A missing description is reported as configured. -/
theorem filtered_describeUnavailable : Filtered describeUnavailable := by
  rintro ⟨query, describe, config⟩
  simp only [describeUnavailable, Config.standard, if_true]
  split
  · next object _ => exact (filter_reports_of_switch (by simp [Config.reports])).symm
  · rfl

/-- The fields of a subquery are counted whatever the switch is; only the warning depends on it. -/
theorem semiJoinFindings_eq_filter (c : Context) (condition : Condition) :
    c.semiJoinFindings condition =
      (semiJoinFindings { c with config := .standard } condition).filter c.config.reports := by
  obtain ⟨query, describe, config⟩ := c
  simp only [semiJoinFindings, Config.standard, Bool.true_and]
  split
  · rfl
  · split
    · refine Eq.trans ?_ (filter_reports_of_switch fun f hf =>
        (?_ : config.reports f = config.warnIdSemiJoin)).symm
      · cases config.warnIdSemiJoin <;> rfl
      · split at hf
        · split at hf
          · rw [List.mem_ite_nil_left, List.mem_singleton] at hf
            exact hf.2 ▸ rfl
          · cases hf
        · cases hf
    · rfl

/-- The findings on semi-joins are reported as configured. -/
theorem filtered_semiJoins : Filtered semiJoins := by
  intro c
  simp only [semiJoins, List.filter_flatMap, ← semiJoinFindings_eq_filter]

/-- The findings on values are left out together. -/
theorem filtered_valueTypes : Filtered valueTypes := by
  rintro ⟨query, describe, config⟩
  cases describe with
  | none => rfl
  | some describe =>
    have hreports : ∀ f ∈ query.conditions.flatMap (valueFindings describe),
        config.reports f = config.checkValueTypes := by
      intro f hf
      obtain ⟨condition, -, hf⟩ := List.mem_flatMap.1 hf
      exact reports_of_mem_valueFindings hf config
    exact (filter_reports_of_switch hreports).symm

end Context

/-- Every rule is filtered. -/
theorem Rule.filtered (rule : Rule) : Filtered rule.findings := by
  cases rule with
  | describeAvailable => exact Context.filtered_describeUnavailable
  | semiJoinShape => exact Context.filtered_semiJoins
  | valueTypes => exact Context.filtered_valueTypes
  | describeMatchesObject =>
    exact filtered_of_unswitched (fun _ => rfl) fun _ _ => unswitched_of_mem_objectMismatch
  | fieldsMacroAlone =>
    exact filtered_of_unswitched (fun _ => rfl) fun _ _ => unswitched_of_mem_fieldsMacro
  | limitAndOffset =>
    exact filtered_of_unswitched (fun _ => rfl) fun _ _ => unswitched_of_mem_paging
  | groupedFields =>
    exact filtered_of_unswitched (fun _ => rfl) fun _ _ => unswitched_of_mem_fieldNotGrouped
  | listOperatorRhs =>
    exact filtered_of_unswitched (fun _ => rfl) fun _ _ => unswitched_of_mem_listOperators
  | noOrderByInSubquery | nullEquality =>
    exact filtered_of_unswitched (fun _ => rfl) fun c f => unswitched_of_mem_map fun _ _ => rfl
  | selectNotEmpty | objectPresent | orderByHasFields | aggregatesNeedGroupBy
  | havingNeedsGroupBy =>
    -- these rules have at most one finding, a fixed one
    exact filtered_of_unswitched (fun _ => rfl) fun c f => unswitched_of_mem_ite (fun _ => rfl)

/-- Validation under a configuration has the findings of a validation with all switches on, less
those that the configuration does not report. -/
theorem findings_validateQuery (config : Config) (describe : Option Schema.Describe)
    (query : Query) : (validateQuery config describe query).findings =
      (validateQuery .standard describe query).findings.filter config.reports := by
  simp only [validateQuery, List.filter_flatMap]
  have hrule := fun rule : Rule => rule.filtered ⟨query, describe, config⟩
  exact congrArg (List.flatMap · Rule.all) (funext hrule)

end Soql.Validation
