import Soql.Proofs.Builder.RoundTrip
import Soql.Validation.Rule

/-!
# The right-hand sides of list operators

The value of a list operator is written as one group in parentheses, with the items of the value
inside. A value that starts with a parenthesis is taken for a group already and written as it is,
so that what is written is a group only if the value is one. In a query in plain names a group is
read back as it was written, and the rule on list operators has nothing to report.
-/

namespace Soql.Builder

open Kind Token Literal

/-- What is written of a list that does not start with a parenthesis. -/
theorem stripOuterParens?_writeList {v : Text} (h : v.trim.head? ≠ some '(') :
    ∃ us : List Text, writeList v = group (Text.join ", ".toList (us.map writeText)) ∧
      stripOuterParens? (writeList v) = some (Text.join ", ".toList (us.map writeText)).trim := by
  have hitems : (splitItems v.trim).map writeValue =
      ((splitItems v.trim).map unquote).map writeText := by
    rw [List.map_map]
    rfl
  refine ⟨(splitItems v.trim).map unquote, ?_, ?_⟩
  · rw [writeList_of_items h, hitems]
  · rw [writeList_of_items h, hitems]
    exact stripOuterParens?_group closed_join_writeText balanced_join_writeText

/-- What is written is one group, unless the value starts with a parenthesis and is none. -/
theorem isGroup_writeList_iff {v : Text} : (stripOuterParens? (writeList v)).isSome = true ↔
    (v.trim.head? = some '(' → (stripOuterParens? v).isSome = true) := by
  by_cases hhead : v.trim.head? = some '('
  · rw [writeList_of_group hhead, stripOuterParens?_trim]
    exact ⟨fun h _ => h, fun h => h hhead⟩
  · obtain ⟨us, -, hstrip⟩ := stripOuterParens?_writeList hhead
    rw [hstrip]
    exact iff_of_true rfl fun h => absurd h hhead

/-- A group is written that reads alone, unless the value starts with a parenthesis and is none. -/
theorem Filter.right_alone {f : Filter} (hop : f.operator.takesList = true)
    (hvalue : f.value.trim.head? = some '(' →
      Closed f.value ∧ (stripOuterParens? f.value).isSome = true) :
    ReadsAlone f.right ∧ (stripOuterParens? f.right).isSome = true := by
  have hright : f.right = writeList f.value := by rw [Filter.right, if_pos hop]
  rw [hright, isGroup_writeList_iff]
  refine ⟨?_, fun hhead => (hvalue hhead).2⟩
  by_cases hhead : f.value.trim.head? = some '('
  · obtain ⟨hclosed, hgroup⟩ := hvalue hhead
    obtain ⟨b, hb⟩ := Option.isSome_iff_exists.1 hgroup
    rw [writeList_of_group hhead]
    exact .of_stripOuterParens? hclosed hb
  · obtain ⟨us, hwrite, -⟩ := stripOuterParens?_writeList hhead
    rw [hwrite]
    exact .group closed_join_writeText balanced_join_writeText

/-- A group is no fault on the right of a list operator. -/
theorem checkList?_of_isGroup {c : Condition} (htrim : c.rawValue.trim = c.rawValue)
    (h : (stripOuterParens? c.rawValue).isSome = true) : Validation.Context.checkList? c = none := by
  obtain ⟨b, hb⟩ := Option.isSome_iff_exists.1 h
  obtain ⟨o, inside, c', htok, ho, -, -, -⟩ := stripOuterParens?_eq_some_iff.1 hb
  have hfirst : (tokenize c.rawValue).head?.any (·.kind.isComparison) = false := by
    rw [← htrim, htok, List.head?_cons, Option.any_some, ho]
    rfl
  have hgroup : (stripOuterParens? c.rawValue).isNone = false := by rw [hb]; rfl
  rw [Validation.Context.checkList?, hfirst, hgroup]
  rfl

namespace State

/-- A state in plain names with one filter, which compares with a list. -/
structure ComparesList (s : State) (f : Filter) : Prop where
  object : PlainName s.object
  selection : ∀ x ∈ s.fields ++ s.lookups, PlainPath x
  subqueries : ∀ q ∈ s.subqueries, q.Plain
  order : ∀ o ∈ s.orderBy, PlainPath o.field
  filters : s.filters = [f]
  field : PlainPath f.field
  operator : f.operator.takesList = true

namespace ComparesList

variable {s : State} {f : Filter} (h : s.ComparesList f)

include h

/-- What is selected is paths and legible subqueries. -/
theorem of_mem_selectionItems {x : Text} (hx : x ∈ s.selectionItems) :
    PlainPath x ∨ ∃ (q : Subquery) (items : List Text), q.Legible items ∧ x = q.write := by
  rw [State.selectionItems, List.mem_append] at hx
  rcases hx with hx | hx
  · obtain ⟨y, hy, rfl⟩ := List.mem_map.1 (List.mem_filter.1 hx).1
    have hpath := h.selection y hy
    exact .inl (by rwa [hpath.piece.tight.trim_eq])
  · obtain ⟨q, hq, rfl⟩ := List.mem_map.1 hx
    obtain ⟨items, -, hlegible⟩ := (h.subqueries q (List.mem_filter.1 hq).1).exists_legible
    exact .inr ⟨q, items, hlegible, rfl⟩

theorem condition_eq : f.condition = ⟨f.field, f.operator, f.right⟩ := by
  rw [Filter.condition, h.field.piece.tight.trim_eq]

/-- The query is read back if the right-hand side is. -/
theorem legible (halone : ReadsAlone f.right) (hne : f.right.trim ≠ []) : s.Legible := by
  refine .of_plainNames h.object
    (fun _ hx => readsBack_of_path_or_subquery (h.of_mem_selectionItems hx)) (fun g hg => ?_) h.order
  rw [h.filters, List.mem_singleton] at hg
  rw [hg, h.condition_eq]
  exact ⟨h.field.piece, h.field.isField, h.field.readsAlone, halone, hne⟩

/-- The only condition of the query is the one that is written. -/
theorem conditions_query (halone : ReadsAlone f.right) (hne : f.right.trim ≠ []) :
    (Query.ofText s.query).conditions = [⟨f.field, f.operator, f.right.trim⟩] := by
  rw [Query.ofText, (h.legible halone hne).conditions_eq, h.filters, List.map_singleton,
    h.condition_eq]

end ComparesList

/-- What is written for a list operator is one group in parentheses, unless the value starts with a
parenthesis and is no group. In a state in plain names that has no other filter, the rule on list
operators finds nothing wrong with such a group. -/
theorem listOperators_query (v : Text) :
    ((stripOuterParens? (writeList v)).isSome = true ↔
      (v.trim.head? = some '(' → (stripOuterParens? v).isSome = true)) ∧
    ∀ (s : State) (f : Filter), s.ComparesList f → f.value = v →
      (v.trim.head? = some '(' → Closed v ∧ (stripOuterParens? v).isSome = true) →
      ∀ (describe : Option Schema.Describe) (config : Validation.Config),
        Validation.Rule.listOperatorRhs.findings ⟨Query.ofText s.query, describe, config⟩ = [] := by
  refine ⟨isGroup_writeList_iff, ?_⟩
  rintro s f h rfl hvalue describe config
  obtain ⟨halone, hgroup⟩ := f.right_alone h.operator hvalue
  have hne : f.right.trim ≠ [] := by
    intro hnil
    rw [← stripOuterParens?_trim, hnil] at hgroup
    revert hgroup
    decide +kernel
  have hcheck : Validation.Context.checkList? ⟨f.field, f.operator, f.right.trim⟩ = none :=
    checkList?_of_isGroup (Text.trim_trim _) (by rwa [stripOuterParens?_trim])
  change ((Query.ofText s.query).conditions.filter (·.operator.takesList)).filterMap
    Validation.Context.checkList? = []
  rw [h.conditions_query halone hne, List.filter_singleton, h.operator, cond_true,
    List.filterMap_cons_none hcheck, List.filterMap_nil]

/-- The ids of the records of an object that satisfy one condition. -/
def ofFilter (object : Text) (f : Filter) : State :=
  { ofObject object with filters := [f] }

section OfFilter

variable {object : Text} (hobject : PlainName object) {f : Filter} (hfield : PlainPath f.field)

include hobject hfield

/-- A filter that compares with a list, as the only one on an object. -/
theorem comparesList_ofFilter (hop : f.operator.takesList = true) :
    (ofFilter object f).ComparesList f where
  object := hobject
  selection := by
    rintro x (_ | ⟨_, ⟨⟩⟩)
    exact plainPath_id
  subqueries := by rintro q ⟨⟩
  order := by rintro o ⟨⟩
  filters := rfl
  field := hfield
  operator := hop

/-- The query of the ids that satisfy one condition. -/
theorem query_ofFilter : (ofFilter object f).query =
    "SELECT Id FROM ".toList ++ object ++ " WHERE ".toList ++ f.write := by
  have hne : ∀ {x : Text}, PlainPath x → x.trim = x ∧ x ≠ [] := by
    intro x hx
    obtain ⟨k, ks, hk, -⟩ := hx.isPath.isWord_head
    exact ⟨hx.piece.tight.trim_eq, ne_nil_of_kindsOf hk⟩
  obtain ⟨htrim, hobject⟩ := hne hobject.plainPath
  have hfilters : writeFilters [f] = f.write := by
    rw [writeFilters, List.filter_singleton, (hne hfield).1,
      List.isEmpty_eq_false_iff.2 (hne hfield).2]
    rfl
  have harguments : (ofFilter object f).arguments = "WHERE ".toList ++ f.write := by
    have hwrite : (writeFilters [f]).isEmpty = false := by
      rw [hfilters, Filter.write_eq, List.isEmpty_eq_false_iff]
      exact Condition.ReadsBack.write_ne_nil _
    have hcount : ∀ keyword, countClause keyword 0 = [] := fun keyword => if_pos rfl
    change Text.join [' '] (conditionClause [f] ++ [] ++ countClause _ 0 ++ countClause _ 0) = _
    rw [hcount, hcount, conditionClause, hwrite, hfilters]
    rfl
  have hitems : (ofFilter object f).selectionItems = ["Id".toList] := by
    change (["Id".toList].map Text.trim).filter (!·.isEmpty) ++ [] = _
    rw [List.map_singleton, (hne plainPath_id).1]
    rfl
  have hselection : (ofFilter object f).selection = "Id".toList := by
    rw [selection_eq, hitems]
    rfl
  have hhead : "SELECT ".toList ++ "Id".toList ++ " FROM ".toList = "SELECT Id FROM ".toList := by
    decide
  have hrest : (if ("WHERE ".toList ++ f.write).isEmpty then [] else
      ' ' :: ("WHERE ".toList ++ f.write)) = " WHERE ".toList ++ f.write :=
    if_neg (by simp)
  have hquery := query_eq (s := ofFilter object f) (show object.trim ≠ [] by rwa [htrim])
  rw [hselection, harguments] at hquery
  rw [hquery, List.append_assoc]
  exact congrArg₂ (· ++ ·) (congrArg₂ (· ++ ·) hhead htrim) hrest

end OfFilter

theorem plainPath_type : PlainPath "Type".toList :=
  PlainName.plainPath (show PlainName "Type".toList by decide +kernel)

/-- A list that is typed with its parentheses, and one with a parenthesis in an item. -/
theorem listOperators_query_accountTypes :
    (stripOuterParens? (writeList "New, (old".toList)).isSome = true ∧
    (ofFilter "Account".toList ⟨"f1".toList, "Type".toList, .isIn, "('New', 5)".toList⟩).ComparesList
      ⟨"f1".toList, "Type".toList, .isIn, "('New', 5)".toList⟩ ∧
    Closed "('New', 5)".toList ∧ (stripOuterParens? "('New', 5)".toList).isSome = true ∧
    Validation.Rule.listOperatorRhs.findings ⟨Query.ofText (ofFilter "Account".toList
      ⟨"f1".toList, "Type".toList, .isIn, "('New', 5)".toList⟩).query, none, .standard⟩ = [] := by
  have hlist := comparesList_ofFilter (f := ⟨"f1".toList, "Type".toList, .isIn, "('New', 5)".toList⟩)
    (show PlainName "Account".toList by decide +kernel)
    plainPath_type rfl
  have hclosed : Closed "('New', 5)".toList := by rw [Closed]; decide +kernel
  have hgroup : (stripOuterParens? "('New', 5)".toList).isSome = true := by decide +kernel
  exact ⟨(listOperators_query _).1.2 fun hhead => absurd hhead (by decide +kernel), hlist, hclosed,
    hgroup, (listOperators_query _).2 _ _ hlist rfl (fun _ => ⟨hclosed, hgroup⟩) none .standard⟩

/-- A value that starts with a parenthesis and does not close it is written as it is. -/
theorem not_isGroup_writeList : ¬ ∀ v : Text, (stripOuterParens? (writeList v)).isSome = true := by
  intro h
  have := h "(Customer".toList
  revert this
  decide +kernel

end State

end Soql.Builder
