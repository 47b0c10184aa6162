import Soql.Proofs.Builder.Stability

/-!
# What a lossless report says

A report without losses is about what a state has a place for. Object, conditions and the field to
sort by are those of the text again when the state is written. A grouping and a condition on groups
have no place and are not reported, and neither is an order without a field; so a lossless report
does not say that the query that is written has the clauses of the text.
-/

namespace Soql

open Kind Token

/-- Two queries have the same object, the same clauses apart from paging, and compare the same
fields by the same operators. -/
structure Query.SameStructure (p q : Query) : Prop where
  objectName : p.objectName = q.objectName
  hasGroupBy : p.hasGroupBy = q.hasGroupBy
  hasHaving : p.hasHaving = q.hasHaving
  hasOrderBy : p.hasOrderBy = q.hasOrderBy
  orderItems : p.orderItems = q.orderItems
  comparisons : p.conditions.map (fun c => (c.field, c.operator)) =
    q.conditions.map fun c => (c.field, c.operator)

namespace Builder.State

section Imported

variable {ts : List Token} (h : Stretch ts) (hbal : Balanced (kinds ts)) {previous : State}
  {object : Text}

include h

/-- Filters compare the fields of the conditions by their operators. -/
theorem comparisons_import : (stateOf previous object ts).filters.map
    (fun f => (f.condition.field, f.operator)) =
      (Query.ofTokens ts).conditions.map fun c => (c.field, c.operator) := by
  rw [conditions_ofTokens]
  refine map_numbered (g := fun c n => Filter.ofCondition n c) fun c hc n => ?_
  rw [← conditions_ofTokens] at hc
  have htrim := (Condition.read_of_mem h hc).field.tight.trim_eq
  exact congrArg (·, c.operator) htrim

omit h in
/-- One item to sort by is kept, unless nothing is left of it without its direction. -/
theorem orderItems_import (hdropped : (orderItems ts).drop 1 = []) :
    (((stateOf previous object ts).orderBy.filter (!·.field.isEmpty)).map OrderBy.field).toList =
      (Query.ofTokens ts).orderItems := by
  rw [orderItems_ofTokens]
  change (Option.map _ (Option.filter _ ((orderItems ts).head?.map OrderBy.ofItem))).toList = _
  match orderItems ts, hdropped with
  | [], _ => rfl
  | [item], _ =>
    have hfield : (OrderBy.ofItem item).field = stripOrderDirection item := rfl
    rw [List.head?_cons, Option.map_some, Option.filter_some, hfield, List.map_singleton,
      List.filter_singleton]
    cases (stripOrderDirection item).isEmpty <;> rfl

variable {f : List Kind → Bool} (hnear : Near f) (hclear : Clear f 0 (kinds ts) [])

include hnear hclear

omit hnear in
/-- What is nowhere in the text is nowhere in the items of a clause. -/
theorem exists_clear_of_mem_body {c : Clause} {body x : Text} (hbody : c.body? ts = some body)
    (hx : x ∈ splitItems body) : ∃ rest, Clear f 0 (kindsOf x) rest := by
  have hsep : Kind.isComma .openParen = false := rfl
  rw [splitItems_eq] at hx
  obtain ⟨_, hclear'⟩ := Clause.exists_clear_body? h hbody hclear
  exact exists_clear_of_mem_splitParts hsep (Clause.of_body? h hbody).1 hx hclear'

/-- A search that finds nothing in the text passes the object of the query. -/
theorem passes_object (hname : Token.objectName? ts = some object) : Passes f (kindsOf object) := by
  obtain ⟨before, from', t, rest, rfl, -, htop, hfrom, hword, rfl⟩ :=
    (objectName?_eq_some_iff h).1 hname
  obtain ⟨c, s, text, start, part, kind⟩ := (h.shape (t := t) (by simp)).of_isWord hword
  have hkinds : kindsOf t.text = [t.kind] := by
    rw [kind, kindsOf, text, tokenize_word start part]
    rfl
  have htop' : depth 0 (kinds before ++ [from'.kind]) = 0 := by
    rw [depth_append, htop, hfrom]
    rfl
  have hsplit : kinds (before ++ from' :: t :: rest) =
      (kinds before ++ [from'.kind]) ++ ([t.kind] ++ kinds rest) := by simp
  rw [hsplit] at hclear
  obtain ⟨_, hobject⟩ := hclear.exists_of_append htop'
  rw [hkinds]
  refine passes_of_clear hnear ?_ hobject
  cases hk : t.kind <;> first | rfl | (rw [hk] at hword; cases hword)

include hbal

theorem passes_selectItem {x : Text} (hx : x ∈ (Query.ofTokens ts).selectItems) :
    Passes f (kindsOf x) := by
  obtain ⟨body, hbody, hitem⟩ := exists_body_of_mem_selectItems hx
  obtain ⟨_, hclear'⟩ := exists_clear_of_mem_body h hclear hbody hitem
  exact passes_of_clear hnear (depth_of_level? (itemReadsBack_of_mem h hbal hx).balanced) hclear'

/-- It passes what is selected, also where subqueries are written again. -/
theorem passes_selectionItem (hf : Search f) {x : Text}
    (hx : x ∈ (stateOf previous object ts).selectionItems) : Passes f (kindsOf x) :=
  (sorted_import h hbal).forall_selectionItems
    (fun _ hx _ => passes_selectItem h hbal hnear hclear (mem_selectItems_of_mem hx))
    (fun _ _ hlegible => hlegible.passes_write hf) x hx

/-- It passes the field to sort by. -/
theorem passes_orderField {o : OrderBy} (ho : o ∈ (stateOf previous object ts).orderBy) :
    Passes f (kindsOf o.field) := by
  rcases order_import h hbal ho with hnil | hlegible
  · rw [hnil, kindsOf_nil]
    exact passes_nil
  · obtain ⟨body, hbody, item, hitem, rfl⟩ := exists_body_of_mem_orderBy ho
    obtain ⟨_, hclear'⟩ := exists_clear_of_mem_body h hclear hbody hitem
    rw [splitItems_eq] at hitem
    have hsep : Kind.isComma .openParen = false := rfl
    have hitem_stretch := (Clause.part_of_mem hsep h hbody hitem).1.piece.stretch
    obtain ⟨as, bs, htok, -, -, hstrip⟩ := exists_stripOrderDirection item
    rw [htok] at hitem_stretch
    have has : Stretch as := hitem_stretch.left
    rw [kindsOf, htok, kinds_append, clear_append_iff] at hclear'
    obtain ⟨_, hfield⟩ := has.exists_clear_trimmed hclear'.1
    have hkinds : kindsOf (OrderBy.ofItem item).field = kinds (trimmed as) := by
      rw [show (OrderBy.ofItem item).field = (render as).trim from hstrip, kindsOf,
        has.tokenize_trim]
    have htop := depth_of_level? hlegible.balanced
    rw [hkinds] at htop ⊢
    exact passes_of_clear hnear htop hfield

end Imported

/-- The query that is written again neither groups nor restricts groups if the text does not. -/
theorem clear_grouping_import {ts : List Token} (h : Stretch ts) (hbal : Balanced (kinds ts))
    {previous : State} {object : Text} (hname : Token.objectName? ts = some object)
    (hlegible : (stateOf previous object ts).Legible) {words : List Keyword}
    (hw : words ∈ groupingPhrases) (hclear : Clear (Phrase.leadsKinds words) 0 (kinds ts) []) :
    Clear (Phrase.leadsKinds words) 0 (kindsOf (stateOf previous object ts).query) [] := by
  have hnear := near_grouping hw
  exact (hlegible.passes_grouping hw
    (fun x hx => passes_selectionItem h hbal hnear hclear (search_grouping hw) hx)
    (passes_object h hnear hclear hname)
    fun o ho => passes_orderField h hbal hnear hclear ho).clear rfl

/-- A legible query has an order exactly if it has a field to sort by. -/
theorem Legible.hasOrderBy_eq {s : State} (h : s.Legible) : (Query.ofText s.query).hasOrderBy =
    !(Query.ofText s.query).orderItems.isEmpty := by
  change (Clause.ordering.body? (tokenize s.query)).isSome = _
  rw [h.ordering_body?, Query.ofText, h.sortedFields_eq]
  cases s.orderBy.filter (!·.field.isEmpty) <;> rfl

theorem orderItems_eq_nil {q : Text} (h : (Query.ofText q).hasOrderBy = false) :
    (Query.ofText q).orderItems = [] := by
  have hnone : Clause.ordering.body? (tokenize q) = none := by
    rw [← Option.isNone_iff_eq_none, ← Option.isSome_eq_false_iff]
    exact h
  rw [Query.ofText, orderItems_ofTokens, Builder.orderItems, hnone]
  rfl

/-- What of a query the query of a state has again. Nothing is added to it; a grouping or a condition
on groups may be lost, and so may an order without a field. -/
structure Reproduces (s : State) (q : Query) : Prop where
  objectName : (Query.ofText s.query).objectName = q.objectName
  hasGroupBy : q.hasGroupBy = false → (Query.ofText s.query).hasGroupBy = false
  hasHaving : q.hasHaving = false → (Query.ofText s.query).hasHaving = false
  hasOrderBy : (Query.ofText s.query).hasOrderBy = !q.orderItems.isEmpty
  orderItems : (Query.ofText s.query).orderItems = q.orderItems
  comparisons : (Query.ofText s.query).conditions.map (fun c => (c.field, c.operator)) =
    q.conditions.map fun c => (c.field, c.operator)

/-- The query of an imported state reproduces that of the text. -/
theorem reproduces_import {ts : List Token} (h : Stretch ts) (hbal : Balanced (kinds ts))
    {previous : State} {object : Text} (hname : Token.objectName? ts = some object)
    (hdropped : (orderItems ts).drop 1 = []) (hs : (stateOf previous object ts).Steady) :
    (stateOf previous object ts).Reproduces (Query.ofTokens ts) := by
  have hlegible := legible_import h hbal hname hs
  have hitems : (Query.ofText (stateOf previous object ts).query).orderItems =
      (Query.ofTokens ts).orderItems := hlegible.sortedFields_eq.trans (orderItems_import hdropped)
  constructor
  · exact hlegible.objectName?.trans hname.symm
  · rw [Query.hasGroupBy_eq_false_iff h, Query.ofText, Query.hasGroupBy_eq_false_iff hlegible.stretch]
    exact clear_grouping_import h hbal hname hlegible (by decide)
  · rw [Query.hasHaving_eq_false_iff h, Query.ofText, Query.hasHaving_eq_false_iff hlegible.stretch]
    exact clear_grouping_import h hbal hname hlegible (by decide)
  · rw [hlegible.hasOrderBy_eq, hitems]
  · exact hitems
  · rw [Query.ofText, hlegible.conditions_eq, List.map_map, ← comparisons_import h]
    rfl

/-- A lossless report means that the structure survives, if the text does not group and an order
names a field. -/
theorem sameStructure_of_isLossless {text : Text} {previous s : State} {r : Report}
    (h : import? text previous = .ok (s, r)) (hr : r.isLossless = true) (hs : s.Steady)
    (hgroup : (Query.ofText text).hasGroupBy = false)
    (hhaving : (Query.ofText text).hasHaving = false)
    (horder : (Query.ofText text).hasOrderBy = true → (Query.ofText text).orderItems ≠ []) :
    (Query.ofText s.query).SameStructure (Query.ofText text) := by
  obtain ⟨object, hstretch, hbal, hname, rfl, rfl⟩ := exists_of_import? h
  have hdropped : (orderItems (tokenize text)).drop 1 = [] := by
    simp only [Report.isLossless, Bool.and_eq_true] at hr
    exact List.isEmpty_iff.1 hr.1.1.2
  have hkeeps := reproduces_import hstretch hbal hname hdropped hs
  refine ⟨hkeeps.objectName, ?_, ?_, ?_, hkeeps.orderItems, hkeeps.comparisons⟩
  · exact (hkeeps.hasGroupBy hgroup).trans hgroup.symm
  · exact (hkeeps.hasHaving hhaving).trans hhaving.symm
  · rw [hkeeps.hasOrderBy]
    cases hsorted : (Query.ofText text).hasOrderBy with
    | true => rw [← Query.ofText, List.isEmpty_eq_false_iff.2 (horder hsorted)]; rfl
    | false => rw [← Query.ofText, orderItems_eq_nil hsorted]; rfl

/-- Conditions, with a list and a subquery among them, and an order are no loss. -/
theorem sameStructure_of_isLossless_openOpportunities :
    openOpportunities.Steady ∧
      (import? openOpportunitiesText initial = .ok (openOpportunities, ⟨[], [], [], [], false⟩)) ∧
      (Query.ofText openOpportunitiesText).hasGroupBy = false ∧
      (Query.ofText openOpportunitiesText).hasHaving = false ∧
      (Query.ofText openOpportunitiesText).orderItems ≠ [] ∧
      (Query.ofText openOpportunities.query).SameStructure (Query.ofText openOpportunitiesText) := by
  have hgroup : (Query.ofText openOpportunitiesText).hasGroupBy = false := by decide +kernel
  have hhaving : (Query.ofText openOpportunitiesText).hasHaving = false := by decide +kernel
  have horder : (Query.ofText openOpportunitiesText).orderItems ≠ [] := by decide +kernel
  have himport := import?_openOpportunitiesText
  have hs := steady_openOpportunities
  exact ⟨hs, himport, hgroup, hhaving, horder,
    sameStructure_of_isLossless himport rfl hs hgroup hhaving fun _ => horder⟩

/-- A grouping is lost, and no loss is reported. -/
theorem not_sameStructure_of_isLossless :
    ¬ ∀ (text : Text) (previous s : State) (r : Report), import? text previous = .ok (s, r) →
      r.isLossless = true → (Query.ofText s.query).SameStructure (Query.ofText text) := by
  intro h
  have himport : import? "SELECT Name FROM Account GROUP BY Name".toList initial =
      .ok ({ ofObject "Account".toList with fields := ["Name".toList] }, ⟨[], [], [], [], false⟩) := by
    decide +kernel
  have := (h _ _ _ _ himport rfl).hasGroupBy
  revert this
  decide +kernel

end Builder.State

end Soql
