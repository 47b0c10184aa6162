import Soql.Proofs.Query.Column
import Soql.Proofs.Query.FoldCase
import Soql.Proofs.Query.Layout
import Soql.Validation.Rule

/-!
# Columns that are not grouped

In a grouped query, every column of the select list must be one that the query is grouped by, up to
case. What is reported is what `Selected.reported?` says of each item in turn: a column that is missing,
as often as it is selected, and a call with an alias, even where the query is grouped by the call. An
alias is taken off a path only, so such a call is compared as a whole, and nothing that a query is
grouped by is written like that.
-/

namespace Soql

open Kind Token

/-- The select list of a query has some items, and the query is grouped by others. -/
structure SelectsGrouped (text : Text) (items : List Selected) (groups : List Grouping) : Prop where
  selection : (Clause.selection.body? (tokenize text)).map splitItems =
    some (items.map Selected.write)
  grouping : (Clause.grouping.body? (tokenize text)).map splitItems =
    some (groups.map Grouping.write)

/-- A query that selects items and groups, and has no other clause. -/
def writeGrouped (items : List Selected) (object : Text) (groups : List Grouping) : Text :=
  writeSelect (Text.join ", ".toList (items.map Selected.write)) object
    (Clause.grouping.write (Text.join ", ".toList (groups.map Grouping.write)))

/-- The searches for keywords pass over a list of inert texts. -/
theorem passes_join_of_inert {f : List Kind → Bool} (hf : Search f) {xs : List Text}
    (h : ∀ x ∈ xs, Inert x) : Passes f (kindsOf (Text.join ", ".toList xs)) :=
  hf.passes_join (fun x hx => (h x hx).piece.closed) fun x hx => (h x hx).passes_of_search hf

section Written

variable {items : List Selected} {groups : List Grouping} (hitems : ∀ i ∈ items, i.Plain)
  (hgroups : ∀ g ∈ groups, g.Plain)

include hitems hgroups

/-- What is written is found in the query. -/
theorem selectsGrouped_writeGrouped {object : Text} (hobject : PlainName object) :
    SelectsGrouped (writeGrouped items object groups) items groups := by
  have hselected : ∀ x ∈ items.map Selected.write, Inert x := by
    intro x hx
    obtain ⟨i, hi, rfl⟩ := List.mem_map.1 hx
    exact Selected.inert (hitems i hi)
  have hgrouped : ∀ x ∈ groups.map Grouping.write, Inert x := by
    intro x hx
    obtain ⟨g, hg, rfl⟩ := List.mem_map.1 hx
    exact Grouping.inert (hgroups g hg)
  have hselection := piece_join_items fun x hx => (hselected x hx).itemReadsBack
  have hgrouping := piece_join_items fun x hx => (hgrouped x hx).itemReadsBack
  obtain ⟨its, ts, hheading⟩ := exists_heading hselection.closed hobject rfl
    ((closed_opening .grouping).space _ hgrouping.closed)
  constructor
  · rw [writeGrouped, Clause.write,
      hheading.selection_body? (passes_join_of_inert (Clause.search_closes _) hselected),
      hselection.tight.trim_eq, Option.map_some,
      splitItems_selection fun x hx => (hselected x hx).itemReadsBack]
  · have hopens := Clause.grouping.search_opens
    obtain ⟨hd, hall, hpasses⟩ := hheading.exists_passes (fun _ => rfl) (fun _ => rfl)
      (passes_join_of_inert hopens hselected) (hobject.plainPath.inert.passes_of_search hopens)
    have hlayout : Layout [(.grouping, Text.join ", ".toList (groups.map Grouping.write))] ts :=
      exists_layout (by simpa using hgrouping.closed) hheading.rest
    have hreads : Clause.grouping.ReadsBack
        [(.grouping, Text.join ", ".toList (groups.map Grouping.write))] :=
      ⟨passes_join_of_inert (Clause.search_closes _) hgrouped, by simp⟩
    have hbody := Clause.body?_eq_lookup hlayout (hall ▸ hheading.stretch) hpasses hreads
    rw [writeGrouped, Clause.write, hall, hbody, List.lookup_cons_self, Option.map_some, hgrouping.tight.trim_eq,
      Option.map_some, splitItems_selection fun x hx => (hgrouped x hx).itemReadsBack]

end Written

namespace Selected

/-- What is reported of an item when a query is grouped by columns: a column that is not among them,
and a call with an alias, which is compared as a whole. -/
def reported? (columns : List Column) : Selected → Option Text
  | column c label =>
    if columns.any (Text.eqIgnoreCase ·.text c.text) && !(c.isCall && label.isSome) then none
    else some (c.comparedText label)
  | aggregate .. => none

/-- No column has an alias behind a call. -/
theorem not_eqIgnoreCase_alias {function arguments name : Text} (hcall : IsCall function arguments)
    (hname : PlainName name) {c : Column} (hc : c.Plain) :
    Text.eqIgnoreCase c.text (withAlias (function ++ group arguments) (some name)) = false := by
  by_contra heq
  have hkinds := kindsOf_of_eqIgnoreCase (Bool.of_not_eq_false heq)
  rw [hcall.inert.kindsOf_withAlias (by simpa using hname), hcall.kindsOf_eq] at hkinds
  cases c with
  | path names =>
    have hopen : Kind.openParen ∈ kindsOf names := by
      rw [show kindsOf names = _ from hkinds]
      simp
    exact absurd rfl ((PlainPath.isPath hc).no_group _ hopen).1
  | call function' arguments' =>
    rw [Column.text, hc.1.kindsOf_eq] at hkinds
    have hlast := congrArg List.getLast? hkinds
    simp [List.getLast?_cons] at hlast

/-- An item is reported when nothing that the query is grouped by is what it is compared by. -/
theorem reported?_eq {i : Selected} (hi : i.Plain) {columns : List Column}
    (hcolumns : ∀ c ∈ columns, c.Plain) : i.reported? columns =
      i.comparedText?.filter fun s => !(columns.map Column.text).any (Text.eqIgnoreCase · s) := by
  cases i with
  | aggregate function arguments label => rfl
  | column c label =>
    have hany : (columns.map Column.text).any (Text.eqIgnoreCase · (c.comparedText label)) =
        (columns.any (Text.eqIgnoreCase ·.text c.text) && !(c.isCall && label.isSome)) := by
      rw [List.any_map]
      match c, label with
      | .path _, _ => exact (Bool.and_true _).symm
      | .call _ _, none => exact (Bool.and_true _).symm
      | .call function arguments, some name =>
        rw [Column.isCall, Option.isSome_some, Bool.and_true, Bool.not_true, Bool.and_false,
          List.any_eq_false]
        intro d hd
        exact Bool.eq_false_iff.1 (not_eqIgnoreCase_alias hi.1.1 (hi.2 name rfl) (hcolumns d hd))
    rw [comparedText?, Option.filter_some, hany, reported?]
    cases columns.any (Text.eqIgnoreCase ·.text c.text) && !(c.isCall && label.isSome) <;> rfl

/-- The columns of the selection, as they are compared with the grouping. -/
theorem map_stripAlias {items : List Selected} (hitems : ∀ i ∈ items, i.Plain) :
    ((items.map write).filter fun s => (SelectItem.ofText s).isColumn).map stripAlias =
      items.filterMap comparedText? := by
  induction items with
  | nil => rfl
  | cons i items ih =>
    have hrest := ih fun j hj => hitems j (by simp [hj])
    have hi := comparedText?_eq (hitems i (by simp))
    rw [List.map_cons, List.filter_cons]
    split
    · next hcolumn =>
      rw [if_pos hcolumn] at hi
      rw [List.filterMap_cons_some hi, List.map_cons, hrest]
    · next hcolumn =>
      rw [if_neg hcolumn] at hi
      rw [List.filterMap_cons_none hi, hrest]

end Selected

/-- The columns of the groupings, one by one. -/
theorem groupItems_eq {groups : List Grouping} (hgroups : ∀ g ∈ groups, g.Plain) :
    (groups.map Grouping.write).flatMap expandGrouping =
      (groups.flatMap Grouping.columns).map Column.text := by
  rw [List.flatMap_map, List.map_flatMap]
  exact List.flatMap_congr fun g hg => Grouping.expandGrouping_write (hgroups g hg)

namespace Validation

open Selected

/-- In a query that is read as written, the rule reports what is reported of its items. -/
theorem findings_of_selectsGrouped {items : List Selected} {groups : List Grouping}
    (hitems : ∀ i ∈ items, i.Plain) (hgroups : ∀ g ∈ groups, g.Plain) {text : Text} (h : SelectsGrouped text items groups)
    (describe : Option Schema.Describe) (config : Config) :
    (Context.mk (Query.ofText text) describe config).fieldNotGrouped =
      (items.filterMap (reported? (groups.flatMap Grouping.columns))).map .fieldNotGrouped := by
  obtain ⟨body, hbody, hgroupsBody⟩ := Option.map_eq_some_iff.1 h.grouping
  have hselect : (Query.ofText text).selectItems = items.map write := by
    change ((Clause.selection.body? (tokenize text)).map splitItems).getD [] = _
    rw [h.selection]
    rfl
  have hgrouped : (Query.ofText text).hasGroupBy = true := by
    change (Clause.grouping.body? (tokenize text)).isSome = true
    rw [hbody]
    rfl
  have hcolumns : (Query.ofText text).groupItems = (groups.flatMap Grouping.columns).map Column.text := by
    change ((Clause.grouping.body? (tokenize text)).map _).getD [] = _
    rw [hbody, Option.map_some, Option.getD_some, hgroupsBody, groupItems_eq hgroups]
  have hplain : ∀ c ∈ groups.flatMap Grouping.columns, c.Plain := by
    intro c hc
    obtain ⟨g, hg, hmem⟩ := List.mem_flatMap.1 hc
    exact Grouping.plain_of_mem_columns (hgroups g hg) c hmem
  rw [Context.fieldNotGrouped, if_pos hgrouped]
  dsimp only
  rw [hselect, map_stripAlias hitems, hcolumns, List.filter_filterMap]
  congr 1
  exact List.filterMap_congr fun i hi => (reported?_eq (hitems i hi) hplain).symm

/-- Nothing is reported exactly when every column is grouped and no call has an alias. -/
theorem filterMap_reported?_eq_nil_iff {items : List Selected} {columns : List Column} :
    items.filterMap (reported? columns) = [] ↔ ∀ c label, Selected.column c label ∈ items →
      (∃ d ∈ columns, Text.eqIgnoreCase d.text c.text = true) ∧ (c.isCall = true → label = none) := by
  have hcolumn : ∀ c label, reported? columns (.column c label) = none ↔
      (∃ d ∈ columns, Text.eqIgnoreCase d.text c.text = true) ∧ (c.isCall = true → label = none) := by
    intro c label
    rw [reported?, ← List.any_eq_true]
    cases c.isCall <;> cases label <;> simp
  rw [List.filterMap_eq_nil_iff]
  constructor
  · exact fun h c label hmem => (hcolumn c label).1 (h _ hmem)
  · rintro h (⟨c, label⟩ | _) hmem
    · exact (hcolumn c label).2 (h c label hmem)
    · rfl

/-- In a query that selects columns and aggregates and groups by columns, the columns that it is not
grouped by are reported, each as often as it is selected, and so is every call with an alias. -/
theorem fieldNotGrouped_eq {items : List Selected} {groups : List Grouping}
    (hitems : ∀ i ∈ items, i.Plain) (hgroups : ∀ g ∈ groups, g.Plain) :
    (∀ object, PlainName object → SelectsGrouped (writeGrouped items object groups) items groups) ∧
    ∀ text, SelectsGrouped text items groups → ∀ describe config,
      let found := (Context.mk (Query.ofText text) describe config).fieldNotGrouped
      let columns := groups.flatMap Grouping.columns
      found = (items.filterMap (reported? columns)).map .fieldNotGrouped ∧
        (found = [] ↔ ∀ c label, Selected.column c label ∈ items →
          (∃ d ∈ columns, Text.eqIgnoreCase d.text c.text = true) ∧ (c.isCall = true → label = none)) := by
  refine ⟨fun object hobject => selectsGrouped_writeGrouped hitems hgroups hobject,
    fun text htext describe config => ?_⟩
  have hfound := findings_of_selectsGrouped hitems hgroups htext describe config
  refine ⟨hfound, ?_⟩
  rw [hfound, List.map_eq_nil_iff]
  exact filterMap_reported?_eq_nil_iff

/-- The year of a date, as a column. -/
def createdYear : Column :=
  .call "CALENDAR_YEAR".toList "CreatedDate".toList

theorem plain_createdYear : createdYear.Plain := by
  have hdate : PlainName "CreatedDate".toList := by decide +kernel
  refine ⟨.of_paths (by decide +kernel) ["CreatedDate".toList] ?_, by decide +kernel⟩
  simpa using hdate.plainPath

/-- The number of rows, with or without an alias. -/
def rowCount (label : Option Text) : Selected :=
  .aggregate "COUNT".toList "Id".toList label

theorem plain_rowCount {label : Option Text} (hlabel : ∀ name ∈ label, PlainName name) :
    (rowCount label).Plain := by
  refine ⟨.of_paths (by decide +kernel) ["Id".toList] ?_, by decide +kernel, hlabel⟩
  simpa using plainPath_id

/-- A path with an alias and a call are grouped up to case; a path that is not grouped is selected
twice, and an alias keeps the call from being what the query is grouped by. -/
theorem fieldNotGrouped_eq_casesByYear :
    let items : List Selected := [.column (.path "Owner.Name".toList) (some "o".toList),
      .column (.path "Origin".toList) none, .column createdYear none, rowCount (some "n".toList),
      .column createdYear (some "y".toList), .column (.path "Origin".toList) (some "again".toList)]
    let groups : List Grouping := [.column (.path "owner.NAME".toList),
      .subtotals "Rollup".toList [createdYear, .path "Status".toList]]
    (∀ i ∈ items, i.Plain) ∧ (∀ g ∈ groups, g.Plain) ∧
      writeGrouped items "Case".toList groups =
        "SELECT Owner.Name o, Origin, CALENDAR_YEAR(CreatedDate), ".toList ++
          "COUNT(Id) n, CALENDAR_YEAR(CreatedDate) y, Origin again".toList ++
            " FROM Case GROUP BY owner.NAME, ".toList ++
              "Rollup(CALENDAR_YEAR(CreatedDate), Status)".toList ∧
      ∀ describe config,
        (Context.mk (Query.ofText (writeGrouped items "Case".toList groups)) describe
          config).fieldNotGrouped =
            [.fieldNotGrouped "Origin".toList, .fieldNotGrouped "CALENDAR_YEAR(CreatedDate) y".toList,
              .fieldNotGrouped "Origin".toList] := by
  intro items groups
  have howner : PlainPath "Owner.Name".toList :=
    ⟨["Owner".toList, "Name".toList], by simp, by decide +kernel, by decide +kernel⟩
  have howner' : PlainPath "owner.NAME".toList :=
    ⟨["owner".toList, "NAME".toList], by simp, by decide +kernel, by decide +kernel⟩
  have horigin : PlainName "Origin".toList := by decide +kernel
  have hstatus : PlainName "Status".toList := by decide +kernel
  have hitems : ∀ i ∈ items, i.Plain := by
    simp only [items, List.forall_mem_cons]
    refine ⟨⟨howner, ?_⟩, ⟨horigin.plainPath, ?_⟩, ⟨plain_createdYear, ?_⟩, plain_rowCount ?_,
      ⟨plain_createdYear, ?_⟩, ⟨horigin.plainPath, ?_⟩, by simp⟩ <;> decide +kernel
  have hgroups : ∀ g ∈ groups, g.Plain := by
    simp only [groups, List.forall_mem_cons]
    refine ⟨⟨howner', nofun⟩, ⟨by decide +kernel, by decide +kernel, ?_⟩, by simp⟩
    simpa using ⟨plain_createdYear, hstatus.plainPath⟩
  refine ⟨hitems, hgroups, by decide +kernel, fun describe config => ?_⟩
  obtain ⟨hwritten, hfound⟩ := fieldNotGrouped_eq hitems hgroups
  rw [(hfound _ (hwritten _ (by decide +kernel)) describe config).1]
  decide +kernel

/-- A call with an alias is reported although the query is grouped by the call. -/
theorem not_fieldNotGrouped_eq_nil :
    ¬ ∀ (items : List Selected) (groups : List Grouping), (∀ i ∈ items, i.Plain) →
      (∀ g ∈ groups, g.Plain) →
      (∀ c label, Selected.column c label ∈ items →
        ∃ d ∈ groups.flatMap Grouping.columns, Text.eqIgnoreCase d.text c.text = true) →
      ∀ object, PlainName object → ∀ describe config,
        (Context.mk (Query.ofText (writeGrouped items object groups)) describe
          config).fieldNotGrouped = [] := by
  intro h
  have hname : PlainName "Account".toList := by decide +kernel
  have hitems : ∀ i ∈ [Selected.column createdYear (some "y".toList), rowCount none], i.Plain := by
    simp only [List.forall_mem_cons]
    exact ⟨⟨plain_createdYear, by decide +kernel⟩, plain_rowCount (by simp), by simp⟩
  have hgroups : ∀ g ∈ [Grouping.column createdYear], g.Plain := by
    simp only [List.forall_mem_cons]
    refine ⟨⟨plain_createdYear, ?_⟩, by simp⟩
    rintro _ _ ⟨⟩
    decide +kernel
  have hfound := h _ _ hitems hgroups ?_ _ hname none .standard
  · rw [findings_of_selectsGrouped hitems hgroups (selectsGrouped_writeGrouped hitems hgroups hname)]
      at hfound
    revert hfound
    decide +kernel
  · intro c label hmem
    obtain rfl : c = createdYear := by
      simp only [rowCount, List.mem_cons, Selected.column.injEq, reduceCtorEq, List.not_mem_nil,
        or_false] at hmem
      exact hmem.1
    exact ⟨createdYear, by simp [Grouping.columns], Text.eqIgnoreCase_iff.2 rfl⟩

end Validation

end Soql
