import Soql.Proofs.Builder.Legible
import Soql.Proofs.Query.Part
import Soql.Proofs.Query.Value

/-!
# What the value of a condition can do to a query

Values are free texts, and most of what they are written as has no effect on the rest of the query:
quoted texts, numbers, dates, null and booleans hold no word that a search stops at. The exception
are bind variables, whose name is written as it is. A state with plain names is read back from its
query exactly when none of its bind variables has a word in its name that ends conditions.
-/

namespace Soql

open Kind Token

namespace Builder.State

/-- Only the values of conditions are free: every name is plain, and no value is a list. -/
structure HasPlainNames (s : State) : Prop where
  object : PlainName s.object
  selection : ∀ x ∈ s.fields ++ s.lookups, PlainPath x
  subqueries : s.subqueries = []
  filters : ∀ f ∈ s.filters, PlainPath f.field ∧ f.operator.takesList = false
  order : ∀ o ∈ s.orderBy, PlainPath o.field

/-- The query has the object, the conditions, the order and the counts of the state, with the
values as they are written, and it neither groups nor filters groups. -/
structure IsReadAs (s : State) (q : Query) : Prop where
  object : q.objectName = some s.object
  conditions : q.conditions =
    s.filters.map fun f => ⟨f.field, f.operator, (Literal.writeValue f.value).trim⟩
  order : q.orderItems = s.orderBy.toList.map OrderBy.field
  limit : q.limit = if s.limit = 0 then none else some s.limit.toNat
  offset : q.offset = if s.offset = 0 then none else some s.offset.toNat
  grouping : q.hasGroupBy = false
  having : q.hasHaving = false

namespace HasPlainNames

variable {s : State} (h : s.HasPlainNames)

include h

/-- All that is selected is paths. -/
theorem selectionItems {x : Text} (hx : x ∈ s.selectionItems) : PlainPath x := by
  rw [State.selectionItems, h.subqueries, List.filter_nil, List.map_nil, List.append_nil] at hx
  obtain ⟨y, hy, rfl⟩ := List.mem_map.1 (List.mem_filter.1 hx).1
  have := h.selection y hy
  rwa [this.piece.tight.trim_eq]

/-- Every filter is written with one value. -/
theorem right_eq {f : Filter} (hf : f ∈ s.filters) : f.right = Literal.writeValue f.value := by
  rw [Filter.right, (h.filters f hf).2]
  rfl

/-- The condition of a filter has its field and operator as they are. -/
theorem condition_eq {f : Filter} (hf : f ∈ s.filters) :
    f.condition = ⟨f.field, f.operator, Literal.writeValue f.value⟩ := by
  rw [Filter.condition, h.right_eq hf, (h.filters f hf).1.piece.tight.trim_eq]

/-- A condition is read back unless its value ends it. -/
theorem readsBack_condition {f : Filter} (hf : f ∈ s.filters)
    (hvalue : ¬ Literal.EndsCondition (Literal.unquote f.value)) : f.condition.ReadsBack := by
  obtain ⟨hfield, -⟩ := h.filters f hf
  have hform := Literal.form (Literal.unquote f.value)
  rw [h.condition_eq hf]
  exact ⟨hfield.piece, hfield.isField, hfield.readsAlone, hform.readsAlone hvalue,
    hform.trim_ne_nil⟩

/-- A state in plain names is legible as long as no value ends its condition. -/
theorem legible (hvalues : ∀ f ∈ s.filters, ¬ Literal.EndsCondition (Literal.unquote f.value)) :
    s.Legible :=
  .of_plainNames h.object
    (fun _ hx => ⟨.of_plainPath (h.selectionItems hx), (h.selectionItems hx).unread⟩)
    (fun f hf => h.readsBack_condition hf (hvalues f hf)) h.order

/-- No grouping gets into the query. -/
theorem clear_grouping (hlegible : s.Legible) {words : List Keyword} (hw : words ∈ groupingPhrases) :
    Clear (Phrase.leadsKinds words) 0 (kindsOf s.query) [] := by
  have hpath : ∀ x, PlainPath x → Passes (Phrase.leadsKinds words) (kindsOf x) := fun x hx =>
    (search_grouping hw).passes hx.quiet
  exact (hlegible.passes_grouping hw (fun x hx => hpath x (h.selectionItems hx))
    (hpath _ h.object.plainPath) fun o ho => hpath _ (h.order o ho)).clear rfl

/-- Values that end no condition leave the query as it was put together. -/
theorem isReadAs_of_values
    (hvalues : ∀ f ∈ s.filters, ¬ Literal.EndsCondition (Literal.unquote f.value)) :
    s.IsReadAs (Query.ofText s.query) := by
  have hlegible := h.legible hvalues
  constructor
  · exact hlegible.objectName?
  · rw [Query.ofText, hlegible.conditions_eq]
    refine List.map_congr_left fun f hf => ?_
    rw [h.condition_eq hf, h.right_eq hf]
  · rw [Query.ofText, hlegible.sortedFields_eq]
    cases horder : s.orderBy with
    | none => rfl
    | some o =>
      have hne := (OrderBy.legible_of_plainPath (h.order o horder)).ne_nil
      simp [Option.filter, hne]
  · exact hlegible.limit_eq
  · exact hlegible.offset_eq
  · exact (Query.hasGroupBy_eq_false_iff hlegible.stretch).2 (h.clear_grouping hlegible (by decide))
  · exact (Query.hasHaving_eq_false_iff hlegible.stretch).2 (h.clear_grouping hlegible (by decide))

theorem closed_writeFilters : Closed (writeFilters s.filters) := by
  refine separator_and.closed_join fun y hy => ?_
  obtain ⟨f, hf, rfl⟩ := List.mem_map.1 hy
  have hf := (List.mem_filter.1 hf).1
  rw [Filter.write_eq, h.condition_eq hf]
  exact Condition.closed_write (h.filters f hf).1.piece.closed (Literal.form _).closed

/-- No value leaves a quote open in the query. -/
theorem stretch_query : Stretch (tokenize s.query) := by
  have hselection : Closed s.selection :=
    (piece_selection fun x hx => .of_plainPath (h.selectionItems hx)).closed
  have hclosed : ∀ p ∈ s.clauses, Closed p.2 :=
    closed_clauses (fun o ho => .inr (OrderBy.legible_of_plainPath (h.order o ho)))
      h.closed_writeFilters
  obtain ⟨its, ts, hheading, -⟩ := State.exists_layout ⟨_, h.object, rfl⟩ hselection hclosed
  exact hheading.stretch

/-- A value that is read back as it was written ends no condition. -/
theorem values_of_isReadAs (hread : s.IsReadAs (Query.ofText s.query)) {f : Filter}
    (hf : f ∈ s.filters) : ¬ Literal.EndsCondition (Literal.unquote f.value) := by
  rintro ⟨hbind, k, hk, hends⟩
  have hwrite : (Literal.writeValue f.value).trim = Literal.unquote f.value := by
    rw [Literal.writeValue_eq, Literal.writeText_of_bind hbind]
    exact (piece_of_chars (Literal.not_isBlank_of_isBindVariable hbind)
      (Literal.not_mem_of_isBindVariable hbind)).tight.trim_eq
  have hmem : ⟨f.field, f.operator, Literal.unquote f.value⟩ ∈ (Query.ofText s.query).conditions := by
    rw [hread.conditions, ← hwrite]
    exact List.mem_map_of_mem hf
  have hgroup : ∀ k ∈ kindsOf (Literal.unquote f.value), k ≠ .openParen ∧ k ≠ .closeParen :=
    fun k hk => ⟨((Literal.Form.bind hbind).no_group k hk).1,
      ((Literal.Form.bind hbind).no_group k hk).2.1⟩
  have hclear := (Condition.read_of_mem h.stretch_query hmem).clear_endsCondition
  rw [forall_of_clear hclear hgroup k hk] at hends
  cases hends

end HasPlainNames

/-- Whatever the values are, the query is read as the state that it was written from, unless a bind
variable has a word in its name that ends conditions. -/
theorem isReadAs_query_iff {s : State} (h : s.HasPlainNames) :
    s.IsReadAs (Query.ofText s.query) ↔
      ∀ f ∈ s.filters, ¬ Literal.EndsCondition (Literal.unquote f.value) :=
  ⟨fun hread _ hf => h.values_of_isReadAs hread hf, h.isReadAs_of_values⟩

/-- Accounts with a condition on their name. -/
def accountNamed (value : Text) : State :=
  { ofObject "Account".toList with
    filters := [⟨"f1".toList, "Name".toList, .equal, value⟩] }

/-- An account may have any name. -/
theorem hasPlainNames_accountNamed (value : Text) : (accountNamed value).HasPlainNames := by
  have hname : PlainName "Name".toList :=
    show tokenize "Name".toList = [⟨[], .identifier, "Name".toList⟩] by decide +kernel
  refine ⟨?_, ?_, rfl, ?_, by rintro o ⟨⟩⟩
  · exact show tokenize "Account".toList = [⟨[], .identifier, "Account".toList⟩] by decide +kernel
  · rintro x (_ | ⟨_, ⟨⟩⟩)
    exact plainPath_id
  · rintro f (_ | ⟨_, ⟨⟩⟩)
    exact ⟨hname.plainPath, rfl⟩

/-- A text with quotes and keywords is a value like any other, but the name `limit` of a bind
variable is read as a clause. -/
theorem isReadAs_query_iff_accountNamed :
    (accountNamed "x' OR Name != 'y' LIMIT 1".toList).IsReadAs
      (Query.ofText (accountNamed "x' OR Name != 'y' LIMIT 1".toList).query) ∧
    ¬ (accountNamed ":limit".toList).IsReadAs (Query.ofText (accountNamed ":limit".toList).query) := by
  constructor
  · refine (isReadAs_query_iff (hasPlainNames_accountNamed _)).2 ?_
    rintro f (_ | ⟨_, ⟨⟩⟩) ⟨hbind, -⟩
    revert hbind
    decide +kernel
  · intro hread
    refine (isReadAs_query_iff (hasPlainNames_accountNamed _)).1 hread _ (List.mem_singleton_self _)
      ⟨by decide +kernel, .keyword .LIMIT, ?_, rfl⟩
    decide +kernel

end Builder.State

end Soql
