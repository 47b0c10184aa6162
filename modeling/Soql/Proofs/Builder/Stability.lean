import Soql.Proofs.Builder.Injection
import Soql.Proofs.Builder.Steady

/-!
# Importing what was imported

An imported state is sorted, and its order is legible. So the query that it is written as can be
imported again and is a fixed point from then on, as long as no name, value or order of the state is
taken for something else in the query; `State.Steady` says what is left out.
-/

namespace Soql.Builder.State

open Kind Token

/-- No name of a state opens a clause, its filters are written again as they were, and without
filters its order has no `WHERE` outside parentheses. -/
structure Steady (s : State) : Prop where
  names : ∀ x ∈ s.object :: (s.fields ++ s.lookups), ∀ k ∈ kindsOf x, k.opensArgument = false
  filters : ∀ f ∈ s.filters, f.Steady
  order : s.filters = [] → ∀ o ∈ s.orderBy,
    Clear (headIs (· == .keyword .WHERE)) 0 (kindsOf o.field) []

/-- What is known of a text that is imported. -/
theorem exists_of_import? {text : Text} {previous s : State} {r : Report}
    (h : import? text previous = .ok (s, r)) : ∃ object, Stretch (tokenize text) ∧
      Balanced (kindsOf text) ∧ Token.objectName? (tokenize text) = some object ∧
        s = stateOf previous object (tokenize text) ∧ r = reportOf (tokenize text) := by
  cases himportable : importable (tokenize text) with
  | error e =>
    simp only [import?, himportable] at h
    cases h
  | ok object =>
    simp only [import?, himportable] at h
    obtain ⟨rfl, rfl⟩ : stateOf previous object (tokenize text) = s ∧ reportOf (tokenize text) = r := by
      simpa using h
    rw [importable] at himportable
    split at himportable
    · cases himportable
    · next hclosed =>
      split at himportable
      · cases himportable
      · next hbalanced =>
        split at himportable
        · cases himportable
        · split at himportable
          · next name hname =>
            cases himportable
            exact ⟨_, stretch_tokenize (by simpa using hclosed),
              isBalanced_iff.1 (by simpa using hbalanced), hname, rfl, rfl⟩
          · cases himportable

section Imported

variable {ts : List Token} (h : Stretch ts) (hbal : Balanced (kinds ts)) {previous : State}
  {object : Text}

include h hbal

/-- An imported state is sorted, since its items were put into their lists by their shape. -/
theorem sorted_import : (stateOf previous object ts).Sorted where
  fields x hx := by
    obtain ⟨hmem, hshape⟩ := List.mem_filter.1 hx
    exact ⟨(itemReadsBack_of_mem h hbal hmem).piece, by simpa using hshape⟩
  lookups x hx := by
    obtain ⟨hmem, hshape⟩ := List.mem_filter.1 hx
    exact ⟨(itemReadsBack_of_mem h hbal hmem).piece, by simpa using hshape⟩
  subqueries q hq := by
    obtain ⟨p, hp, rfl⟩ := List.mem_map.1 hq
    obtain ⟨item, hitem, hread⟩ := List.mem_filterMap.1 (List.fst_mem_of_mem_zipIdx hp)
    obtain ⟨items, hlegible⟩ :=
      Subquery.exists_legible (itemReadsBack_of_mem h hbal hitem).piece.closed hread
    exact ⟨items, hlegible.identify previous.subqueries _⟩

omit h hbal in
/-- Fields and lookups are items of the text. -/
theorem mem_selectItems_of_mem {x : Text} (hx : x ∈ (stateOf previous object ts).fields ++
    (stateOf previous object ts).lookups) : x ∈ (Query.ofTokens ts).selectItems :=
  (List.mem_append.1 hx).elim (fun hx => (List.mem_filter.1 hx).1) fun hx => (List.mem_filter.1 hx).1

/-- All that an imported state selects is read back. -/
theorem itemReadsBack_import {x : Text} (hx : x ∈ (stateOf previous object ts).selectionItems) :
    ItemReadsBack x :=
  (sorted_import h hbal).forall_selectionItems
    (fun _ hx _ => itemReadsBack_of_mem h hbal (mem_selectItems_of_mem hx))
    (fun _ _ hlegible => hlegible.readsBack_write) x hx

/-- No clause opens in what a steady imported state selects. -/
theorem unread_import (hs : (stateOf previous object ts).Steady) {x : Text}
    (hx : x ∈ (stateOf previous object ts).selectionItems) : Unread (kindsOf x) :=
  (sorted_import h hbal).forall_selectionItems
    (fun _ hx hpath => hpath.unread (hs.names _ (List.mem_cons_of_mem _ hx)))
    (fun _ _ hlegible => hlegible.unread_write) x hx

omit hbal in
/-- The field of a filter is that of a condition of the text. -/
theorem field_import {f : Filter} (hf : f ∈ (stateOf previous object ts).filters) :
    ∃ c : Condition, c.Read ∧ f.field = c.field := by
  obtain ⟨p, hp, rfl⟩ := List.mem_map.1 hf
  have hmem := List.fst_mem_of_mem_zipIdx hp
  rw [← conditions_ofTokens] at hmem
  exact ⟨p.1, Condition.read_of_mem h hmem, rfl⟩

omit h hbal in
/-- The order of an imported state is the first item to sort by. -/
theorem exists_body_of_mem_orderBy {o : OrderBy} (ho : o ∈ (stateOf previous object ts).orderBy) :
    ∃ body, Clause.ordering.body? ts = some body ∧
      ∃ item ∈ splitItems body, o = OrderBy.ofItem item := by
  change o ∈ (orderItems ts).head?.map OrderBy.ofItem at ho
  rw [orderItems] at ho
  cases hbody : Clause.ordering.body? ts with
  | none => simp [hbody] at ho
  | some body =>
    rw [hbody, Option.map_some, Option.getD_some, Option.mem_def, Option.map_eq_some_iff] at ho
    obtain ⟨item, hitem, rfl⟩ := ho
    exact ⟨body, rfl, item, List.mem_of_mem_head? hitem, rfl⟩

/-- The order of an imported state is legible, unless it has no field. -/
theorem order_import {o : OrderBy} (ho : o ∈ (stateOf previous object ts).orderBy) :
    o.field = [] ∨ o.Legible := by
  obtain ⟨body, hbody, item, hitem, rfl⟩ := exists_body_of_mem_orderBy ho
  have hsep : Kind.isComma .openParen = false := rfl
  rw [splitItems_eq] at hitem
  obtain ⟨hpart, hlevel⟩ := Clause.part_of_mem hsep h hbody hitem
  exact OrderBy.legible_ofItem hpart (hlevel hbal)

/-- An imported state is legible if it is steady. -/
theorem legible_import (hobject : Token.objectName? ts = some object)
    (hs : (stateOf previous object ts).Steady) : (stateOf previous object ts).Legible where
  object := exists_tokenize_of_objectName? h hobject
  object_unread := by
    obtain ⟨k, hk, hword⟩ := exists_tokenize_of_objectName? h hobject
    have hkinds : kindsOf (stateOf previous object ts).object = [k] := by
      rw [kindsOf, show (stateOf previous object ts).object = object from rfl, hk]
      rfl
    rw [hkinds]
    refine (Kind.IsPath.word hword).unread fun l hl => ?_
    exact hs.names (stateOf previous object ts).object (by simp) l (by rwa [hkinds])
  selection _ hx := itemReadsBack_import h hbal hx
  selection_unread _ hx := unread_import h hbal hs hx
  conditions f hf := by
    obtain ⟨c, hc, hfield⟩ := field_import h hf
    have heq : f.condition = ⟨c.field, f.operator, f.right⟩ := by
      rw [Filter.condition, hfield, hc.field.tight.trim_eq]
    rw [heq]
    exact ⟨hc.field, hc.isField, hc.field_alone, (hs.filters f hf).readsAlone,
      (hs.filters f hf).right_ne_nil⟩
  order o ho := order_import h hbal ho
  order_unread hnil o ho := by
    have hwhere := hs.order hnil o ho
    refine ⟨?_, fun {rest} _ => (hwhere.head rest).imp fun ls hls => ?_⟩
    · rcases order_import h hbal ho with hempty | hlegible
      · rw [hempty, kindsOf_nil]
        rfl
      · exact depth_of_level? hlegible.balanced
    · cases ls with
      | nil => cases hls
      | cons k ls => simpa using Phrase.eq_of_leadsKinds hls

end Imported

/-- Composing an imported state is stable: the query of the state is imported again, and the state
that it becomes has the same query. -/
theorem import?_query_of_import? {text : Text} {previous s : State} {r : Report}
    (h : import? text previous = .ok (s, r)) (hs : s.Steady) :
    ∃ s' r', import? s.query s = .ok (s', r') ∧ s'.query = s.query := by
  obtain ⟨object, hstretch, hbal, hobject, rfl, -⟩ := exists_of_import? h
  have hlegible := legible_import hstretch hbal hobject hs
  exact ⟨_, _, hlegible.import?_query _, hlegible.query_stateOf (sorted_import hstretch hbal) _
    fun f hf n => (hs.filters f hf).right_reread n⟩

/-- Opportunities with a quoted condition, a list, a subquery and a group in the place of a list, an
order and a limit. -/
def openOpportunities : State :=
  { ofObject "Opportunity".toList with
    fields := ["Id".toList]
    lookups := ["Owner.Name".toList]
    filters :=
      [⟨"f1".toList, "StageName".toList, .equal, "O'Brien".toList⟩,
        ⟨"f2".toList, "Type".toList, .isIn, "1, New".toList⟩,
        ⟨"f3".toList, "AccountId".toList, .isIn, "(SELECT Id FROM Account)".toList⟩,
        ⟨"f4".toList, "Probability".toList, .notIn, "(90, 100)".toList⟩]
    orderBy := some ⟨"CloseDate".toList, .descending⟩
    limit := 5 }

theorem steady_openOpportunities : openOpportunities.Steady := by
  refine ⟨by decide +kernel, ?_, by rintro ⟨⟩⟩
  rintro f (_ | ⟨_, _ | ⟨_, _ | ⟨_, _ | ⟨_, ⟨⟩⟩⟩⟩⟩)
  · exact .single rfl (fun h => absurd h (by decide +kernel)) fun h => absurd h.1 (by decide +kernel)
  · exact .list rfl (by decide +kernel) (.of_no_dates (by decide +kernel) (by decide +kernel))
  · exact .subquery rfl (by rw [Closed]; decide +kernel) (by decide +kernel)
  · exact .group rfl ["90".toList, "100".toList] (by decide +kernel)
      (.of_no_dates (by decide +kernel) (by decide +kernel))

/-- A query on these opportunities that is written in another way than the state writes it. -/
def openOpportunitiesText : Text :=
  "select Id, Owner.Name from Opportunity where StageName = 'O\\'Brien' and ".toList ++
    "Type in (1, 'New') and AccountId in (SELECT Id FROM Account) and ".toList ++
    "Probability not in '(90, 100)' order by CloseDate desc limit 5".toList

theorem import?_openOpportunitiesText : import? openOpportunitiesText initial =
    .ok (openOpportunities, ⟨[], [], [], [], false⟩) := by
  decide +kernel

/-- The opportunities are imported from another spelling of their query. -/
theorem import?_query_of_import?_openOpportunities :
    openOpportunities.Steady ∧
      (import? openOpportunitiesText initial = .ok (openOpportunities, ⟨[], [], [], [], false⟩)) ∧
      ∃ s' r', import? openOpportunities.query openOpportunities = .ok (s', r') ∧
        s'.query = openOpportunities.query := by
  have himport := import?_openOpportunitiesText
  have hs := steady_openOpportunities
  exact ⟨hs, himport, import?_query_of_import? himport hs⟩

/-- A quoted text that spells a bind variable is written without its quotes, and the name of the
variable is then read as a clause. -/
theorem not_import?_query_of_import? :
    ¬ ∀ (text : Text) (previous s : State) (r : Report), import? text previous = .ok (s, r) →
      ∃ s' r', import? s.query s = .ok (s', r') ∧ s'.query = s.query := by
  intro h
  have himport : import? "SELECT Id FROM Account WHERE Name = ':limit'".toList initial =
      .ok (accountNamed ":limit".toList, ⟨[], [], [], [], false⟩) := by decide +kernel
  obtain ⟨s', r', himport', hquery⟩ := h _ _ _ _ himport
  have hread : import? (accountNamed ":limit".toList).query (accountNamed ":limit".toList) =
      .ok ({ accountNamed ":limit".toList with
        filters := [⟨"f1".toList, "Name".toList, .equal, ":".toList⟩] },
        ⟨[], [], [], ["LIMIT ".toList], false⟩) := by decide +kernel
  rw [hread] at himport'
  cases himport'
  revert hquery
  decide +kernel

end Soql.Builder.State
