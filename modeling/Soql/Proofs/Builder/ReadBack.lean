import Soql.Proofs.Builder.Legible
import Soql.Proofs.Builder.Subquery

/-!
# The state that is read back

The query of a legible state can be imported whatever the state was before, and the state that it
becomes is known part by part: names, order and counts are those that were written, conditions have
the values that their right-hand sides are imported as.
-/

namespace Soql.Builder

open Kind Token

/-- What does not depend on the numbers that items are given is found item by item. -/
theorem map_numbered {α β γ : Type} {l : List α} {g : α → Nat → β} {key : β → γ} {key' : α → γ}
    (h : ∀ a ∈ l, ∀ n, key (g a n) = key' a) :
    (l.zipIdx.map fun (a, k) => g a (k + 1)).map key = l.map key' := by
  have hfst : (l.zipIdx.map fun (a, k) => g a (k + 1)).map key = (l.zipIdx.map Prod.fst).map key' := by
    rw [List.map_map, List.map_map]
    exact List.map_congr_left fun p hp => h p.1 (List.fst_mem_of_mem_zipIdx hp) _
  rw [hfst, List.zipIdx_map_fst]

/-- A filter as it is read back from the condition that it is written as. -/
def Filter.reread (number : Nat) (f : Filter) : Filter :=
  Filter.ofCondition number { f.condition with rawValue := f.right.trim }

/-- The conditions that are written depend on the fields and on what is written of the filters. -/
theorem writeFilters_congr {fs gs : List Filter}
    (h : fs.map (fun f => (f.field.trim, f.write)) = gs.map fun f => (f.field.trim, f.write)) :
    writeFilters fs = writeFilters gs := by
  have hkey : ∀ fs : List Filter, writeFilters fs = Text.join " AND ".toList
      (((fs.map fun f => (f.field.trim, f.write)).filter (!·.1.isEmpty)).map Prod.snd) := by
    intro fs
    rw [writeFilters, List.filter_map, List.map_map]
    rfl
  rw [hkey, h, ← hkey]

namespace State

/-- The parts of the select list are where they belong. -/
structure Sorted (s : State) : Prop where
  fields : ∀ x ∈ s.fields, Piece x ∧ SelectItem.ofText x = .field
  lookups : ∀ x ∈ s.lookups, Piece x ∧ SelectItem.ofText x = .lookup
  subqueries : ∀ q ∈ s.subqueries, ∃ items, q.Legible items

/-- A path is no subquery. -/
theorem ofItem?_of_path {x : Text}
    (h : SelectItem.ofText x = .field ∨ SelectItem.ofText x = .lookup) :
    Subquery.ofItem? x = none := by
  cases hbody : subqueryBody? x with
  | none => simp [Subquery.ofItem?, hbody]
  | some body =>
    rw [SelectItem.ofText, hbody] at h
    rcases h with h | h <;> cases h

/-- Fields, lookups and subqueries are selected in this order. -/
theorem Sorted.selectionItems_eq {s : State} (h : s.Sorted) : s.selectionItems =
    s.fields ++ (s.lookups ++ s.subqueries.map Subquery.write) := by
  have hne : ∀ x ∈ s.fields ++ s.lookups, Text.trim x = x ∧ x ≠ [] := by
    intro x hx
    have hpath : Piece x ∧ (SelectItem.ofText x = .field ∨ SelectItem.ofText x = .lookup) := by
      rcases List.mem_append.1 hx with hx | hx
      · exact ⟨(h.fields x hx).1, .inl (h.fields x hx).2⟩
      · exact ⟨(h.lookups x hx).1, .inr (h.lookups x hx).2⟩
    obtain ⟨k, ks, hk, -⟩ := (SelectItem.isPath_of_ofText hpath.2).isWord_head
    exact ⟨hpath.1.tight.trim_eq, ne_nil_of_kindsOf hk⟩
  have hmap : (s.fields ++ s.lookups).map Text.trim = s.fields ++ s.lookups :=
    (List.map_congr_left fun x hx => (hne x hx).1).trans (List.map_id' _)
  have hkeep : s.subqueries.filter (!·.relationship.trim.isEmpty) = s.subqueries := by
    rw [List.filter_eq_self]
    intro q hq
    obtain ⟨items, hq⟩ := h.subqueries q hq
    obtain ⟨hpiece, hrel⟩ := hq.piece_relationship
    simpa [hpiece.tight.trim_eq] using hrel
  rw [selectionItems, hmap, hkeep, List.filter_eq_self.2, List.append_assoc]
  intro x hx
  simpa using (hne x hx).2

namespace Sorted

variable {s : State} (h : s.Sorted)

include h

/-- The items are paths and legible subqueries. -/
theorem forall_selectionItems {P : Text → Prop}
    (hpath : ∀ x ∈ s.fields ++ s.lookups, IsPath (kindsOf x) → P x)
    (hsubquery : ∀ (q : Subquery) (items : List Text), q.Legible items → P q.write) :
    ∀ x ∈ s.selectionItems, P x := by
  intro x hx
  rw [h.selectionItems_eq, List.mem_append, List.mem_append] at hx
  rcases hx with hx | hx | hx
  · exact hpath x (List.mem_append_left _ hx) (SelectItem.isPath_of_ofText (.inl (h.fields x hx).2))
  · exact hpath x (List.mem_append_right _ hx) (SelectItem.isPath_of_ofText (.inr (h.lookups x hx).2))
  · obtain ⟨q, hq, rfl⟩ := List.mem_map.1 hx
    obtain ⟨items, hlegible⟩ := h.subqueries q hq
    exact hsubquery q items hlegible

/-- The items of a shape are those that are kept apart for it. -/
theorem filter_selectionItems (shape : SelectItem) :
    s.selectionItems.filter (SelectItem.ofText · == shape) =
      (if shape = .field then s.fields else []) ++ ((if shape = .lookup then s.lookups else []) ++
        if shape = .subquery then s.subqueries.map Subquery.write else []) := by
  have hshape : ∀ (xs : List Text) (shape' : SelectItem), (∀ x ∈ xs, SelectItem.ofText x = shape') →
      xs.filter (SelectItem.ofText · == shape) = if shape = shape' then xs else [] := by
    intro xs shape' hxs
    split
    · next heq => exact List.filter_eq_self.2 fun x hx => by simp [hxs x hx, heq]
    · next hne => exact List.filter_eq_nil_iff.2 fun x hx => by simpa [hxs x hx] using Ne.symm hne
  rw [h.selectionItems_eq, List.filter_append, List.filter_append,
    hshape _ _ fun x hx => (h.fields x hx).2, hshape _ _ fun x hx => (h.lookups x hx).2,
    hshape _ .subquery]
  intro x hx
  obtain ⟨q, hq, rfl⟩ := List.mem_map.1 hx
  obtain ⟨items, hq⟩ := h.subqueries q hq
  exact hq.ofText_write

/-- The subqueries of a sorted state are read again from what is selected. -/
theorem filterMap_subqueries : s.selectionItems.filterMap Subquery.ofItem? =
    s.subqueries.map Subquery.reread := by
  have hfields : s.fields.filterMap Subquery.ofItem? = [] :=
    List.filterMap_eq_nil_iff.2 fun x hx => ofItem?_of_path (.inl (h.fields x hx).2)
  have hlookups : s.lookups.filterMap Subquery.ofItem? = [] :=
    List.filterMap_eq_nil_iff.2 fun x hx => ofItem?_of_path (.inr (h.lookups x hx).2)
  have hsubqueries : (s.subqueries.map Subquery.write).filterMap Subquery.ofItem? =
      s.subqueries.map Subquery.reread := by
    rw [List.filterMap_map, ← List.filterMap_eq_map]
    refine List.filterMap_congr fun q hq => ?_
    obtain ⟨items, hq⟩ := h.subqueries q hq
    rw [Function.comp_apply, Function.comp_apply, Subquery.reread, hq.ofItem?_write]
    rfl
  rw [h.selectionItems_eq, List.filterMap_append, List.filterMap_append, hfields, hlookups,
    hsubqueries]
  simp

end Sorted

theorem pageCount?_count (n : UInt32) :
    (pageCount? (if n = 0 then none else some n.toNat)).getD 0 = n := by
  split
  · next hn => rw [hn]; rfl
  · rw [pageCount?, Option.bind_some, if_pos n.toNat_lt, UInt32.ofNat_toNat]
    rfl

namespace Legible

variable {s : State} (h : s.Legible)

include h

/-- The query of a legible state is imported. -/
theorem import?_query (previous : State) : import? s.query previous =
    .ok (stateOf previous s.object (tokenize s.query), reportOf (tokenize s.query)) := by
  have himportable : importable (tokenize s.query) = .ok s.object := by
    rw [importable, if_neg (by simpa using h.stretch.closed),
      if_neg (by simpa using isBalanced_iff.2 h.balanced), h.selection_body?, h.objectName?]
    rfl
  simp only [import?, himportable]
  rfl

variable (hs : s.Sorted) (previous : State)

/-- An order without a field is lost, and no other. -/
theorem orderBy_stateOf : (stateOf previous s.object (tokenize s.query)).orderBy =
    s.orderBy.filter (!·.field.isEmpty) := by
  change (orderItems (tokenize s.query)).head?.map OrderBy.ofItem = _
  rw [h.orderItems_eq]
  cases horder : s.orderBy.filter (!·.field.isEmpty) with
  | none => rfl
  | some o => exact congrArg some (h.of_mem_filter_orderBy horder).ofItem_write

theorem limit_stateOf : (stateOf previous s.object (tokenize s.query)).limit = s.limit := by
  change (pageCount? (Query.ofTokens (tokenize s.query)).limit).getD 0 = _
  rw [h.limit_eq, pageCount?_count]

theorem offset_stateOf : (stateOf previous s.object (tokenize s.query)).offset = s.offset := by
  change (pageCount? (Query.ofTokens (tokenize s.query)).offset).getD 0 = _
  rw [h.offset_eq, pageCount?_count]

/-- The filters are read again in their places. -/
theorem filters_stateOf : (stateOf previous s.object (tokenize s.query)).filters =
    s.filters.zipIdx.map fun (f, k) => f.reread (k + 1) := by
  change ((fragments (tokenize s.query)).filterMap Condition.ofText?).zipIdx.map _ = _
  rw [h.filterMap_fragments, List.zipIdx_map, List.map_map]
  rfl

include hs

/-- What is selected comes back in its list, and subqueries are told by what was known. -/
theorem selection_stateOf :
    (stateOf previous s.object (tokenize s.query)).fields =
      (if s.selectionItems.isEmpty then ["Id".toList] else s.fields) ∧
    (stateOf previous s.object (tokenize s.query)).lookups = s.lookups ∧
    (stateOf previous s.object (tokenize s.query)).subqueries =
      (s.subqueries.map Subquery.reread).zipIdx.map
        fun (q, k) => q.identify previous.subqueries (k + 1) := by
  have hfields := hs.filter_selectionItems .field
  have hlookups := hs.filter_selectionItems .lookup
  have hid : SelectItem.ofText "Id".toList = .field := by decide +kernel
  refine ⟨?_, ?_, ?_⟩
  · change (Query.ofTokens (tokenize s.query)).selectItems.filter _ = _
    rw [h.selectItems_eq, orId]
    split
    · rw [List.filter_singleton, hid]
      rfl
    · simpa using hfields
  · change (Query.ofTokens (tokenize s.query)).selectItems.filter _ = _
    rw [h.selectItems_eq, orId]
    split
    · next hnil =>
      rw [List.isEmpty_iff.1 hnil] at hlookups
      have hnone : s.lookups = [] := by simpa using hlookups
      rw [hnone, List.filter_singleton, hid]
      rfl
    · simpa using hlookups
  · change ((Query.ofTokens (tokenize s.query)).selectItems.filterMap Subquery.ofItem?).zipIdx.map _ = _
    rw [h.selectItems_eq, orId, ← hs.filterMap_subqueries]
    split
    · next hnil =>
      rw [List.isEmpty_iff.1 hnil, List.filterMap_cons_none (ofItem?_of_path (.inl hid))]
    · rfl

/-- The state that is read back is sorted. -/
theorem sorted_stateOf : (stateOf previous s.object (tokenize s.query)).Sorted := by
  obtain ⟨hfields, hlookups, hsubqueries⟩ := h.selection_stateOf hs previous
  refine ⟨fun x hx => ?_, fun x hx => ?_, fun q hq => ?_⟩
  · rw [hfields] at hx
    split at hx
    · rw [List.mem_singleton.1 hx]
      exact ⟨plainPath_id.piece, by decide +kernel⟩
    · exact hs.fields x hx
  · rw [hlookups] at hx
    exact hs.lookups x hx
  · rw [hsubqueries] at hq
    obtain ⟨p, hp, rfl⟩ := List.mem_map.1 hq
    obtain ⟨q', hq', hread⟩ := List.mem_map.1 (List.fst_mem_of_mem_zipIdx hp)
    obtain ⟨items, hlegible⟩ := hs.subqueries q' hq'
    exact ⟨_, (hread ▸ hlegible.reread).identify previous.subqueries _⟩

/-- It selects the same. -/
theorem selectionItems_stateOf :
    (stateOf previous s.object (tokenize s.query)).selectionItems = orId s.selectionItems := by
  obtain ⟨hfields, hlookups, hsubqueries⟩ := h.selection_stateOf hs previous
  have hwrite : (stateOf previous s.object (tokenize s.query)).subqueries.map Subquery.write =
      s.subqueries.map Subquery.write := by
    rw [hsubqueries, map_numbered fun q _ n => Subquery.write_identify previous.subqueries n q,
      List.map_map]
    refine List.map_congr_left fun q hq => ?_
    obtain ⟨items, hq⟩ := hs.subqueries q hq
    exact hq.write_reread
  rw [(h.sorted_stateOf hs previous).selectionItems_eq, hwrite, hfields, hlookups, orId]
  split
  · next hnil =>
    have hparts := hs.selectionItems_eq
    rw [List.isEmpty_iff.1 hnil, eq_comm, List.append_eq_nil_iff, List.append_eq_nil_iff] at hparts
    rw [hparts.2.1, hparts.2.2]
    rfl
  · exact hs.selectionItems_eq.symm

/-- The query of the state that is read back is the same if every right-hand side is. -/
theorem query_stateOf (hright : ∀ f ∈ s.filters, ∀ n, (f.reread n).right = f.right) :
    (stateOf previous s.object (tokenize s.query)).query = s.query := by
  have hselection : (stateOf previous s.object (tokenize s.query)).selection = s.selection := by
    rw [selection_eq, selection_eq, h.selectionItems_stateOf hs, orId_orId]
  have hfilters : writeFilters (stateOf previous s.object (tokenize s.query)).filters =
      writeFilters s.filters := by
    refine writeFilters_congr ?_
    rw [h.filters_stateOf]
    refine map_numbered (g := fun f n => Filter.reread n f) fun f hf n => ?_
    have hfield : (f.reread n).field.trim = f.field.trim := Text.trim_trim _
    rw [Filter.write_eq, Filter.write_eq, Filter.condition, hright f hf n, hfield]
    rfl
  have horder : orderClause (stateOf previous s.object (tokenize s.query)).orderBy =
      orderClause s.orderBy := by
    rw [h.orderBy_stateOf]
    cases horder : s.orderBy with
    | none => rfl
    | some o =>
      rw [Option.filter_some]
      split
      · rfl
      · next hnil =>
        have : o.field = [] := by simpa using hnil
        simp [orderClause, this]
  have harguments : (stateOf previous s.object (tokenize s.query)).arguments = s.arguments := by
    unfold arguments conditionClause
    rw [hfilters, horder, h.limit_stateOf, h.offset_stateOf]
  have hobject : (stateOf previous s.object (tokenize s.query)).object = s.object := rfl
  generalize stateOf previous s.object (tokenize s.query) = t at hselection harguments hobject
  rw [query, query, hselection, harguments, hobject]

end Legible

end State

end Soql.Builder
