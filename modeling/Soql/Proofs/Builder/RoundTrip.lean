import Soql.Proofs.Builder.Plain

/-!
# Simple states survive the round trip

A simple state has plain names, subqueries on different relationships, and filters that are numbered
and read back. Its query is imported as the state, whatever state was there before: what no query
states comes from that one, and all else from the text. So the state itself is imported without a
change. Nothing is left out: the report at most says that a list was written with an `OR` in it.
-/

namespace Soql

open Kind Token Literal

namespace Builder

/-- A subquery with plain names. -/
structure Subquery.Plain (q : Subquery) : Prop where
  relationship : PlainName q.relationship
  fields : ∃ items, items ≠ [] ∧ (∀ x ∈ items, PlainPath x) ∧ q.fields = Text.join ", ".toList items
  trim : q.clauses.trim = q.clauses
  closed : Closed q.clauses
  balanced : Balanced (kindsOf q.clauses)

/-- Plain paths and legible subqueries are read back, and no clause opens in them. -/
theorem readsBack_of_path_or_subquery {x : Text} (h : PlainPath x ∨
    ∃ (q : Subquery) (items : List Text), q.Legible items ∧ x = q.write) :
    ItemReadsBack x ∧ Unread (kindsOf x) := by
  rcases h with hpath | ⟨q, items, hlegible, rfl⟩
  · exact ⟨.of_plainPath hpath, hpath.unread⟩
  · exact ⟨hlegible.readsBack_write, hlegible.unread_write⟩

/-- A list is written with the word `OR` in it: in a subquery, or in the name of a bind variable. -/
def Filter.writesOr (f : Filter) : Bool :=
  f.operator.takesList && (tokenize f.right).any (·.kind == .keyword .OR)

/-- A state in plain names. -/
structure State.Simple (s : State) : Prop where
  object : PlainName s.object
  fields : ∀ x ∈ s.fields, PlainName x
  lookups : ∀ x ∈ s.lookups, ∃ names, 2 ≤ names.length ∧ (∀ n ∈ names, PlainName n) ∧
    x = Text.join ['.'] names
  selects : s.fields ≠ [] ∨ s.lookups ≠ [] ∨ s.subqueries ≠ []
  subqueries : ∀ q ∈ s.subqueries, q.Plain
  relationships : s.subqueries.Pairwise fun p q =>
    Text.eqIgnoreCase p.relationship q.relationship = false
  filters : ∀ f ∈ s.filters, f.Plain
  numbers : ∀ p ∈ s.filters.zipIdx, p.1.id = 'f' :: Text.ofNat (p.2 + 1)
  order : ∀ o ∈ s.orderBy, PlainPath o.field

namespace Subquery.Plain

variable {q : Subquery} (h : q.Plain)

include h

/-- A plain subquery is legible. -/
theorem exists_legible : ∃ items, items ≠ [] ∧ q.Legible items := by
  obtain ⟨items, hne, hpaths, hfields⟩ := h.fields
  exact ⟨items, hne, ⟨⟨_, h.relationship, rfl⟩, hfields, fun x hx => .of_plainPath (hpaths x hx),
    ⟨Text.trim_eq_self_iff.1 h.trim, h.closed⟩, h.balanced⟩⟩

/-- A subquery is read back but for its identity and its object. -/
theorem reread_eq : q.reread = { q with id := [], childObject := [] } := by
  obtain ⟨items, hne, hlegible⟩ := h.exists_legible
  rw [hlegible.reread_eq, orId, if_neg (by simpa using hne), ← hlegible.fields]

end Subquery.Plain

/-- Numbered items that are each read as they were are read as the same list. -/
theorem map_zipIdx_eq_self {α : Type} {l : List α} {g : α → Nat → α}
    (h : ∀ p ∈ l.zipIdx, g p.1 (p.2 + 1) = p.1) : (l.zipIdx.map fun (a, k) => g a (k + 1)) = l := by
  have hfst : (l.zipIdx.map fun (a, k) => g a (k + 1)) = l.zipIdx.map Prod.fst :=
    List.map_congr_left h
  rw [hfst, List.zipIdx_map_fst]

/-- A subquery is told from the others by its relationship. -/
theorem find?_relationship {qs : List Subquery} (h : qs.Pairwise fun p q =>
    Text.eqIgnoreCase p.relationship q.relationship = false) {q : Subquery} (hq : q ∈ qs) :
    qs.find? (fun k => Text.eqIgnoreCase k.relationship q.relationship) = some q := by
  induction qs with
  | nil => cases hq
  | cons k qs ih =>
    obtain ⟨hk, hqs⟩ := List.pairwise_cons.1 h
    rcases List.mem_cons.1 hq with rfl | hq
    · exact List.find?_cons_of_pos (Text.eqIgnoreCase_iff.2 rfl)
    · rw [List.find?_cons_of_neg (by simp [hk q hq]), ih hqs hq]

section Or

/-- Whether an `OR` is used is a matter of kinds. -/
theorem any_or_iff (s : Text) :
    (tokenize s).any (·.kind == .keyword .OR) = true ↔ .keyword .OR ∈ kindsOf s := by
  simp [kindsOf, kinds]

/-- A text that is written holds the word only in the name of a bind variable. -/
theorem isBindVariable_of_or {s : Text} (h : .keyword .OR ∈ kindsOf (writeText s)) :
    isBindVariable s = true ∧ writeText s = s := by
  rcases (form s).bind_or_value with hbind | hvalue
  · exact hbind
  · rcases hvalue .OR h with h | h | h <;> cases h

/-- One plain value is never written with an `OR`. -/
theorem PlainValue.or_not_mem {v : Text} (h : PlainValue v) :
    .keyword .OR ∉ kindsOf (writeValue v) := by
  rw [writeValue_eq, h.unquote_eq]
  intro hor
  obtain ⟨hbind, hwrite⟩ := isBindVariable_of_or hor
  rw [hwrite] at hor
  cases h.names hbind _ hor rfl

/-- An `OR` that is written stood in the item. -/
theorem PlainItem.or_mem {x : Text} (h : PlainItem x)
    (hor : .keyword .OR ∈ kindsOf (writeText (unquote x))) : .keyword .OR ∈ kindsOf x := by
  obtain ⟨hbind, hwrite⟩ := isBindVariable_of_or hor
  cases h with
  | bare plain lower => rwa [hwrite, (tight_of_plain plain).1] at hor
  | quoted s text kept date =>
    rw [text, unquote_encode] at hbind
    rw [isPlainValue_of_bind hbind] at kept
    cases kept

/-- A list is written with the word only if the list has it. -/
theorem PlainList.or_mem {v : Text} (h : PlainList v) (hor : .keyword .OR ∈ kindsOf (writeList v)) :
    .keyword .OR ∈ kindsOf v := by
  have hcomma : Kind.isComma (.keyword .OR) = false := rfl
  cases h with
  | items xs text plain levels =>
    rw [text, writeList_items plain levels, kindsOf_group closed_join_writeText] at hor
    have hor : .keyword .OR ∈ kindsOf (Text.join ", ".toList ((xs.map unquote).map writeText)) := by
      simpa using hor
    rw [separator_comma.mem_kindsOf_join hcomma fun w hw => ?_] at hor
    · simp only [List.mem_map, exists_exists_and_eq_and] at hor
      obtain ⟨x, hx, hor⟩ := hor
      rw [text, separator_comma.mem_kindsOf_join hcomma fun y hy => (plain y hy).listItem.piece.closed]
      exact ⟨x, hx, (plain x hx).or_mem hor⟩
    · obtain ⟨u, -, rfl⟩ := List.mem_map.1 hw
      exact (form u).closed
  | subquery trim closed query => rwa [writeList_subquery trim query] at hor

namespace Filter.Plain

variable {f : Filter} (h : f.Plain)

include h

/-- A list without an `OR` is written without one. -/
theorem writesOr_eq_false (hor : f.operator.takesList = true → .keyword .OR ∉ kindsOf f.value) :
    f.writesOr = false := by
  rw [Filter.writesOr, Bool.and_eq_false_imp]
  intro hop
  rw [Filter.right, if_pos hop, Bool.eq_false_iff, ne_eq, any_or_iff]
  exact fun hwrite => hor hop ((h.plainList hop).or_mem hwrite)

/-- The word stands in a condition only if it stands in a list. -/
theorem or_mem_write_iff : .keyword .OR ∈ kindsOf f.condition.write ↔ f.writesOr = true := by
  have hfield : .keyword .OR ∉ kindsOf f.field := by
    intro hor
    rcases h.field.kinds_eq _ hor with hk | hk <;> cases hk
  have hop : .keyword .OR ∉ kindsOf f.operator.spelling := by
    rw [kindsOf, Operator.tokenize_spelling]
    cases f.operator <;> decide
  have hkinds : kindsOf f.condition.write =
      kindsOf f.field ++ kindsOf f.operator.spelling ++ kindsOf f.right := by
    have hclosed := h.field.piece.closed
    rw [Condition.write, Filter.condition, h.field.piece.tight.trim_eq,
      kindsOf_space (hclosed.space _ f.operator.closed_spelling), kindsOf_space hclosed]
  rw [hkinds, List.mem_append, List.mem_append, or_iff_right (by tauto), Filter.writesOr,
    Bool.and_eq_true, any_or_iff, iff_and_self]
  -- a single value is quoted if it holds the word, so the operator takes a list
  intro hor
  by_contra hsingle
  rw [Bool.not_eq_true] at hsingle
  rw [Filter.right, if_neg (by simp [hsingle])] at hor
  exact (h.plainValue hsingle).or_not_mem hor

end Filter.Plain

end Or

namespace State.Simple

variable {s : State} (h : s.Simple)

include h

theorem lookup {x : Text} (hx : x ∈ s.lookups) : PlainPath x ∧ SelectItem.ofText x = .lookup := by
  obtain ⟨names, hlength, hnames, rfl⟩ := h.lookups x hx
  refine ⟨⟨names, ?_, hnames, rfl⟩, ofText_join_point hlength hnames⟩
  rintro rfl
  cases hlength

/-- A simple state has each item in its list. -/
theorem sorted : s.Sorted where
  fields x hx := ⟨(h.fields x hx).plainPath.piece, (h.fields x hx).ofText_eq⟩
  lookups x hx := ⟨(h.lookup hx).1.piece, (h.lookup hx).2⟩
  subqueries q hq := by
    obtain ⟨items, -, hlegible⟩ := (h.subqueries q hq).exists_legible
    exact ⟨items, hlegible⟩

/-- The items of the select list are paths and subqueries. -/
theorem of_mem_selectionItems {x : Text} (hx : x ∈ s.selectionItems) :
    PlainPath x ∨ ∃ (q : Subquery) (items : List Text), q.Legible items ∧ x = q.write := by
  rw [h.sorted.selectionItems_eq, List.mem_append, List.mem_append] at hx
  rcases hx with hx | hx | hx
  · exact .inl (h.fields x hx).plainPath
  · exact .inl (h.lookup hx).1
  · obtain ⟨q, hq, rfl⟩ := List.mem_map.1 hx
    obtain ⟨items, -, hlegible⟩ := (h.subqueries q hq).exists_legible
    exact .inr ⟨q, items, hlegible, rfl⟩

/-- A simple state selects something. -/
theorem selectionItems_ne_nil : s.selectionItems ≠ [] := by
  rw [h.sorted.selectionItems_eq, ne_eq, List.append_eq_nil_iff, List.append_eq_nil_iff,
    List.map_eq_nil_iff]
  rintro ⟨hfields, hlookups, hsubqueries⟩
  rcases h.selects with hne | hne | hne <;> contradiction

/-- A simple state is legible. -/
theorem legible : s.Legible :=
  .of_plainNames h.object (fun _ hx => readsBack_of_path_or_subquery (h.of_mem_selectionItems hx))
    (fun f hf => (h.filters f hf).readsBack) h.order

/-- The order of a simple state has a field. -/
theorem filter_orderBy : s.orderBy.filter (!·.field.isEmpty) = s.orderBy := by
  cases horder : s.orderBy with
  | none => rfl
  | some o =>
    have hne : o.field ≠ [] := (OrderBy.legible_of_plainPath (h.order o horder)).ne_nil
    simpa [Option.filter] using hne

/-- Numbered filters are read back. -/
theorem filters_reread : (s.filters.zipIdx.map fun (f, k) => f.reread (k + 1)) = s.filters :=
  map_zipIdx_eq_self (g := fun f n => f.reread n) fun p hp =>
    (h.filters p.1 (List.fst_mem_of_mem_zipIdx hp)).reread_eq (h.numbers p hp)

/-- After the state itself, every subquery gets its identity and its object back. -/
theorem subqueries_identify : (s.subqueries.zipIdx.map fun (q, k) =>
    ({ q with id := [], childObject := [] } : Subquery).identify s.subqueries (k + 1)) =
      s.subqueries := by
  refine map_zipIdx_eq_self
    (g := fun q n => ({ q with id := [], childObject := [] } : Subquery).identify s.subqueries n)
    fun p hp => ?_
  have hmem := List.fst_mem_of_mem_zipIdx hp
  rw [Subquery.identify, find?_relationship h.relationships hmem]

/-- What the query of a simple state becomes after any other state: all that a query states is the
state's own, and the rest is what was there before. -/
theorem stateOf_query (previous : State) : stateOf previous s.object (tokenize s.query) =
    { s with
      enabled := previous.enabled
      after := previous.after
      subqueries := s.subqueries.zipIdx.map fun (q, k) =>
        ({ q with id := [], childObject := [] } : Subquery).identify previous.subqueries (k + 1) } := by
  obtain ⟨hfields, hlookups, hsubqueries⟩ := h.legible.selection_stateOf h.sorted previous
  rw [if_neg (by simpa using h.selectionItems_ne_nil)] at hfields
  have hreread : s.subqueries.map Subquery.reread =
      s.subqueries.map fun q => { q with id := [], childObject := [] } :=
    List.map_congr_left fun q hq => (h.subqueries q hq).reread_eq
  rw [hreread, List.zipIdx_map, List.map_map] at hsubqueries
  have hfilters := h.legible.filters_stateOf previous
  rw [h.filters_reread] at hfilters
  have horder := h.legible.orderBy_stateOf previous
  rw [h.filter_orderBy] at horder
  have hlimit := h.legible.limit_stateOf previous
  have hoffset := h.legible.offset_stateOf previous
  have hrest : (stateOf previous s.object (tokenize s.query)).enabled = previous.enabled ∧
      (stateOf previous s.object (tokenize s.query)).object = s.object ∧
      (stateOf previous s.object (tokenize s.query)).after = previous.after := ⟨rfl, rfl, rfl⟩
  -- every part is known by now, and the query itself no longer matters
  generalize stateOf previous s.object (tokenize s.query) = t at *
  obtain ⟨enabled, object, fields, lookups, subqueries, filters, orderBy, limit, offset, after⟩ := t
  simp only at hfields hlookups hsubqueries hfilters horder hlimit hoffset hrest
  rw [hfields, hlookups, hsubqueries, hfilters, horder, hlimit, hoffset, hrest.1, hrest.2.1, hrest.2.2]
  rfl

/-- The builder has a place for all that a simple state selects, so no item is reported. -/
theorem isSupported_of_mem {x : Text} (hx : x ∈ s.selectionItems) : isSupported x = true := by
  rcases h.of_mem_selectionItems hx with hpath | ⟨q, items, hlegible, rfl⟩
  · rw [isSupported, SelectItem.ofText_of_isPath hpath.piece.tight hpath.isPath]
    cases (tokenize x).length == 1 <;> rfl
  · rw [isSupported, hlegible.ofText_write, hlegible.ofItem?_write]
    rfl

/-- The counts of a state fit a state. -/
theorem droppedPaging_query :
    droppedCount "LIMIT".toList (Query.ofTokens (tokenize s.query)).limit
        (Query.ofTokens (tokenize s.query)).rawLimit = [] ∧
      droppedCount "OFFSET".toList (Query.ofTokens (tokenize s.query)).offset
        (Query.ofTokens (tokenize s.query)).rawOffset = [] := by
  have hcount (keyword : Text) (n : UInt32) : droppedCount keyword
      (if n = 0 then none else some n.toNat) (if n = 0 then none else some (Text.ofNat n.toNat)) =
        [] := by
    split
    · rfl
    · simp [droppedCount, pageCount?, n.toNat_lt]
  have hlimit : (Query.ofTokens (tokenize s.query)).rawLimit = _ := h.legible.count_body?.1
  have hoffset : (Query.ofTokens (tokenize s.query)).rawOffset = _ := h.legible.count_body?.2
  rw [hlimit, hoffset, h.legible.limit_eq, h.legible.offset_eq]
  exact ⟨hcount _ _, hcount _ _⟩

/-- The report on an `OR` is about the lists of the filters, as nothing else in the query has
one. -/
theorem usesOr_query : usesOr (tokenize s.query) = s.filters.any Filter.writesOr := by
  rw [usesOr, h.legible.condition_body?]
  split
  · next hnil => rw [hnil]; rfl
  · have hpiece : ∀ x ∈ (s.filters.map Filter.condition).map Condition.write, Piece x ∧ x ≠ [] := by
      simp only [List.map_map, List.mem_map, forall_exists_index, and_imp,
        forall_apply_eq_imp_iff₂]
      exact fun f hf => (h.filters f hf).piece_write
    have hand : (Kind.keyword .OR == .keyword .AND) = false := rfl
    rw [Option.any_some, writeFilters_eq h.legible.conditions,
      (Text.tight_join fun x hx => ⟨(hpiece x hx).1.tight, (hpiece x hx).2⟩).trim_eq,
      Bool.eq_iff_iff, any_or_iff,
      separator_and_word.mem_kindsOf_join hand fun x hx => (hpiece x hx).1.closed, List.any_eq_true]
    simp only [List.map_map, List.mem_map, exists_exists_and_eq_and]
    exact exists_congr fun f => and_congr_right fun hf => (h.filters f hf).or_mem_write_iff

/-- Nothing is left out of the state, and an `OR` stands in lists only. -/
theorem reportOf_query : reportOf (tokenize s.query) =
    ⟨[], [], [], [], s.filters.any Filter.writesOr⟩ := by
  have hitems : (Query.ofTokens (tokenize s.query)).selectItems.filter (!isSupported ·) = [] := by
    rw [h.legible.selectItems_eq, orId, if_neg (by simpa using h.selectionItems_ne_nil),
      List.filter_eq_nil_iff]
    exact fun x hx => by simp [h.isSupported_of_mem hx]
  have hfilters : (fragments (tokenize s.query)).filter (fun x => (Condition.ofText? x).isNone) =
      [] := by
    rw [h.legible.fragments_eq, List.filter_eq_nil_iff]
    intro x hx
    obtain ⟨f, hf, rfl⟩ := List.mem_map.1 hx
    simp [h.legible.ofText?_fragment hf]
  have horder : (orderItems (tokenize s.query)).drop 1 = [] := by
    rw [h.legible.orderItems_eq]
    cases (s.orderBy.filter (!·.field.isEmpty)).map OrderBy.write <;> rfl
  obtain ⟨hlimit, hoffset⟩ := h.droppedPaging_query
  rw [reportOf, hitems, hfilters, horder, hlimit, hoffset, h.usesOr_query]
  rfl

end State.Simple

namespace State

/-- The query of a simple state is imported as the state, whatever state was there before: only the
switch, the page cursor, and the identities and child objects of the subqueries are those of before.
After the state itself nothing changes. Without an `OR` in a list nothing is lost. -/
theorem import?_query_of_simple {s : State} (h : s.Simple) :
    ∃ report : Report,
      (∀ previous : State, import? s.query previous = .ok
        ({ s with
          enabled := previous.enabled
          after := previous.after
          subqueries := s.subqueries.zipIdx.map fun (q, k) =>
            ({ q with id := [], childObject := [] } : Subquery).identify previous.subqueries (k + 1) },
          report)) ∧
      (import? s.query s = .ok (s, report)) ∧
      report = ⟨[], [], [], [], s.filters.any Filter.writesOr⟩ ∧
      ((∀ f ∈ s.filters, f.operator.takesList = true → .keyword .OR ∉ kindsOf f.value) →
        report.isLossless = true) := by
  have hall (previous : State) := h.legible.import?_query previous
  refine ⟨reportOf (tokenize s.query), fun previous => ?_, ?_, h.reportOf_query, fun hor => ?_⟩
  · rw [hall, h.stateOf_query]
  · rw [hall, h.stateOf_query, h.subqueries_identify]
  · have hany : s.filters.any Filter.writesOr = false := by
      rw [List.any_eq_false]
      intro f hf
      simp [(h.filters f hf).writesOr_eq_false (hor f hf)]
    rw [h.reportOf_query, hany]
    rfl

/-- Accounts with a subquery on their contacts and conditions of every kind. -/
def keyAccounts : State :=
  { ofObject "Account".toList with
    fields := ["Id".toList, "Name".toList]
    lookups := ["Owner.Profile.Name".toList]
    subqueries := [⟨"a1".toList, "Contacts".toList, "Contact".toList, "Id, Account.Name".toList,
      "WHERE (Email != null OR Phone != null) LIMIT 5".toList⟩]
    filters :=
      [⟨"f1".toList, "Name".toList, .notEqual, "O'Brien, \"Sons\" OR Co LIMIT 1".toList⟩,
        ⟨"f2".toList, "CreatedDate".toList, .greaterEqual, "LAST_N_DAYS:30".toList⟩,
        ⟨"f3".toList, "Type".toList, .isIn, "null, 12.5, \"a, b\", New (old)".toList⟩,
        ⟨"f4".toList, "Owner.Id".toList, .notIn, "(SELECT Id FROM User)".toList⟩]
    orderBy := some ⟨"Owner.Name".toList, .descending⟩
    limit := 10
    offset := 20 }

theorem plain_keyAccounts : ∀ f ∈ keyAccounts.filters, f.Plain := by
  have hpath : PlainPath "Owner.Id".toList :=
    ⟨["Owner".toList, "Id".toList], by decide, by decide +kernel, by decide⟩
  have hfield : ∀ x ∈ ["Name".toList, "CreatedDate".toList, "Type".toList], PlainName x := by
    decide +kernel
  have hvalue : ∀ v ∈ ["O'Brien, \"Sons\" OR Co LIMIT 1".toList, "LAST_N_DAYS:30".toList],
      PlainValue v := fun v hv =>
    ⟨by revert v; decide +kernel, by revert v; decide +kernel, by revert v; decide +kernel,
      fun hbind => absurd hbind (by revert v; decide +kernel)⟩
  have hlist : PlainList "null, 12.5, \"a, b\", New (old)".toList := by
    refine .items ["null".toList, "12.5".toList, "\"a, b\"".toList, "New (old)".toList] (by decide) ?_
      (by decide +kernel)
    have hbare : ∀ x ∈ ["null".toList, "12.5".toList, "New (old)".toList], PlainItem x := fun x hx =>
      .bare (by revert x; decide +kernel) (by revert x; decide +kernel)
    have hquoted : PlainItem "\"a, b\"".toList :=
      .quoted "a, b".toList (by decide +kernel) (by decide +kernel) (by decide +kernel)
    simp only [List.forall_mem_cons] at hbare ⊢
    exact ⟨hbare.1, hbare.2.1, hquoted, hbare.2.2⟩
  have hquery : PlainList "(SELECT Id FROM User)".toList :=
    .subquery (by decide) (by rw [Closed]; decide +kernel) (by decide +kernel)
  simp only [List.forall_mem_cons] at hfield hvalue
  rintro f (_ | ⟨_, _ | ⟨_, _ | ⟨_, _ | ⟨_, ⟨⟩⟩⟩⟩⟩)
  · exact ⟨hfield.1.plainPath, hvalue.1⟩
  · exact ⟨hfield.2.1.plainPath, hvalue.2.1⟩
  · exact ⟨hfield.2.2.1.plainPath, hlist⟩
  · exact ⟨hpath, hquery⟩

theorem simple_keyAccounts : keyAccounts.Simple where
  object := by decide +kernel
  fields := by decide +kernel
  lookups := by
    rintro x (_ | ⟨_, ⟨⟩⟩)
    exact ⟨["Owner".toList, "Profile".toList, "Name".toList], by decide, by decide +kernel, by decide⟩
  selects := by decide
  subqueries := by
    rintro q (_ | ⟨_, ⟨⟩⟩)
    refine ⟨by decide +kernel, ⟨["Id".toList, "Account.Name".toList], by decide, ?_, by decide⟩,
      by decide +kernel, by rw [Closed]; decide +kernel, by rw [Kind.Balanced]; decide +kernel⟩
    rintro x (_ | ⟨_, _ | ⟨_, ⟨⟩⟩⟩)
    · exact plainPath_id
    · exact ⟨["Account".toList, "Name".toList], by decide, by decide +kernel, by decide⟩
  relationships := by decide
  filters := plain_keyAccounts
  numbers := by decide +kernel
  order := by
    rintro o ⟨⟩
    exact ⟨["Owner".toList, "Name".toList], by decide, by decide +kernel, by decide⟩

/-- A state on contacts that is switched off and in the middle of its pages. -/
def contactPage : State :=
  { ofObject "Contact".toList with
    enabled := false
    subqueries := [⟨"c7".toList, "CONTACTS".toList, "Person".toList, "Name".toList, []⟩]
    filters := [⟨"f1".toList, "Email".toList, .notEqual, "null".toList⟩]
    limit := 3
    after := "p2".toList }

/-- The accounts are imported into a state on contacts, where their subquery takes the identity and
the child object of the one on the same relationship; and into themselves, without a change. -/
theorem import?_query_of_simple_keyAccounts :
    keyAccounts.Simple ∧ ∃ report : Report,
      (import? keyAccounts.query contactPage = .ok
        ({ keyAccounts with
          enabled := false
          after := "p2".toList
          subqueries := [⟨"c7".toList, "Contacts".toList, "Person".toList,
            "Id, Account.Name".toList, "WHERE (Email != null OR Phone != null) LIMIT 5".toList⟩] },
          report)) ∧
      (import? keyAccounts.query keyAccounts = .ok (keyAccounts, report)) ∧
      report.isLossless = true := by
  obtain ⟨report, himport, hself, -, hlossless⟩ := import?_query_of_simple simple_keyAccounts
  refine ⟨simple_keyAccounts, report, (himport contactPage).trans ?_, hself, hlossless ?_⟩
  · have hcontacts : (keyAccounts.subqueries.zipIdx.map fun (q, k) =>
        ({ q with id := [], childObject := [] } : Subquery).identify contactPage.subqueries (k + 1)) =
          [⟨"c7".toList, "Contacts".toList, "Person".toList, "Id, Account.Name".toList,
            "WHERE (Email != null OR Phone != null) LIMIT 5".toList⟩] := by decide +kernel
    rw [hcontacts]
    rfl
  · decide +kernel

end State

end Builder

end Soql
