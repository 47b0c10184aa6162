import Soql.Proofs.Builder.ListGroup
import Soql.Proofs.Builder.Stability

/-!
# Counts, imported and written

A count is digits in the text, a number below the bound of queries when it is parsed, a word of 32
bits in a state and digits again when the query is written. A count that does not fit a state is
reported with its clause and never wrapped. A count that fits is written again, but for zero: that is
how a state says that a clause is missing.

The counts that are written are found again unless something before them is taken for a clause of
their kind: a name, a bind variable or a text in the place of a list that opens a parenthesis.
-/

namespace Soql

open Kind Token

/-- The clauses with a count. -/
def Clause.isCount : Clause → Bool
  | .limit | .offset => true
  | _ => false

/-- The words that open a clause with a count. -/
def Kind.opensCount (k : Kind) : Bool :=
  k == .keyword .LIMIT || k == .keyword .OFFSET

namespace Clause

variable {c : Clause} (hc : c.isCount = true)

include hc

theorem isArgument_of_isCount : c.isArgument = true := by
  cases c <;> first | rfl | cases hc

/-- Counts stand behind conditions and order. -/
theorem before_of_isCount : Clause.condition.Before c ∧ Clause.ordering.Before c := by
  unfold Clause.Before
  revert hc
  cases c <;> decide

/-- A clause opens with its keyword. -/
theorem opensCount_of_opens {k : Kind} {ks : List Kind} (h : c.opens (k :: ks) = true) :
    k.opensCount = true := by
  cases c with
  | limit => exact Phrase.eq_of_leadsKinds h ▸ rfl
  | offset => exact Phrase.eq_of_leadsKinds h ▸ rfl
  | selection => cases hc
  | condition => cases hc
  | grouping => cases hc
  | ordering => cases hc

/-- The search for a count passes over tokens without groups and without its words. -/
theorem passes_of_no_count {ks : List Kind} (hgroup : ∀ k ∈ ks, k ≠ .openParen ∧ k ≠ .closeParen)
    (h : ∀ k ∈ ks, k.opensCount = false) : Passes c.opens ks := by
  refine ⟨depth_of_level? (level?_of_no_group hgroup 0), fun _ => clear_of_forall fun k hk ls => ?_⟩
  by_contra hopens
  have := opensCount_of_opens hc (by simpa using hopens)
  rw [h k hk] at this
  cases this

end Clause

namespace Builder

open Literal

/-- A text is a count that a state can hold. -/
def IsPageCount (s : Text) : Prop :=
  Text.isDigits s = true ∧ Text.digitsValue s < UInt32.size

/-- A count is taken if it fits 32 bits. -/
theorem pageCount?_eq_some_iff {count : Option Nat} {n : UInt32} :
    pageCount? count = some n ↔ count = some n.toNat := by
  cases count with
  | none => simp [pageCount?]
  | some m =>
    rw [pageCount?, Option.bind_some]
    split
    · next hlt => rw [Option.some.injEq, Option.some.injEq, ← UInt32.toNat_inj, UInt32.toNat_ofNat_of_lt' hlt]
    · next hge =>
      have := n.toNat_lt
      simp only [reduceCtorEq, Option.some.injEq, false_iff]
      rintro rfl
      exact hge this

/-- A text is a count of a page exactly if it is read and fits. -/
theorem isSome_pageCount?_iff {raw : Text} :
    (pageCount? (Query.count? raw)).isSome = true ↔ IsPageCount raw := by
  have hbound : UInt32.size < Query.countBound := by decide
  rw [Option.isSome_iff_exists]
  simp only [pageCount?_eq_some_iff, Query.count?, Bool.and_eq_true, decide_eq_true_eq]
  constructor
  · rintro ⟨n, hn⟩
    split at hn
    · next hdigits =>
      rw [Option.some.injEq] at hn
      exact ⟨hdigits.1, hn ▸ n.toNat_lt⟩
    · cases hn
  · rintro ⟨hdigits, hlt⟩
    refine ⟨UInt32.ofNat (Text.digitsValue raw), ?_⟩
    rw [if_pos ⟨hdigits, Nat.lt_trans hlt hbound⟩, UInt32.toNat_ofNat_of_lt' hlt]

/-- A clause is reported when its body is no count that a state can hold. -/
theorem mem_droppedCount_iff {c : Clause} {raw : Option Text} {x : Text} :
    x ∈ droppedCount c.opening (raw.bind Query.count?) raw ↔
      ∃ body, raw = some body ∧ ¬ IsPageCount body ∧ x = c.write body := by
  cases raw with
  | none => simp [droppedCount]
  | some body =>
    have hbody : (∃ b, some body = some b ∧ ¬ IsPageCount b ∧ x = c.write b) ↔
        ¬ IsPageCount body ∧ x = c.write body := by simp
    rw [hbody, ← isSome_pageCount?_iff, droppedCount, Option.bind_some]
    split
    · next hsome => exact iff_of_false List.not_mem_nil fun h => h.1 hsome
    · next hnone => exact List.mem_singleton.trans (and_iff_right hnone).symm

/-- A count that is not reported is held as it is. -/
theorem toNat_pageCount? {c : Clause} {raw : Option Text}
    (h : droppedCount c.opening (raw.bind Query.count?) raw = []) :
    ((pageCount? (raw.bind Query.count?)).getD 0).toNat = (raw.bind Query.count?).getD 0 := by
  cases raw with
  | none => rfl
  | some body =>
    have hfits : IsPageCount body := by
      by_contra hfits
      have : c.write body ∈ droppedCount c.opening ((some body).bind Query.count?) (some body) :=
        mem_droppedCount_iff.2 ⟨body, rfl, hfits, rfl⟩
      rw [h] at this
      cases this
    obtain ⟨n, hn⟩ := Option.isSome_iff_exists.1 (isSome_pageCount?_iff.2 hfits)
    rw [Option.bind_some, hn, pageCount?_eq_some_iff.1 hn]
    rfl

/-- A count that is held is written, but for zero. -/
theorem written_of_toNat_eq {count : Option Nat} {n : UInt32} (h : n.toNat = count.getD 0) :
    (if n = 0 then none else some n.toNat) = count.filter (· != 0) := by
  have hzero : n = 0 ↔ count.getD 0 = 0 := by
    rw [← h, ← UInt32.toNat_inj]
    rfl
  cases count with
  | none => rw [if_pos (hzero.2 rfl), Option.filter_none]
  | some m =>
    rw [Option.getD_some] at h hzero
    rw [Option.filter_some, h]
    by_cases hm : m = 0
    · rw [if_pos (hzero.2 hm), if_neg (by simp [hm])]
    · rw [if_neg (mt hzero.1 hm), if_pos (by simp [hm])]

namespace State

/-- Nothing that is written before the counts of a state is taken for one of them. -/
structure ShowsPaging (s : State) : Prop where
  names : ∀ x ∈ s.object :: (s.fields ++ s.lookups), ∀ k ∈ kindsOf x, k.opensCount = false
  binds : ∀ f ∈ s.filters, f.operator.takesList = false →
    isBindVariable (unquote f.value) = true → ∀ k ∈ kindsOf (unquote f.value), k.opensCount = false
  lists : ∀ f ∈ s.filters, f.operator.takesList = true → f.value.trim.head? = some '(' →
    Closed f.value ∧ (stripOuterParens? f.value).isSome = true

/-- The search for a count passes over what is written on the right of a condition. -/
theorem ShowsPaging.right {s : State} (hs : s.ShowsPaging) {f : Filter} (hf : f ∈ s.filters)
    {c : Clause} (hc : c.isCount = true) : Closed f.right ∧ Passes c.opens (kindsOf f.right) := by
  cases hop : f.operator.takesList with
  | true =>
    obtain ⟨halone, -⟩ := f.right_alone hop (hs.lists f hf hop)
    exact ⟨halone.closed, halone.passes.imp fun ls hls =>
      Clause.closes_of_before (Clause.before_of_isCount hc).1 hls⟩
  | false =>
    rw [Filter.right_single hop]
    have hform := form (unquote f.value)
    refine ⟨hform.closed, Clause.passes_of_no_count hc
      (fun k hk => (hform.no_group k hk).imp_right And.left) fun k hk => ?_⟩
    rcases hform.bind_or_value with ⟨hbind, hwrite⟩ | hvalue
    · rw [hwrite] at hk
      exact hs.binds f hf hop hbind k hk
    · cases k with
      | keyword w => rcases hvalue w hk with rfl | rfl | rfl <;> rfl
      | _ => rfl

section Imported

variable {ts : List Token} (h : Stretch ts) (hbal : Balanced (kinds ts)) {previous : State}
  {object : Text} (hs : (stateOf previous object ts).ShowsPaging)

include h hs

theorem passes_filter_import {f : Filter} (hf : f ∈ (stateOf previous object ts).filters)
    {c : Clause} (hc : c.isCount = true) : Closed f.write ∧ Passes c.opens (kindsOf f.write) := by
  obtain ⟨d, hd, hfield⟩ := field_import h hf
  obtain ⟨hclosed, hpass⟩ := hs.right hf hc
  have hcondition : f.condition = ⟨d.field, f.operator, f.right⟩ := by
    rw [Filter.condition, hfield, hd.field.tight.trim_eq]
  rw [Filter.write_eq, hcondition]
  refine ⟨Condition.closed_write hd.field.closed hclosed,
    Condition.passes_write c.search_opens hd.field.closed ?_ hpass⟩
  exact hd.field_alone.passes.imp fun ls hls =>
    Clause.closes_of_before (Clause.before_of_isCount hc).1 hls

/-- No count is found in the filters. -/
theorem passes_filters_import {c : Clause} (hc : c.isCount = true) :
    Closed (writeFilters (stateOf previous object ts).filters) ∧
      Passes c.opens (kindsOf (writeFilters (stateOf previous object ts).filters)) := by
  have hwrite : ∀ x ∈ ((stateOf previous object ts).filters.filter (!·.field.trim.isEmpty)).map
      Filter.write, Closed x ∧ Passes c.opens (kindsOf x) := by
    intro x hx
    obtain ⟨f, hf, rfl⟩ := List.mem_map.1 hx
    exact passes_filter_import h hs (List.mem_filter.1 hf).1 hc
  exact ⟨separator_and.closed_join fun x hx => (hwrite x hx).1,
    c.search_opens.passes_chain (fun x hx => (hwrite x hx).1) fun x hx => (hwrite x hx).2⟩

include hbal

/-- The searches for a count and for its end pass over the clauses before and behind it. -/
theorem readsBack_count_import {c : Clause} (hc : c.isCount = true) :
    c.ReadsBack (stateOf previous object ts).clauses := by
  have hsearch : ∀ n, Passes c.opens (kindsOf (Text.ofNat n)) := c.search_opens.passes_ofNat
  refine Clause.readsBack_of_sorted (sorted_clauses _) ?_ ?_
  · refine forall_clauses (P := fun c' body => c' = c → Passes c.closes (kindsOf body))
      (fun o ho => order_import h hbal ho) ?_ ?_ (fun n _ => c.search_closes.passes_ofNat n)
      fun n _ => c.search_closes.passes_ofNat n
    · rintro rfl
      cases hc
    · rintro o - - rfl
      cases hc
  · refine fun p hp _ _ => forall_clauses (P := fun _ body => Passes c.opens (kindsOf body))
      (fun o ho => order_import h hbal ho) (passes_filters_import h hs hc).2 (fun o _ ho => ?_)
      hsearch hsearch p hp
    exact ho.passes_write c.search_opens (ho.passes.imp fun ls hls =>
      Clause.closes_of_before (Clause.before_of_isCount hc).2 hls)

/-- The counts of the written query are those of the state. -/
theorem count_body?_import (hobject : Token.objectName? ts = some object) {c : Clause}
    (hc : c.isCount = true) : c.body? (tokenize (stateOf previous object ts).query) =
      ((stateOf previous object ts).clauses.lookup c).map Text.trim := by
  have hname : ∃ k, tokenize (stateOf previous object ts).object =
      [⟨[], k, (stateOf previous object ts).object⟩] ∧ k.isWord = true :=
    exists_tokenize_of_objectName? h hobject
  have hpath : ∀ x ∈ (stateOf previous object ts).object :: ((stateOf previous object ts).fields ++
      (stateOf previous object ts).lookups), IsPath (kindsOf x) → Passes c.opens (kindsOf x) :=
    fun x hx hpath => Clause.passes_of_no_count hc hpath.no_group (hs.names x hx)
  have hitems : ∀ x ∈ (stateOf previous object ts).selectionItems, ItemReadsBack x :=
    fun x hx => itemReadsBack_import h hbal hx
  refine body?_query (Clause.isArgument_of_isCount hc) hname (piece_selection hitems).closed
    (closed_clauses (fun o ho => order_import h hbal ho) (passes_filters_import h hs hc).1)
    (passes_selection hitems c.search_opens ?_) (hpath _ List.mem_cons_self ?_)
    (readsBack_count_import h hbal hs hc)
  · exact (sorted_import h hbal).forall_selectionItems
      (fun x hx => hpath x (List.mem_cons_of_mem _ hx))
      fun _ _ hlegible => hlegible.passes_write c.search_opens
  · obtain ⟨k, hk, hword⟩ := hname
    rw [kindsOf, hk]
    exact .word hword

/-- The counts of the query that is written are those of the state. -/
theorem counts_import (hobject : Token.objectName? ts = some object) :
    (Query.ofText (stateOf previous object ts).query).limit =
      (if (stateOf previous object ts).limit = 0 then none
        else some (stateOf previous object ts).limit.toNat) ∧
    (Query.ofText (stateOf previous object ts).query).offset =
      if (stateOf previous object ts).offset = 0 then none
        else some (stateOf previous object ts).offset.toNat := by
  obtain ⟨hlimit, hoffset⟩ := lookup_count (stateOf previous object ts)
  constructor
  · change (Clause.limit.body? (tokenize (stateOf previous object ts).query)).bind Query.count? = _
    rw [count_body?_import h hbal hs hobject rfl, hlimit, map_trim_count, bind_count?]
  · change (Clause.offset.body? (tokenize (stateOf previous object ts).query)).bind Query.count? = _
    rw [count_body?_import h hbal hs hobject rfl, hoffset, map_trim_count, bind_count?]

end Imported

/-- What is reported are the counts that a state cannot hold. -/
theorem mem_droppedPaging_iff {ts : List Token} {x : Text} : x ∈ (reportOf ts).droppedPaging ↔
    ∃ (c : Clause) (body : Text), c.isCount = true ∧ c.body? ts = some body ∧ ¬ IsPageCount body ∧ x = c.write body := by
  change x ∈ droppedCount Clause.limit.opening ((Clause.limit.body? ts).bind Query.count?)
      (Clause.limit.body? ts) ++ droppedCount Clause.offset.opening
      ((Clause.offset.body? ts).bind Query.count?) (Clause.offset.body? ts) ↔ _
  rw [List.mem_append, mem_droppedCount_iff, mem_droppedCount_iff]
  constructor
  · rintro (⟨body, h⟩ | ⟨body, h⟩)
    · exact ⟨.limit, body, rfl, h⟩
    · exact ⟨.offset, body, rfl, h⟩
  · rintro ⟨c, body, hc, h⟩
    cases c with
    | limit => exact .inl ⟨body, h⟩
    | offset => exact .inr ⟨body, h⟩
    | selection => cases hc
    | condition => cases hc
    | grouping => cases hc
    | ordering => cases hc

/-- A `LIMIT` or `OFFSET` is reported exactly when it is no count that a state can hold. When none is
reported, the state holds the counts of the text, and the query that is written again has those that
are not zero, unless something else of the state is taken for a count. -/
theorem paging_import? {text : Text} {previous s : State} {r : Report}
    (h : import? text previous = .ok (s, r)) :
    (∀ x, x ∈ r.droppedPaging ↔ ∃ (c : Clause) (body : Text), c.isCount = true ∧
      c.body? (tokenize text) = some body ∧ ¬ IsPageCount body ∧ x = c.write body) ∧
    (r.droppedPaging = [] →
      s.limit.toNat = (Query.ofText text).limit.getD 0 ∧
      s.offset.toNat = (Query.ofText text).offset.getD 0 ∧
      (s.ShowsPaging →
        (Query.ofText s.query).limit = (Query.ofText text).limit.filter (· != 0) ∧
        (Query.ofText s.query).offset = (Query.ofText text).offset.filter (· != 0))) := by
  obtain ⟨object, hstretch, hbal, hobject, rfl, rfl⟩ := exists_of_import? h
  refine ⟨fun x => mem_droppedPaging_iff, fun hdropped => ?_⟩
  obtain ⟨hlimit, hoffset⟩ := List.append_eq_nil_iff.1 hdropped
  have hlimit := toNat_pageCount? (c := .limit) hlimit
  have hoffset := toNat_pageCount? (c := .offset) hoffset
  refine ⟨hlimit, hoffset, fun hs => ?_⟩
  have hcounts := counts_import hstretch hbal hs hobject
  exact ⟨hcounts.1.trans (written_of_toNat_eq hlimit), hcounts.2.trans (written_of_toNat_eq hoffset)⟩

/-- A limit with leading zeros and an offset, in the other order. -/
def pagedAccounts : State :=
  { accountNamed "5".toList with limit := 20, offset := 4294967295 }

def pagedAccountsText : Text :=
  "SELECT Id FROM Account WHERE Name = 5 OFFSET 4294967295 LIMIT 0020".toList

theorem showsPaging_pagedAccounts : pagedAccounts.ShowsPaging := by
  refine ⟨by decide +kernel, ?_, ?_⟩
  · rintro f (_ | ⟨_, ⟨⟩⟩) - hbind
    exact absurd hbind (by decide +kernel)
  · rintro f (_ | ⟨_, ⟨⟩⟩) hop
    cases hop

/-- A page that shows both counts. -/
theorem paging_import?_pagedAccounts :
    (import? pagedAccountsText initial = .ok (pagedAccounts, ⟨[], [], [], [], false⟩)) ∧
    pagedAccounts.ShowsPaging ∧
    (Query.ofText pagedAccounts.query).limit = (Query.ofText pagedAccountsText).limit.filter (· != 0) ∧
    (Query.ofText pagedAccounts.query).offset =
      (Query.ofText pagedAccountsText).offset.filter (· != 0) := by
  have himport : import? pagedAccountsText initial = .ok (pagedAccounts, ⟨[], [], [], [], false⟩) := by
    decide +kernel
  exact ⟨himport, showsPaging_pagedAccounts,
    ((paging_import? himport).2 rfl).2.2 showsPaging_pagedAccounts⟩

/-- A limit of zero is lost, and nothing is reported. -/
theorem not_paging_import? :
    ¬ ∀ (text : Text) (previous s : State) (r : Report), import? text previous = .ok (s, r) →
      r.droppedPaging = [] → (Query.ofText s.query).limit = (Query.ofText text).limit ∧
      (Query.ofText s.query).offset = (Query.ofText text).offset := by
  intro h
  have himport : import? "SELECT Id FROM Account LIMIT 0".toList initial =
      .ok (ofObject "Account".toList, ⟨[], [], [], [], false⟩) := by decide +kernel
  have := (h _ _ _ _ himport rfl).1
  revert this
  decide +kernel

end State

end Builder

end Soql
