import Soql.Proofs.Scanner.Basic
import Soql.Proofs.Token.Parts
import Soql.Scanner.Query

/-!
# Taking a query apart never slices out of range

Every slice and every index that the items, conditions and clauses of a query are cut out with is
in range, for every text, and what is cut out is what the tokens alone give.
-/

namespace Soql.Scanner

open Token

/-- A list of checked results has them all if each is there. -/
theorem mapM_eq {α β : Type} {f? : α → Checked β} {f : α → β} (h : ∀ x, f? x = some (f x))
    (xs : List α) : xs.mapM f? = some (xs.map f) := by
  obtain rfl : f? = fun x => pure (f x) := funext h
  exact List.mapM_pure

/-- What is found of the members of a list sorts them as the finding itself does. -/
theorem map_fst_filter_zip {α β : Type} (p : β → Bool) (f : α → β) (xs : List α) :
    ((xs.zip (xs.map f)).filter fun x => p x.2).map Prod.fst = xs.filter fun x => p (f x) := by
  induction xs with
  | nil => rfl
  | cons x xs ih =>
    rw [List.map_cons, List.zip_cons_cons, List.filter_cons, List.filter_cons]
    cases p (f x) <;> simp [ih]

@[simp] theorem tokens_place (n : Nat) (ts : List Token) : tokens (place n ts) = ts :=
  map_fst_place n ts

theorem selectItem?_eq (item : Text) : selectItem? item = some (SelectItem.ofText item) := by
  rw [selectItem?, subqueryBody?_eq, SelectItem.ofText, located_eq]
  have hlies := lies_tokenize item
  simp only [Option.bind_eq_bind, Option.bind_some]
  split
  · rfl
  · generalize tokenize item = ts at hlies
    rcases ts with _ | ⟨t, _ | ⟨paren, ts⟩⟩
    · rfl
    · rfl
    · simp only [place_cons, Nat.zero_add]
      split
      · rw [hlies.text? _ (by rw [Text.byteSize_nil, Nat.zero_add])]
        rfl
      · simp [tokens]

theorem nth?_place (offset : Nat) (as rest : List Token) (t : Token) :
    nth? (place offset (as ++ t :: rest)) as.length =
      some (t, ⟨offset + (render as).byteSize + t.gap.byteSize,
        offset + (render as).byteSize + t.gap.byteSize + t.text.byteSize⟩) := by
  rw [nth?, ← List.head?_drop, drop_place, List.drop_left, List.take_left, place_cons,
    List.head?_cons]

/-- An alias is cut off in front of a token. -/
theorem stripAlias?_eq (item : Text) : stripAlias? item = some (stripAlias item) := by
  have hlies := lies_tokenize item
  rw [stripAlias?, located_eq, tokens_place, stripAlias]
  generalize tokenize item = ts at hlies
  cases hpath : Path.length? ts with
  | none => rfl
  | some path =>
    obtain ⟨n, rfl⟩ : ∃ n, path = n + 1 := by
      cases ts with
      | nil => simp [Path.length?] at hpath
      | cons t ts =>
        rw [Path.length?] at hpath
        split at hpath
        · exact ⟨_, (Option.some.inj hpath).symm⟩
        · cases hpath
    by_cases hlength : ts.length = n + 2
    · obtain ⟨last, u, hdrop⟩ := List.length_eq_two.1
        (show (ts.drop n).length = 2 by rw [List.length_drop]; omega)
      have has : (ts.take n).length = n := by rw [List.length_take]; omega
      obtain ⟨as, rfl, rfl⟩ : ∃ as : List Token, ts = as ++ [last, u] ∧ as.length = n :=
        ⟨ts.take n, by rw [← hdrop, List.take_append_drop], has⟩
      have hwhole : as ++ [last, u] = (as ++ [last]) ++ [u] := by simp
      have hcut : (as ++ [last, u]).take (as.length + 1) = as ++ [last] ∧
          (as ++ [last, u]).drop (as.length + 1) = [u] := by
        rw [hwhole, show as.length + 1 = (as ++ [last]).length by simp]
        exact ⟨List.take_left, List.drop_left⟩
      have hlast := nth?_place 0 as [u] last
      obtain ⟨span, hbehind⟩ : ∃ span, nth? (place 0 (as ++ [last, u])) (as.length + 1) =
          some (u, span) := by
        rw [hwhole, show as.length + 1 = (as ++ [last]).length by simp]
        exact ⟨_, nth?_place 0 (as ++ [last]) [] u⟩
      have hslice : item.slice? 0 (0 + (render as).byteSize + last.gap.byteSize +
          last.text.byteSize) = some (render (as ++ [last])) := by
        obtain ⟨behind, hitem, -⟩ := hlies.text
        rw [hitem, hwhole, render_append, List.nil_append, List.append_assoc]
        refine (congrArg _ ?_).trans (Text.slice?_append_start _ _)
        simp [written, Nat.add_assoc]
      simp only [length_place, hlength, beq_self_eq_true, if_true, hbehind, hlast, hslice, hcut.1,
        hcut.2, Option.bind_eq_bind, Option.bind_some]
      split <;> rfl
    · have hother : ∀ u, ts.drop (n + 1) ≠ [u] := by
        intro u hu
        have := congrArg List.length hu
        rw [List.length_drop, List.length_singleton] at this
        omega
      simp only [length_place, beq_iff_eq, hlength, if_false]

/-- A direction is cut off in front of a token. -/
theorem stripOrderDirection?_eq (item : Text) :
    stripOrderDirection? item = some (stripOrderDirection item) := by
  have hlies := lies_tokenize item
  have hseek := seek?_place (fun ms => some ((tokens ms).head?.any Token.isDirection))
    (fun ts => ts.head?.any Token.isDirection) (fun _ _ _ => by rw [tokens_place]) 0 hlies
  have hfound := hlies.cutTop (fun ts => ts.head?.any Token.isDirection) 0
  have hwhole := cutTop_append (fun ts => ts.head?.any Token.isDirection) 0 (tokenize item)
  rw [stripOrderDirection?, located_eq, stripOrderDirection]
  rw [Text.byteSize_nil] at hseek
  rw [hseek]
  generalize Token.cutTop (fun ts => ts.head?.any Token.isDirection) 0 (tokenize item) = cut
    at hfound hwhole
  obtain ⟨before, found⟩ := cut
  obtain ⟨behind, hitem, hbehind⟩ := hfound.text
  cases found with
  | nil =>
    simp only [place_nil, Option.bind_eq_bind, Option.bind_some]
    rw [hitem]
    simp [Text.trim_append_of_blank _ fun c hc => Text.isBlank_of_isGap (hbehind c hc)]
  | cons t found =>
    have hslice : item.slice? 0 ((render before).byteSize + t.gap.byteSize) =
        some (render before ++ t.gap) := by
      rw [Text.slice?_eq_some_iff]
      refine ⟨[], t.text ++ render found ++ behind, ?_, rfl, by simp⟩
      rw [hitem, render_cons, written]
      simp only [List.append_assoc, List.nil_append]
    simp only [place_cons, List.nil_append, Option.bind_eq_bind, Option.bind_some, hslice]
    rw [Text.trim_append_of_blank _ (hfound.blank (by simp))]

/-- The words of an operator are compared within the text. -/
theorem spelledBy?_place {source before : Text} {ts : List Token} (parts : Phrase)
    (h : Lies source before ts) :
    spelledBy? source parts (place before.byteSize ts) = some (Operator.spelledBy parts ts) := by
  induction parts generalizing before ts with
  | nil => cases ts <;> rfl
  | cons part parts ih =>
    cases ts with
    | nil => rfl
    | cons t ts =>
      have hnext := ih h.tail
      rw [Text.byteSize_append] at hnext
      rw [place_cons, spelledBy?, Operator.spelledBy, hnext, h.text? _ rfl]
      cases hpart : Text.eqIgnoreCase t.text part <;> simp [hpart]

/-- A checked search finds what the search finds if no step of it goes wrong. -/
theorem findSomeM?_eq {α β : Type} {f? : α → Checked (Option β)} {f : α → Option β}
    (h : ∀ x, f? x = some (f x)) (xs : List α) : xs.findSomeM? f? = some (xs.findSome? f) := by
  induction xs with
  | nil => rfl
  | cons x xs ih =>
    rw [List.findSomeM?_cons, h, ih, List.findSome?_cons]
    cases f x <;> rfl

/-- The operator at some tokens is found within the text. -/
theorem operatorAt?_place {source before : Text} {ts : List Token} (h : Lies source before ts) :
    operatorAt? source (place before.byteSize ts) = some (Operator.matchAt? ts) := by
  rw [operatorAt?, Operator.matchAt?]
  refine findSomeM?_eq ?_ _
  rintro ⟨parts, op⟩
  simp [spelledBy?_place parts h]

/-- A condition is cut into its three parts at its operator. -/
theorem condition?_eq (fragment : Text) :
    condition? fragment = some (Condition.ofText? fragment) := by
  have hlies := lies_tokenize fragment
  rw [condition?, located_eq, tokens_place, Condition.ofText?]
  generalize tokenize fragment = ts at hlies
  split
  · cases Path.length? ts with
    | none => rfl
    | some path =>
      simp only [drop_place, tokens_place, Nat.zero_add, Option.bind_eq_bind, Option.bind_some]
      have hn := hlies.drop (path + groupLength (ts.drop path))
      obtain ⟨field, hfield, hfieldtrim⟩ :=
        hlies.slice_before (path + groupLength (ts.drop path))
      generalize path + groupLength (ts.drop path) = n at hn hfield hfieldtrim ⊢
      rw [List.nil_append] at hn
      rw [operatorAt?_place hn]
      cases Operator.matchAt? (ts.drop n) with
      | none => rfl
      | some found =>
        obtain ⟨operator, m⟩ := found
        obtain ⟨value, hvalue, hvaluetrim⟩ := (hn.drop m).slice_behind
        rw [Text.byteSize_append, List.drop_drop] at hvalue
        rw [List.drop_drop] at hvaluetrim
        simp only [Option.bind_some, hfield, hfieldtrim, hvalue, hvaluetrim, List.drop_drop]
        rfl
  · rfl

/-- A grouping is expanded within its text. -/
theorem expandGrouping?_eq (item : Text) : expandGrouping? item = some (expandGrouping item) := by
  have hlies := lies_tokenize item
  have hrollup := isAt?_place ["ROLLUP".toList] hlies
  have hcube := isAt?_place ["CUBE".toList] hlies
  rw [Text.byteSize_nil] at hrollup hcube
  rw [expandGrouping?, located_eq, expandGrouping, hrollup, hcube]
  generalize tokenize item = ts at hlies
  rcases ts with _ | ⟨t, _ | ⟨paren, ts⟩⟩
  · rfl
  · rfl
  · obtain ⟨call, hcall, htrim⟩ := (hlies.drop 1).slice_behind
    have hstart : ((Phrase.isAt ["ROLLUP".toList] (t :: paren :: ts) ||
        Phrase.isAt ["CUBE".toList] (t :: paren :: ts)) && paren.kind == .openParen) =
        startsGroupingCall (t :: paren :: ts) := by
      simp only [Phrase.isAt, Phrase.leads, startsGroupingCall, List.isEmpty_cons]
      cases t.kind.isWord <;> cases (paren.kind == .openParen) <;> simp
    have hoffset : offset item (place (render ((t :: paren :: ts).take 1)).byteSize
        ((t :: paren :: ts).drop 1)) = t.written.byteSize + paren.gap.byteSize := by
      simp [place_cons, offset]
    rw [List.nil_append, hoffset] at hcall
    simp only [place_cons, Nat.zero_add, Option.bind_eq_bind, Option.bind_some, hstart, hcall,
      stripOuterParens?_eq, stripOuterParens?_of_trim htrim]
    split
    · cases Soql.stripOuterParens? (render ((t :: paren :: ts).drop 1)) with
      | none => rfl
      | some arguments => exact splitItems?_eq arguments
    · rfl

/-- The body of each clause is a slice of the query. -/
theorem clauseOf?_eq (query : Text) (c : Clause) :
    clauseOf? query c = some (c.body? (tokenize query)) :=
  extractClause?_eq c.opening c.endings query

theorem ofClause?_eq {α : Type} {read? : Text → Checked (List α)} {read : Text → List α}
    (h : ∀ s, read? s = some (read s)) (body : Option Text) :
    ofClause? read? body = some ((body.map read).getD []) := by
  cases body with
  | none => rfl
  | some s => exact h s

/-- The conditions of a query are read of its slices. -/
theorem conditions?_eq (body : Text) :
    conditions? body = some ((Soql.splitConditions body).filterMap Condition.ofText?) := by
  simp [conditions?, mapM_eq condition?_eq, List.filterMap_map]

theorem groupItems?_eq (body : Text) :
    groupItems? body = some ((Soql.splitItems body).flatMap expandGrouping) := by
  simp [groupItems?, mapM_eq expandGrouping?_eq, List.flatMap_def]

theorem orderFields?_eq (body : Text) : orderFields? body =
    some (((Soql.splitItems body).map stripOrderDirection).filter (!·.isEmpty)) := by
  simp [orderFields?, mapM_eq stripOrderDirection?_eq]

/-- A phrase is found when something is left from its place on. -/
theorem isSome_find? (phrase : Phrase) (ts : List Token) : (Phrase.find? phrase ts).isSome =
    !(Token.cutTop (Phrase.isAt phrase) 0 ts).2.isEmpty := by
  rw [Phrase.find?]
  generalize Token.cutTop (Phrase.isAt phrase) 0 ts = cut
  obtain ⟨skipped, found⟩ := cut
  cases found <;> rfl

/-- A query is taken apart into the same clauses, and no slice is out of range. -/
theorem query?_eq (query : Text) : query? query = some (Query.ofText query) := by
  have hlies := lies_tokenize query
  have hobject := objectName?_place hlies
  have hhaving := find?_place [Keyword.HAVING.spelling] hlies
  rw [Text.byteSize_nil] at hobject hhaving
  rw [query?, located_eq, hobject, hhaving]
  simp only [Option.bind_eq_bind, Option.bind_some, clauseOf?_eq, ofClause?_eq splitItems?_eq,
    ofClause?_eq conditions?_eq, ofClause?_eq groupItems?_eq, ofClause?_eq orderFields?_eq,
    isEmpty_place]
  rw [← isSome_find?]
  rfl

end Soql.Scanner
