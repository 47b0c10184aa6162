import Mathlib.Data.List.Forall2
import Soql.Proofs.Query.Direction
import Soql.Proofs.Token.Parts
import Soql.Proofs.Token.Single
import Soql.Query.Model

/-!
# Queries that are read alike

Taking a query apart looks at the kinds of tokens and, where a token is not a quoted text, at its
wording in any case. So two token lists that agree in this are cut at the same places, and their
parts correspond. A relation that agrees in this and is kept when lists are cut and trimmed is a
`Cutting`; `ofTokens_similar` lifts it from the tokens of two queries to all their parts.
-/

namespace Soql

open Kind Token List

namespace Token

/-- The same for every cut: of one kind, and worded alike in some case unless quoted. -/
structure Alike (t u : Token) : Prop where
  kind : t.kind = u.kind
  text : t.kind ≠ .quoted → Text.eqIgnoreCase t.text u.text = true

/-- A relation between token lists that are read alike, kept by cutting and trimming. -/
structure Cutting (R : List Token → List Token → Prop) : Prop where
  left {ts us : List Token} : R ts us → Stretch ts
  right {ts us : List Token} : R ts us → Stretch us
  alike {ts us : List Token} : R ts us → Forall₂ Alike ts us
  take {ts us : List Token} (n : Nat) : R ts us → R (ts.take n) (us.take n)
  drop {ts us : List Token} (n : Nat) : R ts us → R (ts.drop n) (us.drop n)
  trimmed {ts us : List Token} : R ts us → R (trimmed ts) (trimmed us)

/-- Two pieces with related tokens. -/
structure Related (R : List Token → List Token → Prop) (s s' : Text) : Prop where
  left : Piece s
  right : Piece s'
  tokens : R (tokenize s) (tokenize s')

end Token

/-- Two conditions with the same operator and related texts. -/
structure Condition.Similar (P : Text → Text → Prop) (c d : Condition) : Prop where
  field : P c.field d.field
  operator : c.operator = d.operator
  rawValue : P c.rawValue d.rawValue

theorem Condition.Similar.imp {P Q : Text → Text → Prop} (hPQ : ∀ s s', P s s' → Q s s')
    {c d : Condition} (h : Condition.Similar P c d) : Condition.Similar Q c d :=
  ⟨hPQ _ _ h.field, h.operator, hPQ _ _ h.rawValue⟩

/-- Two queries with the same clauses, whose texts are related one by one. -/
structure Query.Similar (P : Text → Text → Prop) (p q : Query) : Prop where
  objectName : Option.Rel P p.objectName q.objectName
  selectItems : Forall₂ P p.selectItems q.selectItems
  groupItems : Forall₂ P p.groupItems q.groupItems
  hasGroupBy : p.hasGroupBy = q.hasGroupBy
  hasHaving : p.hasHaving = q.hasHaving
  hasOrderBy : p.hasOrderBy = q.hasOrderBy
  orderItems : Forall₂ P p.orderItems q.orderItems
  conditions : Forall₂ (Condition.Similar P) p.conditions q.conditions
  limit : p.limit = q.limit
  offset : p.offset = q.offset
  rawLimit : Option.Rel P p.rawLimit q.rawLimit
  rawOffset : Option.Rel P p.rawOffset q.rawOffset

/-- Similar queries stay so when less is asked of their texts. -/
theorem Query.Similar.imp {P Q : Text → Text → Prop} (hPQ : ∀ s s', P s s' → Q s s')
    {p q : Query} (h : Query.Similar P p q) : Query.Similar Q p q :=
  have hrel : ∀ {x y : Option Text}, Option.Rel P x y → Option.Rel Q x y := by
    rintro _ _ (h | _)
    · exact .some (hPQ _ _ h)
    · exact .none
  { objectName := hrel h.objectName
    selectItems := h.selectItems.imp hPQ
    groupItems := h.groupItems.imp hPQ
    hasGroupBy := h.hasGroupBy
    hasHaving := h.hasHaving
    hasOrderBy := h.hasOrderBy
    orderItems := h.orderItems.imp hPQ
    conditions := h.conditions.imp fun _ _ hc => hc.imp hPQ
    limit := h.limit
    offset := h.offset
    rawLimit := hrel h.rawLimit
    rawOffset := hrel h.rawOffset }

namespace Token

/-- Alike tokens are of the same kinds. -/
theorem kinds_eq_of_alike {ts us : List Token} (h : Forall₂ Alike ts us) : kinds ts = kinds us := by
  induction h with
  | nil => rfl
  | cons h _ ih => rw [kinds_cons, kinds_cons, h.kind, ih]

variable {R : List Token → List Token → Prop} (hR : Cutting R)

include hR

theorem Cutting.kinds_eq {ts us : List Token} (h : R ts us) : kinds ts = kinds us :=
  kinds_eq_of_alike (hR.alike h)

theorem Cutting.length_eq {ts us : List Token} (h : R ts us) : ts.length = us.length := by
  rw [← length_kinds, hR.kinds_eq h, length_kinds]

/-- A cut of one list is a cut of the other. -/
theorem Cutting.exists_append {us as bs : List Token} (h : R (as ++ bs) us) :
    ∃ as' bs', us = as' ++ bs' ∧ R as as' ∧ R bs bs' := by
  refine ⟨us.take as.length, us.drop as.length, (List.take_append_drop _ us).symm, ?_, ?_⟩
  · have := hR.take as.length h
    rwa [List.take_left] at this
  · have := hR.drop as.length h
    rwa [List.drop_left] at this

/-- Related tokens have related first tokens and related rests. -/
theorem Cutting.exists_cons {us as : List Token} {t : Token} (h : R (t :: as) us) :
    ∃ u as', us = u :: as' ∧ R [t] [u] ∧ Alike t u ∧ R as as' := by
  obtain ⟨us₁, as', rfl, hone, hrest⟩ := hR.exists_append (show R ([t] ++ as) us from h)
  have halike := hR.alike hone
  obtain ⟨u, us₂, hu, hnil, rfl⟩ := forall₂_cons_left_iff.1 halike
  obtain rfl := forall₂_nil_left_iff.1 hnil
  exact ⟨u, as', rfl, hone, hu, hrest⟩

/-- The texts of related tokens are related, once they are trimmed. -/
theorem Cutting.related {ts us : List Token} (h : R ts us) :
    Related R (render ts).trim (render us).trim :=
  ⟨.of_stretch (hR.left h), .of_stretch (hR.right h), by
    rw [(hR.left h).tokenize_trim, (hR.right h).tokenize_trim]; exact hR.trimmed h⟩

/-- Of two related texts none is empty alone. -/
theorem Related.eq_nil_iff {s s' : Text} (h : Related R s s') : s = [] ↔ s' = [] := by
  have hlength := hR.length_eq h.tokens
  constructor
  · rintro rfl
    by_contra hne
    rw [tokenize_nil, List.length_nil] at hlength
    exact h.right.tokenize_ne_nil hne (List.eq_nil_of_length_eq_zero hlength.symm)
  · rintro rfl
    by_contra hne
    rw [tokenize_nil, List.length_nil] at hlength
    exact h.left.tokenize_ne_nil hne (List.eq_nil_of_length_eq_zero hlength)

/-- Related tokens fall into related parts. -/
theorem Cutting.splits {sep : Kind → Bool} {d : Nat} {ts us part : List Token}
    {parts : List (List Token)} (hsplit : Splits sep d ts part parts) (h : R ts us) :
    ∃ part' parts', Splits sep d us part' parts' ∧ Forall₂ R (part :: parts) (part' :: parts') := by
  induction hsplit generalizing us with
  | last clear =>
    exact ⟨us, [], .last (by rwa [← hR.kinds_eq h]), .cons h .nil⟩
  | more clear top isSep rest ih =>
    obtain ⟨part', bs, rfl, hpart, hbs⟩ := hR.exists_append h
    obtain ⟨u, us', rfl, -, hu, hrest⟩ := hR.exists_cons hbs
    obtain ⟨next, parts', hsplit, hparts⟩ := ih hrest
    refine ⟨part', next :: parts', .more ?_ ?_ ?_ hsplit, .cons hpart hparts⟩
    · rwa [← hR.kinds_eq hpart]
    · rwa [← hR.kinds_eq hpart]
    · rwa [← hu.kind]

/-- Related texts fall into related parts. -/
theorem Related.splitParts {sep : Kind → Bool} (hsep : sep .openParen = false) {s s' : Text}
    (h : Related R s s') : Forall₂ (Related R) (splitParts (fun t => sep t.kind) s)
      (splitParts (fun t => sep t.kind) s') := by
  obtain ⟨part, parts, hsplit⟩ := exists_splits sep hsep (tokenize s)
  obtain ⟨part', parts', hsplit', hparts⟩ := hR.splits hsplit h.tokens
  rw [splitParts_of_splits hsep hsplit, splitParts_of_splits hsep hsplit']
  have htrim : Forall₂ (Related R) ((part :: parts).map fun ts => (render ts).trim)
      ((part' :: parts').map fun ts => (render ts).trim) := by
    rw [forall₂_map_left_iff, forall₂_map_right_iff]
    exact hparts.imp fun _ _ => hR.related
  refine rel_filter (fun a b hab => ?_) htrim
  simp [hab.eq_nil_iff hR]

/-- The items of related lists are related. -/
theorem Related.splitItems {s s' : Text} (h : Related R s s') :
    Forall₂ (Related R) (splitItems s) (splitItems s') := by
  rw [splitItems_eq, splitItems_eq]
  exact h.splitParts hR rfl

/-- The conditions of related clauses are related. -/
theorem Related.splitConditions {s s' : Text} (h : Related R s s') :
    Forall₂ (Related R) (splitConditions s) (splitConditions s') := by
  rw [splitConditions_eq, splitConditions_eq]
  exact h.splitParts hR rfl

/-- A clause of one query is the clause of the other. -/
theorem Cutting.body? (c : Clause) {ts us : List Token} (h : R ts us) :
    Option.Rel (Related R) (c.body? ts) (c.body? us) := by
  cases hbody : c.body? ts with
  | none =>
    have hclear := (Clause.body?_eq_none_iff (hR.left h)).1 hbody
    rw [hR.kinds_eq h] at hclear
    rw [(Clause.body?_eq_none_iff (hR.right h)).2 hclear]
    exact .none
  | some b =>
    obtain ⟨before, opening, body, after, ⟨rfl, first, top, words, inner, stop⟩, rfl⟩ :=
      (Clause.body?_eq_some_iff (hR.left h)).1 hbody
    obtain ⟨before', rest, rfl, hbefore, h₁⟩ := hR.exists_append h
    obtain ⟨opening', rest, rfl, hopening, h₂⟩ := hR.exists_append h₁
    obtain ⟨body', after', rfl, hbody', hafter⟩ := hR.exists_append h₂
    have hplace : c.Place (before' ++ (opening' ++ (body' ++ after'))) before' opening' body'
        after' := by
      refine ⟨rfl, ?_, ?_, ?_, ?_, ?_⟩
      · rwa [← hR.kinds_eq hbefore, ← hR.kinds_eq h₁]
      · rwa [← hR.kinds_eq hbefore]
      · rwa [← hR.kinds_eq hopening]
      · rwa [← hR.kinds_eq hbody', ← hR.kinds_eq hafter]
      · rwa [← hR.kinds_eq hbody', ← hR.kinds_eq hafter, ← kinds_eq_nil_iff,
          ← hR.kinds_eq hafter, kinds_eq_nil_iff]
    rw [(Clause.body?_eq_some_iff (hR.right h)).2 ⟨_, _, _, _, hplace, rfl⟩]
    exact .some (hR.related hbody')

/-- A phrase is found in related tokens or in neither. -/
theorem Cutting.isSome_find? {words : List Keyword} (hne : words ≠ []) {ts us : List Token}
    (h : R ts us) : (Phrase.find? (words.map Keyword.spelling) ts).isSome =
      (Phrase.find? (words.map Keyword.spelling) us).isSome := by
  rw [Bool.eq_iff_iff, Option.isSome_iff_ne_none, Option.isSome_iff_ne_none, ne_eq, ne_eq,
    Phrase.find?_eq_none_iff (hR.left h) hne, Phrase.find?_eq_none_iff (hR.right h) hne,
    hR.kinds_eq h]

omit hR in
theorem Alike.symm {t u : Token} (h : Alike t u) : Alike u t :=
  ⟨h.kind.symm, fun hk => by
    have := h.text (by rwa [h.kind])
    rw [Text.eqIgnoreCase_iff] at this ⊢
    exact this.symm⟩

/-- A relation that can be cut can be cut when it is turned around. -/
theorem Cutting.flip : Cutting fun ts us => R us ts :=
  ⟨hR.right, hR.left, fun h => (hR.alike h).flip.imp fun _ _ h => Alike.symm h,
    fun n h => hR.take n h, fun n h => hR.drop n h, hR.trimmed⟩

/-- Where one query has an object, a related one has a related object. -/
theorem Cutting.exists_objectName? {ts us : List Token} (h : R ts us) {name : Text}
    (hname : objectName? ts = some name) :
    ∃ name', objectName? us = some name' ∧ Related R name name' := by
  obtain ⟨before, f, t, rest, rfl, hclear, htop, hf, ht, rfl⟩ :=
    (objectName?_eq_some_iff (hR.left h)).1 hname
  obtain ⟨before', us', rfl, hbefore, h₁⟩ := hR.exists_append h
  obtain ⟨f', us', rfl, -, hf', h₂⟩ := hR.exists_cons h₁
  obtain ⟨t', rest', rfl, htt, ht', hrest⟩ := hR.exists_cons h₂
  refine ⟨t'.text, (objectName?_eq_some_iff (hR.right h)).2 ⟨before', f', t', rest', rfl,
    ?_, ?_, ?_, ?_, rfl⟩, ?_⟩
  · rwa [← hR.kinds_eq hbefore, ← hR.kinds_eq h₁]
  · rwa [← hR.kinds_eq hbefore]
  · rwa [← hf'.kind]
  · rwa [← ht'.kind]
  · have hne : t.kind ≠ .unknown := by
      intro hk
      rw [hk] at ht
      cases ht
    have hrelated := hR.related htt
    rwa [(hR.left htt).trim_singleton hne,
      (hR.right htt).trim_singleton (by rwa [← ht'.kind])] at hrelated

omit hR in
/-- Two options are related when each value of either has a counterpart. -/
theorem optionRel_of_exists {α β : Type} {P : α → β → Prop} {x : Option α} {y : Option β}
    (h : ∀ a, x = some a → ∃ b, y = some b ∧ P a b) (h' : ∀ b, y = some b → ∃ a, x = some a) :
    Option.Rel P x y := by
  cases x with
  | some a =>
    obtain ⟨b, rfl, hab⟩ := h a rfl
    exact .some hab
  | none =>
    cases y with
    | none => exact .none
    | some b =>
      obtain ⟨a, ha⟩ := h' b rfl
      cases ha

/-- Related queries have related objects or none. -/
theorem Cutting.objectName? {ts us : List Token} (h : R ts us) :
    Option.Rel (Related R) (objectName? ts) (objectName? us) := by
  refine optionRel_of_exists (fun name hname => hR.exists_objectName? h hname) fun name' hname' => ?_
  obtain ⟨name, hname, -⟩ := hR.flip.exists_objectName? h hname'
  exact ⟨name, hname⟩

end Token

section Kinds

variable {ts us : List Token}

theorem Path.tailLength_congr (h : kinds ts = kinds us) :
    Path.tailLength ts = Path.tailLength us := by
  induction ts using Path.tailLength.induct generalizing us with
  | case1 point word ts hpath ih =>
    match us, h with
    | [_], h => simp at h
    | point' :: word' :: us, h =>
      simp only [kinds_cons, List.cons.injEq] at h
      simp only [Path.tailLength, ← h.1, ← h.2.1, ih h.2.2]
  | case2 point word ts hpath =>
    match us, h with
    | [_], h => simp at h
    | point' :: word' :: us, h =>
      simp only [kinds_cons, List.cons.injEq] at h
      simp only [Path.tailLength, ← h.1, ← h.2.1, hpath]
      rfl
  | case3 ts hshort =>
    have hlength := congrArg List.length h
    rw [length_kinds, length_kinds] at hlength
    match ts, us, hlength with
    | [], [], _ => rfl
    | [_], [_], _ => rfl
    | a :: b :: ts, _, _ => exact absurd rfl (hshort a b ts)

/-- How far a path goes is decided by kinds. -/
theorem Path.length?_congr (h : kinds ts = kinds us) : Path.length? ts = Path.length? us := by
  match ts, us, h with
  | [], [], _ => rfl
  | t :: ts, u :: us, h =>
    simp only [kinds_cons, List.cons.injEq] at h
    simp only [Path.length?, h.1, Path.tailLength_congr h.2]

/-- The partner of a parenthesis is decided by kinds. -/
theorem exists_closeGroup?_of_kinds (h : kinds ts = kinds us) {d : Nat} {inside rest : List Token}
    (hclose : closeGroup? d ts = some (inside, rest)) :
    ∃ inside' rest', closeGroup? d us = some (inside', rest') ∧ kinds inside = kinds inside' := by
  obtain ⟨t, rfl, ht, hlevel⟩ := closeGroup?_eq_some_iff.1 hclose
  rw [kinds_append] at h
  obtain ⟨inside', rest', rfl, hinside, hrest⟩ := List.map_eq_append_iff.1 h.symm
  obtain ⟨t', rest', rfl, ht', -⟩ := List.map_eq_cons_iff.1 hrest
  exact ⟨inside', rest', closeGroup?_eq_some_iff.2 ⟨t', rfl, ht'.trans ht, by
    rw [kinds, hinside]; exact hlevel⟩, hinside.symm⟩

/-- So is how far the arguments of a call go. -/
theorem groupLength_congr (h : kinds ts = kinds us) : groupLength ts = groupLength us := by
  match ts, us, h with
  | [], [], _ => rfl
  | t :: ts, u :: us, h =>
    simp only [kinds_cons, List.cons.injEq] at h
    have hlength := congrArg List.length h.2
    rw [length_kinds, length_kinds] at hlength
    simp only [groupLength, h.1]
    split
    · cases hclose : closeGroup? 0 ts with
      | some cut =>
        obtain ⟨inside', rest', hclose', hinside⟩ := exists_closeGroup?_of_kinds h.2 hclose
        have := congrArg List.length hinside
        rw [length_kinds, length_kinds] at this
        rw [hclose']
        simp only [this]
      | none =>
        cases hclose' : closeGroup? 0 us with
        | none => simp only [hlength]
        | some cut =>
          obtain ⟨_, _, hsome, -⟩ := exists_closeGroup?_of_kinds h.2.symm hclose'
          rw [hclose] at hsome
          cases hsome
    · rfl

/-- So is whether a condition starts with a field. -/
theorem Condition.startsField_congr (h : kinds ts = kinds us) :
    Condition.startsField ts = Condition.startsField us := by
  match ts, us, h with
  | [], [], _ => rfl
  | t :: ts, u :: us, h =>
    simp only [kinds_cons, List.cons.injEq] at h
    have hkinds : ∀ v : Token, ∀ vs, Condition.startsField (v :: vs) =
        (v.kind.isWord && v.kind != .keyword .NOT) := fun _ _ => rfl
    rw [hkinds, hkinds, h.1]

end Kinds

/-- No part of an operator starts with a quote. -/
theorem Operator.head?_of_mem_spellings {parts : Phrase} {op : Operator}
    (h : (parts, op) ∈ Operator.spellings) : ∀ part ∈ parts, ∀ q,
      (q = '\'' ∨ q = '"') → (Text.foldCase part).head? ≠ some q := by
  have hall : ∀ entry ∈ Operator.spellings, ∀ part ∈ entry.1,
      (Text.foldCase part).head? ≠ some '\'' ∧ (Text.foldCase part).head? ≠ some '"' := by
    decide +kernel
  rintro part hpart q (rfl | rfl)
  · exact (hall _ h part hpart).1
  · exact (hall _ h part hpart).2

/-- Alike tokens spell the same operators, as no operator starts with a quote. -/
theorem Operator.spelledBy_congr {parts : Phrase} (hparts : ∀ part ∈ parts, ∀ q,
    (q = '\'' ∨ q = '"') → (Text.foldCase part).head? ≠ some q) {ts us : List Token}
    (h : Forall₂ Alike ts us) (hts : ∀ t ∈ ts, Shape t) (hus : ∀ u ∈ us, Shape u) :
    Operator.spelledBy parts ts = Operator.spelledBy parts us := by
  induction parts generalizing ts us with
  | nil => cases ts <;> cases us <;> rfl
  | cons part parts ih =>
    cases h with
    | nil => rfl
    | @cons t u ts us htu h =>
      rw [Operator.spelledBy, Operator.spelledBy, ih (fun p hp => hparts p (by simp [hp])) h
        (fun t ht => hts t (by simp [ht])) fun u hu => hus u (by simp [hu])]
      congr 1
      rw [Bool.eq_iff_iff, Text.eqIgnoreCase_iff, Text.eqIgnoreCase_iff]
      by_cases hk : t.kind = .quoted
      · -- neither text is a part of an operator
        have hno : ∀ v : Token, Shape v → v.kind = .quoted →
            Text.foldCase v.text ≠ Text.foldCase part := by
          intro v hv hkv heq
          obtain ⟨q, hq, hhead⟩ := hv.of_quoted hkv
          refine hparts part (by simp) q hq ?_
          rw [← heq, Text.foldCase, List.head?_map, hhead]
          rcases hq with rfl | rfl <;> rfl
        exact iff_of_false (hno t (hts t (by simp)) hk) (hno u (hus u (by simp)) (htu.kind ▸ hk))
      · have := htu.text hk
        rw [Text.eqIgnoreCase_iff] at this
        rw [this]

/-- So the operator in front of alike tokens is the same. -/
theorem Operator.matchAt?_congr {ts us : List Token} (h : Forall₂ Alike ts us)
    (hts : ∀ t ∈ ts, Shape t) (hus : ∀ u ∈ us, Shape u) :
    Operator.matchAt? ts = Operator.matchAt? us := by
  have hall : ∀ entries ⊆ Operator.spellings,
      (entries.findSome? fun entry =>
        if Operator.spelledBy entry.1 ts then some (entry.2, entry.1.length) else none) =
      entries.findSome? fun entry =>
        if Operator.spelledBy entry.1 us then some (entry.2, entry.1.length) else none := by
    intro entries hsub
    induction entries with
    | nil => rfl
    | cons entry entries ih =>
      have hparts := Operator.head?_of_mem_spellings (hsub (List.mem_cons_self ..))
      rw [List.findSome?_cons, List.findSome?_cons, ih fun e he => hsub (by simp [he])]
      simp only [Operator.spelledBy_congr hparts h hts hus]
  exact hall _ fun _ h => h

section Parts

variable {R : List Token → List Token → Prop} (hR : Cutting R) {s s' : Text}

include hR

theorem Token.Related.trim_take (h : Related R s s') (n : Nat) :
    Related R (render ((tokenize s).take n)).trim (render ((tokenize s').take n)).trim :=
  hR.related (hR.take n h.tokens)

theorem Token.Related.trim_drop (h : Related R s s') (n : Nat) :
    Related R (render ((tokenize s).drop n)).trim (render ((tokenize s').drop n)).trim :=
  hR.related (hR.drop n h.tokens)

/-- Related fragments are similar conditions, or none. -/
theorem Token.Related.condition? (h : Related R s s') :
    Option.Rel (Condition.Similar (Related R)) (Condition.ofText? s) (Condition.ofText? s') := by
  have hkinds := hR.kinds_eq h.tokens
  rw [Condition.ofText?, Condition.ofText?]
  simp only [Condition.startsField_congr hkinds, Path.length?_congr hkinds]
  split
  · cases Path.length? (tokenize s') with
    | none => exact .none
    | some path =>
      have hgroup := groupLength_congr (hR.kinds_eq (hR.drop path h.tokens))
      have hmatch := fun n => Operator.matchAt?_congr (hR.alike (hR.drop n h.tokens))
        (fun t ht => (h.left.stretch.drop n).shape ht) fun u hu => (h.right.stretch.drop n).shape hu
      simp only [Option.bind_eq_bind, Option.bind_some, hgroup, hmatch]
      cases Operator.matchAt? ((tokenize s').drop
        (path + groupLength ((tokenize s').drop path))) with
      | none => exact .none
      | some found => exact .some ⟨h.trim_take hR _, rfl, h.trim_drop hR _⟩
  · exact .none

/-- Without their directions related items are related. -/
theorem Token.Related.stripOrderDirection (h : Related R s s') :
    Related R (stripOrderDirection s) (stripOrderDirection s') := by
  obtain ⟨as, bs, hcut⟩ : ∃ as bs, cutTop (fun us => headIs Kind.isDirection (kinds us)) 0
      (tokenize s) = (as, bs) := ⟨_, _, rfl⟩
  obtain ⟨hts, hclear, hstop⟩ := cutTop_eq_iff.1 hcut
  obtain ⟨as', bs', hus, has, hbs⟩ := hR.exists_append (hts ▸ h.tokens)
  have hcut' : cutTop (fun us => headIs Kind.isDirection (kinds us)) 0 (tokenize s') =
      (as', bs') := by
    refine cutTop_eq_iff.2 ⟨hus, ?_, ?_⟩
    · rwa [← hR.kinds_eq has, ← hR.kinds_eq hbs]
    · rwa [← hR.kinds_eq has, ← hR.kinds_eq hbs, ← kinds_eq_nil_iff, ← hR.kinds_eq hbs,
        kinds_eq_nil_iff]
  rw [stripOrderDirection_eq, stripOrderDirection_eq, hcut, hcut']
  exact hR.related has

/-- What is taken out of parentheses on one side is taken out on the other. -/
theorem Token.Related.exists_stripOuterParens? (h : Related R s s') {b : Text}
    (hb : stripOuterParens? s = some b) :
    ∃ b', stripOuterParens? s' = some b' ∧ Related R b b' := by
  obtain ⟨o, inside, c, htok, ho, hc, hlevel, rfl⟩ := stripOuterParens?_eq_some_iff.1 hb
  rw [h.left.tight.trim_eq] at htok
  obtain ⟨o', rest, hrest, -, ho', h₁⟩ := hR.exists_cons (htok ▸ h.tokens)
  obtain ⟨inside', last, rfl, hinside, h₂⟩ := hR.exists_append h₁
  obtain ⟨c', us, rfl, -, hc', h₃⟩ := hR.exists_cons h₂
  obtain rfl : us = [] := List.eq_nil_of_length_eq_zero (hR.length_eq h₃).symm
  refine ⟨(render inside').trim, stripOuterParens?_eq_some_iff.2 ⟨o', inside', c', ?_, ?_, ?_, ?_,
    rfl⟩, hR.related hinside⟩
  · rw [h.right.tight.trim_eq, hrest]
  · rw [← ho'.kind, ho]
  · rw [← hc'.kind, hc]
  · rw [← hR.kinds_eq hinside, hlevel]

omit hR in
theorem Token.Related.flip (h : Related R s s') : Related (fun ts us => R us ts) s' s :=
  ⟨h.right, h.left, h.tokens⟩

/-- Related texts are related without their parentheses. -/
theorem Token.Related.stripOuterParens? (h : Related R s s') :
    Option.Rel (Related R) (stripOuterParens? s) (stripOuterParens? s') := by
  refine optionRel_of_exists (fun b hb => h.exists_stripOuterParens? hR hb) fun b' hb' => ?_
  obtain ⟨b, hb, -⟩ := h.flip.exists_stripOuterParens? hR.flip hb'
  exact ⟨b, hb⟩

omit hR in
/-- Alike tokens call the same grouping function. -/
theorem startsGroupingCall_congr {ts us : List Token} (h : Forall₂ Alike ts us) :
    startsGroupingCall ts = startsGroupingCall us := by
  match ts, us, h with
  | [], [], _ => rfl
  | [_], [_], _ => rfl
  | t :: p :: ts, u :: q :: us, .cons htu (.cons hpq h) =>
    rw [startsGroupingCall, startsGroupingCall, htu.kind, hpq.kind]
    cases hword : u.kind.isWord with
    | false => rfl
    | true =>
      have hk : t.kind ≠ .quoted := by
        rw [htu.kind]
        intro hk
        rw [hk] at hword
        cases hword
      have htext := htu.text hk
      rw [Text.eqIgnoreCase_iff] at htext
      simp only [Text.eqIgnoreCase, htext]

/-- Related groupings have related columns. -/
theorem Token.Related.expandGrouping (h : Related R s s') :
    Forall₂ (Related R) (expandGrouping s) (expandGrouping s') := by
  rw [Soql.expandGrouping, Soql.expandGrouping]
  simp only [startsGroupingCall_congr (hR.alike h.tokens)]
  split
  · have hargs := (h.trim_drop hR 1).stripOuterParens? hR
    have htrim : ∀ x : Text, Soql.stripOuterParens? x.trim = Soql.stripOuterParens? x := by
      intro x
      rw [Soql.stripOuterParens?, Soql.stripOuterParens?, Text.trim_trim]
    rw [htrim, htrim] at hargs
    generalize Soql.stripOuterParens? (render (drop 1 (tokenize s))) = x at hargs
    generalize Soql.stripOuterParens? (render (drop 1 (tokenize s'))) = y at hargs
    cases hargs with
    | none => exact .cons h .nil
    | some hab => exact hab.splitItems hR
  · exact .cons h .nil

end Parts

/-- Letter case does not matter for a number. -/
theorem foldCase_of_number {s : Text} (h : ∀ c ∈ s, c.isDigit = true ∨ c = '.') :
    Text.foldCase s = s := by
  refine (List.map_congr_left fun c hc => toLower_of_not_upper ?_).trans (List.map_id s)
  rcases h c hc with hdigit | rfl
  · rw [isDigit_iff] at hdigit
    omega
  · decide

/-- A number is related to itself only. -/
theorem Token.Related.eq_of_isDigits {R : List Token → List Token → Prop} (hR : Cutting R)
    {s s' : Text} (h : Related R s s') (hs : Text.isDigits s = true) : s' = s := by
  have htok := h.tokens
  rw [tokenize_digits hs] at htok
  obtain ⟨u, us, hus, -, hu, hrest⟩ := hR.exists_cons htok
  obtain rfl : us = [] := List.eq_nil_of_length_eq_zero (hR.length_eq hrest).symm
  have hkind : u.kind = .number := hu.kind.symm
  have hs' : s' = u.text := by
    have htrim := (hus ▸ h.right.stretch).trim_singleton (by simp [hkind])
    rw [← hus, h.right.render, h.right.tight.trim_eq] at htrim
    exact htrim
  have htext := hu.text (by simp)
  rw [Text.eqIgnoreCase_iff] at htext
  rw [Text.isDigits_iff] at hs
  have hpart := (h.right.stretch.shape (t := u) (by simp [hus])).of_number hkind
  rw [foldCase_of_number fun c hc => .inl (hs.2 c hc), foldCase_of_number hpart] at htext
  rw [hs', htext]

/-- So related counts are the same. -/
theorem Token.Related.count? {R : List Token → List Token → Prop} (hR : Cutting R)
    {s s' : Text} (h : Related R s s') : Query.count? s = Query.count? s' := by
  by_cases hs : Text.isDigits s = true
  · rw [h.eq_of_isDigits hR hs]
  · by_cases hs' : Text.isDigits s' = true
    · rw [h.flip.eq_of_isDigits hR.flip hs']
    · simp [Query.count?, hs, hs']

section Clauses

variable {P : Text → Text → Prop} {x y : Option Text}

theorem isSome_eq_of_rel (h : Option.Rel P x y) : x.isSome = y.isSome := by
  cases h <;> rfl

theorem forall₂_getD {α : Type} {Q : α → α → Prop} {f : Text → List α}
    (hf : ∀ a b, P a b → Forall₂ Q (f a) (f b)) (h : Option.Rel P x y) :
    Forall₂ Q ((x.map f).getD []) ((y.map f).getD []) := by
  cases h with
  | none => exact .nil
  | some hab => exact hf _ _ hab

end Clauses

/-- Related tokens make up queries whose clauses are related. -/
theorem Query.ofTokens_similar {R : List Token → List Token → Prop} (hR : Cutting R)
    {ts us : List Token} (h : R ts us) :
    Query.Similar (Related R) (Query.ofTokens ts) (Query.ofTokens us) := by
  have hcount : ∀ {x y : Option Text}, Option.Rel (Related R) x y →
      x.bind Query.count? = y.bind Query.count? := by
    rintro _ _ (hab | _)
    · exact hab.count? hR
    · rfl
  exact {
    objectName := hR.objectName? h
    selectItems := forall₂_getD (fun _ _ hab => hab.splitItems hR) (hR.body? .selection h)
    groupItems := by
      refine forall₂_getD (fun _ _ hab => ?_) (hR.body? .grouping h)
      exact rel_flatMap (hab.splitItems hR) fun _ _ hcd => hcd.expandGrouping hR
    hasGroupBy := isSome_eq_of_rel (hR.body? .grouping h)
    hasHaving := hR.isSome_find? (List.cons_ne_nil Keyword.HAVING []) h
    hasOrderBy := isSome_eq_of_rel (hR.body? .ordering h)
    orderItems := by
      refine forall₂_getD (fun _ _ hab => ?_) (hR.body? .ordering h)
      refine rel_filter (fun a b hcd => by simp [hcd.eq_nil_iff hR]) ?_
      exact rel_map (fun _ _ hcd => hcd.stripOrderDirection hR) (hab.splitItems hR)
    conditions := by
      refine forall₂_getD (fun _ _ hab => ?_) (hR.body? .condition h)
      exact rel_filterMap (fun _ _ hcd => hcd.condition? hR) (hab.splitConditions hR)
    limit := hcount (hR.body? .limit h)
    offset := hcount (hR.body? .offset h)
    rawLimit := hR.body? .limit h
    rawOffset := hR.body? .offset h }

end Soql
