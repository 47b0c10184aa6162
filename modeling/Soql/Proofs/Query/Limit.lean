import Soql.Proofs.Builder.Legible
import Soql.Proofs.Query.Extraction

/-!
# A limit behind a query

A limit that is written behind a query without one changes the limit of the query and nothing else.
Every clause but the select list ends at `LIMIT`, and the select list ends at `FROM`, so a clause
that ran to the end of the query now runs to the limit and has the same text. Nothing may be open
where the limit is written, neither a parenthesis nor a quoted text.
-/

namespace Soql

open Kind Token

/-- The kinds of the tokens of a limit. -/
def limitKinds : List Kind :=
  [.keyword .LIMIT, .number]

/-- A search for anything else finds the same with a limit behind the tokens. -/
theorem Near.clear_append_limit_iff {f : List Kind → Bool} (hf : Near f)
    (hlimit : f limitKinds = false) (hnumber : f [.number] = false) {ks : List Kind}
    (htop : depth 0 ks = 0) : Clear f 0 (ks ++ limitKinds) [] ↔ Clear f 0 ks [] := by
  rw [clear_append_iff, htop]
  constructor
  · rintro ⟨h, -⟩
    exact (passes_of_clear hf htop h).clear rfl
  · intro h
    exact ⟨(passes_of_clear hf htop h).clear rfl, fun _ => hlimit, fun _ => hnumber, trivial⟩

namespace Clause

/-- Whether a clause opens is decided by the next two tokens. -/
theorem near_opens (c : Clause) : Near c.opens := by
  have hwords : ∃ w, c.openingWords = [w] ∨ c.openingWords = [w, .BY] := by
    cases c <;> simp [openingWords]
  exact near_leadsKinds hwords

/-- No phrase is continued beyond the end of a clause. -/
theorem ne_by_of_closes {c : Clause} {ks : List Kind} (h : c.closes ks = true) (ls : List Kind) :
    headIs (· == .keyword .BY) (ks ++ ls) = false := by
  cases ks with
  | nil =>
    rw [closes, List.any_eq_true] at h
    obtain ⟨words, hmem, hleads⟩ := h
    rw [Phrase.leadsKinds_nil (endingWords_ne_nil hmem)] at hleads
    cases hleads
  | cons k ks =>
    rw [List.cons_append, headIs_cons, beq_eq_false_iff_ne]
    rintro rfl
    cases c.search_closes _ _ h

theorem closes_append {c : Clause} {ks : List Kind} (h : c.closes ks = true) (ls : List Kind) :
    c.closes (ks ++ ls) = true := by
  rw [closes, List.any_eq_true] at h ⊢
  obtain ⟨words, hmem, hleads⟩ := h
  refine ⟨words, hmem, ?_⟩
  rw [Phrase.leadsKinds, List.isPrefixOf_iff_prefix] at hleads ⊢
  exact hleads.trans (List.prefix_append ks ls)

/-- All clauses but the selection end at a limit. -/
theorem closes_limit {c : Clause} (hlimit : c ≠ .limit) (hselection : c ≠ .selection) :
    c.closes limitKinds = true := by
  cases c <;> first | rfl | exact absurd rfl hlimit | exact absurd rfl hselection

section Append

variable {c : Clause} {ts before opening body after tail : List Token}

/-- A clause keeps its place and its body when a limit is written behind the query. -/
theorem Place.append_limit (h : c.Place ts before opening body after) (hlimit : c ≠ .limit)
    (hselection : c = .selection → after ≠ []) (hbal : Balanced (kinds ts))
    (htail : kinds tail = limitKinds) :
    c.Place (ts ++ tail) before opening body (after ++ tail) := by
  have hbody : depth 0 (kinds body) = 0 := depth_of_level? (h.balanced_body hbal)
  have hcloses : headIs (· == .keyword .BY) (kinds (after ++ tail)) = false ∧
      c.closes (kinds (after ++ tail)) = true := by
    rw [kinds_append, htail]
    rcases h.stop with rfl | ⟨-, hstop⟩
    · exact ⟨rfl, closes_limit hlimit fun hc => hselection hc rfl⟩
    · exact ⟨ne_by_of_closes hstop _, closes_append hstop _⟩
  refine ⟨by simp [h.eq], (passes_of_clear c.near_opens h.top h.first).clear ?_, h.top, h.words,
    (passes_of_clear c.near_closes hbody h.inner).clear hcloses.1, .inr ⟨hbody, hcloses.2⟩⟩
  rw [kinds_append, h.words]
  cases c <;> rfl

/-- A select list that is followed by an object ends before the end of the query. -/
theorem Place.after_ne_nil (h : selection.Place ts before opening body after) (hts : Stretch ts)
    (hselect : (kinds ts).head? = some (.keyword .SELECT))
    (hobject : (objectName? ts).isSome = true) : after ≠ [] := by
  rintro rfl
  obtain ⟨name, hname⟩ := Option.isSome_iff_exists.1 hobject
  obtain ⟨pre, f, t, rest, hpre, -, htop, hf, -⟩ := (objectName?_eq_some_iff hts).1 hname
  have hbefore : before = [] := by
    cases before with
    | nil => rfl
    | cons b before =>
      have hb : b.kind = .keyword .SELECT := by simpa [h.eq] using hselect
      have := h.first.1 rfl
      rw [hb] at this
      cases this
  obtain ⟨o, rfl, ho⟩ : ∃ o : Token, opening = [o] ∧ o.kind = .keyword .SELECT := by
    simpa [kinds, openingWords, List.map_eq_singleton_iff] using h.words
  have htokens : o :: body = pre ++ f :: t :: rest := by
    simpa [hbefore, h.eq] using hpre
  cases pre with
  | nil =>
    obtain ⟨rfl, -⟩ := List.cons.inj htokens
    rw [ho] at hf
    cases hf
  | cons p pre =>
    obtain ⟨rfl, hbody⟩ : o = p ∧ body = pre ++ f :: t :: rest := List.cons.inj htokens
    rw [kinds_cons, depth_cons, ho] at htop
    have hinner := h.inner
    rw [hbody, kinds_append, clear_append_iff] at hinner
    have hfrom := hinner.2.1 htop
    rw [hf] at hfrom
    cases hfrom

end Append

/-- What stands behind a query has no part in its object. -/
theorem objectName?_append {ts tail : List Token} (hts : Stretch (ts ++ tail))
    (hobject : (objectName? ts).isSome = true) : objectName? (ts ++ tail) = objectName? ts := by
  obtain ⟨name, hname⟩ := Option.isSome_iff_exists.1 hobject
  rw [hname]
  obtain ⟨before, f, t, rest, rfl, hclear, htop, hf, hword, rfl⟩ :=
    (objectName?_eq_some_iff hts.left).1 hname
  refine (objectName?_eq_some_iff hts).2 ⟨before, f, t, rest ++ tail, by simp, ?_, htop, hf, hword,
    rfl⟩
  refine (passes_of_clear (near_leadsKinds ⟨.FROM, .inl rfl⟩) htop hclear).clear ?_
  rw [kinds_cons, hf]
  rfl

section Body

variable {ts tail : List Token} (hts : Stretch (ts ++ tail)) (hbal : Balanced (kinds ts))
  (htail : kinds tail = limitKinds)

include hts hbal htail

/-- Every clause but the limit is what it was. -/
theorem body?_append_limit {c : Clause} (hlimit : c ≠ .limit)
    (hselection : c = .selection → (kinds ts).head? = some (.keyword .SELECT) ∧
      (objectName? ts).isSome = true) : c.body? (ts ++ tail) = c.body? ts := by
  cases hbody : c.body? ts with
  | none =>
    rw [body?_eq_none_iff hts.left] at hbody
    rw [body?_eq_none_iff hts, kinds_append, htail,
      c.near_opens.clear_append_limit_iff ?_ ?_ (depth_of_level? hbal)]
    · exact hbody
    · cases c <;> first | rfl | exact absurd rfl hlimit
    · cases c <;> rfl
  | some b =>
    obtain ⟨before, opening, body, after, hplace, rfl⟩ := (body?_eq_some_iff hts.left).1 hbody
    refine (body?_eq_some_iff hts).2 ⟨before, opening, body, after ++ tail, ?_, rfl⟩
    refine hplace.append_limit hlimit ?_ hbal htail
    rintro rfl
    exact hplace.after_ne_nil hts.left (hselection rfl).1 (hselection rfl).2

/-- The limit is the one that is written. -/
theorem limit_body?_append (hclear : Clear limit.opens 0 (kinds ts) []) {n : Nat}
    (htext : ∀ l ms, tail = l :: ms → Written (Text.ofNat n) ms) :
    limit.body? (ts ++ tail) = some (Text.ofNat n) := by
  have htop := depth_of_level? hbal
  obtain ⟨l, ms, rfl, hl, hms⟩ : ∃ l ms, tail = l :: ms ∧ l.kind = .keyword .LIMIT ∧
      kinds ms = [.number] := by
    cases tail with
    | nil => cases htail
    | cons l ms => exact ⟨l, ms, rfl, (List.cons.inj htail).1, (List.cons.inj htail).2⟩
  refine (body?_eq_some_iff hts).2 ⟨ts, [l], ms, [], ⟨by simp, ?_, htop, ?_, ?_, .inl rfl⟩, ?_⟩
  · refine (passes_of_clear limit.near_opens htop hclear).clear ?_
    simp [hl]
  · simp [hl, openingWords]
  · rw [hms]
    exact ⟨fun _ => rfl, trivial⟩
  · rw [(htext l ms rfl).trim_render, (piece_ofNat n).tight.trim_eq]

/-- A limit adds no condition on groups. -/
theorem hasHaving_append_limit :
    (Query.ofTokens (ts ++ tail)).hasHaving = (Query.ofTokens ts).hasHaving := by
  rw [Bool.eq_iff_iff, ← not_iff_not, Bool.not_eq_true, Bool.not_eq_true,
    Query.hasHaving_eq_false_iff hts, Query.hasHaving_eq_false_iff hts.left, kinds_append, htail]
  exact (near_leadsKinds ⟨.HAVING, .inl rfl⟩).clear_append_limit_iff rfl rfl (depth_of_level? hbal)

end Body

end Clause

theorem tokenize_LIMIT : tokenize "LIMIT".toList = [⟨[], .keyword .LIMIT, "LIMIT".toList⟩] := by
  decide +kernel

/-- A limit that is written behind a query is read behind it. -/
theorem exists_tokenize_append_limit {q : Text} (hq : Closed q) (n : Nat) : ∃ l ms,
    tokenize (q ++ " LIMIT ".toList ++ Text.ofNat n) = tokenize q ++ l :: ms ∧
      kinds (l :: ms) = limitKinds ∧ Written (Text.ofNat n) ms ∧
      Closed (q ++ " LIMIT ".toList ++ Text.ofNat n) := by
  have hlimit : Closed "LIMIT".toList := by rw [Closed, tokenize_LIMIT]; rfl
  have htext : q ++ " LIMIT ".toList ++ Text.ofNat n =
      q ++ ' ' :: ("LIMIT".toList ++ ' ' :: Text.ofNat n) := List.append_assoc _ _ _
  obtain ⟨us, ⟨g, hg, rfl⟩, htok⟩ :=
    exists_tokenize_space hq ("LIMIT".toList ++ ' ' :: Text.ofNat n)
  obtain ⟨ms, hms, htok'⟩ := exists_tokenize_space hlimit (Text.ofNat n)
  rw [htok', tokenize_LIMIT] at htok
  refine ⟨_, ms, htext ▸ htok, ?_, hms, ?_⟩
  · rw [kinds_cons, hms.kinds_eq, kindsOf_ofNat]
    rfl
  · rw [htext]
    exact hq.space _ (hlimit.space _ (piece_ofNat n).closed)

/-- A limit that is written behind a query changes the limit of the query only. -/
theorem Query.ofText_append_limit {q : Text} {n : Nat}
    (hselect : (kindsOf q).head? = some (.keyword .SELECT)) (hclosed : Closed q)
    (hbalanced : isBalanced (tokenize q) = true) (hobject : (ofText q).objectName.isSome = true)
    (hlimit : (Cursor.ofText q).findKeyword "LIMIT".toList = none) (hn : n < UInt64.size) :
    ofText (q ++ " LIMIT ".toList ++ Text.ofNat n) =
      { ofText q with limit := some n, rawLimit := some (Text.ofNat n) } := by
  have hbal : Balanced (kinds (tokenize q)) := isBalanced_iff.1 hbalanced
  obtain ⟨l, ms, htok, htail, hms, hwhole⟩ := exists_tokenize_append_limit hclosed n
  have hts : Stretch (tokenize q ++ l :: ms) := htok ▸ stretch_tokenize hwhole
  have hclear : Clear Clause.limit.opens 0 (kinds (tokenize q)) [] := by
    have hnone := isSome_extractClause_iff Clause.limit.opening Clause.limit.endings q
    rw [show (Cursor.ofText q).findKeyword Clause.limit.opening = none from hlimit,
      Option.isSome_none, Option.isSome_eq_false_iff, Option.isNone_iff_eq_none] at hnone
    exact (Clause.body?_eq_none_iff hts.left).1 hnone
  have hbody {c : Clause} (hc : c ≠ .limit) :=
    Clause.body?_append_limit hts hbal htail hc fun _ => ⟨hselect, hobject⟩
  have hraw := Clause.limit_body?_append hts hbal htail hclear fun _ _ heq =>
    (List.cons.inj heq).2 ▸ hms
  have hname := Clause.objectName?_append hts hobject
  have hhaving := Clause.hasHaving_append_limit hts hbal htail
  simp only [ofTokens] at hhaving
  rw [ofText, ofText, htok]
  simp only [ofTokens, hbody, hraw, hname, hhaving, ne_eq, reduceCtorEq, not_false_eq_true,
    Option.bind_some, count?_ofNat hn]

/-- A query with a limit in parentheses and in quotes only, whose last clause is empty. -/
def contactsOfOwner : Text :=
  ("select Id, (SELECT Id FROM Contacts LIMIT 5) FROM Account WHERE Name = 'LIMIT' " ++
    "WITH x OFFSET 3 ORDER BY").toList

/-- The largest limit that fits is added to a query with a subquery. -/
theorem Query.ofText_append_limit_contactsOfOwner :
    (kindsOf contactsOfOwner).head? = some (.keyword .SELECT) ∧ Closed contactsOfOwner ∧
    isBalanced (tokenize contactsOfOwner) = true ∧
    (ofText contactsOfOwner).objectName.isSome = true ∧
    (Cursor.ofText contactsOfOwner).findKeyword "LIMIT".toList = none ∧
    ofText (contactsOfOwner ++ " LIMIT ".toList ++ Text.ofNat 18446744073709551615) =
      { ofText contactsOfOwner with
        limit := some 18446744073709551615
        rawLimit := some (Text.ofNat 18446744073709551615) } := by
  have hquery : (kindsOf contactsOfOwner).head? = some (.keyword .SELECT) ∧
      Closed contactsOfOwner ∧ isBalanced (tokenize contactsOfOwner) = true ∧
      (ofText contactsOfOwner).objectName.isSome = true ∧
      (Cursor.ofText contactsOfOwner).findKeyword "LIMIT".toList = none := by
    decide +kernel
  obtain ⟨hselect, hclosed, hbalanced, hobject, hlimit⟩ := hquery
  exact ⟨hselect, hclosed, hbalanced, hobject, hlimit,
    ofText_append_limit hselect hclosed hbalanced hobject hlimit (by decide)⟩

end Soql
