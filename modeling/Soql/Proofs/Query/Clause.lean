import Soql.Proofs.Token.Level
import Soql.Query.Clause

/-!
# Where clauses are found

Phrases are looked for by the wording of tokens. On closed tokens this comes down to their kinds: a
word spells a keyword exactly when it has that kind (`wording_iff`). So the place of a clause is
given by what is clear of which phrases, as a `Clause.Place`; reading the clause of a query and
putting a clause where it will be read are the two directions of `Clause.body?_eq_some_iff`.
-/

namespace Soql

open Kind Token

namespace Token

/-- A word spells a keyword exactly when it has that kind. -/
theorem wording_iff {t : Token} (h : Shape t) {k : Keyword} :
    (t.kind.isWord && Text.eqIgnoreCase t.text k.spelling) = true ↔ t.kind = .keyword k := by
  cases h with
  | word c s text start part kind =>
    rw [kind, isWord_ofWord, Bool.true_and, ← Keyword.ofWord?_eq_some_iff, Kind.ofWord]
    cases Keyword.ofWord? t.text <;> simp
  | number kind => simp [kind, Kind.isWord]
  | quoted kind => simp [kind, Kind.isWord]
  | symbol text =>
    cases hk : t.kind <;> simp_all [symbolText, Kind.isWord]
  | wide kind => simp [kind, Kind.isWord]
  | single kind => simp [kind, Kind.isWord]

end Token

namespace Phrase

/-- The first tokens are keywords in a row. -/
def leadsKinds (words : List Keyword) (ks : List Kind) : Bool :=
  (words.map Kind.keyword).isPrefixOf ks

/-- In a stretch a phrase is found by the kinds of the tokens alone. -/
theorem leads_eq {ts : List Token} (h : Stretch ts) (words : List Keyword) :
    leads (words.map Keyword.spelling) ts = leadsKinds words (kinds ts) := by
  induction words generalizing ts with
  | nil => cases ts <;> rfl
  | cons k words ih =>
    cases ts with
    | nil => rfl
    | cons t ts =>
      have hts : Stretch ts := h.drop 1
      rw [List.map_cons, leads, ih hts, leadsKinds, leadsKinds, List.map_cons, kinds_cons,
        List.isPrefixOf]
      congr 1
      rw [Bool.eq_iff_iff, wording_iff (h.shape (by simp)), beq_iff_eq, eq_comm]

/-- So is the place where it stands. -/
theorem isAt_eq {ts : List Token} (h : Stretch ts) {words : List Keyword} (hne : words ≠ []) :
    isAt (words.map Keyword.spelling) ts = leadsKinds words (kinds ts) := by
  rw [isAt, leads_eq h]
  cases words with
  | nil => exact absurd rfl hne
  | cons k words => rfl

/-- A phrase that leads starts with its first keyword. -/
theorem eq_of_leadsKinds {w : Keyword} {words : List Keyword} {k : Kind} {ks : List Kind}
    (h : leadsKinds (w :: words) (k :: ks) = true) : k = .keyword w := by
  rw [leadsKinds, List.map_cons, List.isPrefixOf, Bool.and_eq_true, beq_iff_eq] at h
  exact h.1.symm

theorem leadsKinds_nil {words : List Keyword} (hne : words ≠ []) : leadsKinds words [] = false := by
  cases words with
  | nil => exact absurd rfl hne
  | cons k words => rfl

section Find

variable {ts : List Token} {words : List Keyword}

theorem cutTop_isAt (h : Stretch ts) (hne : words ≠ []) (d : Nat) :
    cutTop (isAt (words.map Keyword.spelling)) d ts =
      cutTop (fun us => leadsKinds words (kinds us)) d ts := by
  apply cutTop_congr
  rintro us ⟨pre, rfl⟩
  exact isAt_eq h.right hne

/-- A phrase is found at the first place at top level where its keywords stand. -/
theorem find?_eq_some_iff (h : Stretch ts) (hne : words ≠ []) {found : List Token} :
    find? (words.map Keyword.spelling) ts = some found ↔ ∃ before, ts = before ++ found ∧
      Clear (leadsKinds words) 0 (kinds before) (kinds found) ∧ depth 0 (kinds before) = 0 ∧
      leadsKinds words (kinds found) = true := by
  obtain ⟨as, bs, hcut⟩ : ∃ as bs,
    cutTop (fun us => leadsKinds words (kinds us)) 0 ts = (as, bs) := ⟨_, _, rfl⟩
  rw [find?, cutTop_isAt h hne, hcut]
  constructor
  · intro hfound
    cases bs with
    | nil => cases hfound
    | cons t bs =>
      simp only [Option.some.injEq] at hfound
      subst hfound
      obtain ⟨hts, hclear, hstop⟩ := cutTop_eq_iff.1 hcut
      rcases hstop with hnil | hstop
      · cases hnil
      · exact ⟨as, hts, hclear, hstop⟩
  · rintro ⟨before, hts, hclear, htop, hleads⟩
    have := cutTop_eq_iff.2 ⟨hts, hclear, .inr ⟨htop, hleads⟩⟩
    rw [hcut, Prod.mk.injEq] at this
    obtain ⟨rfl, rfl⟩ := this
    cases bs with
    | nil =>
      rw [kinds_nil, leadsKinds_nil hne] at hleads
      cases hleads
    | cons t bs => rfl

/-- A phrase that is not found stands nowhere at top level. -/
theorem find?_eq_none_iff (h : Stretch ts) (hne : words ≠ []) :
    find? (words.map Keyword.spelling) ts = none ↔ Clear (leadsKinds words) 0 (kinds ts) [] := by
  obtain ⟨as, bs, hcut⟩ : ∃ as bs,
    cutTop (fun us => leadsKinds words (kinds us)) 0 ts = (as, bs) := ⟨_, _, rfl⟩
  rw [find?, cutTop_isAt h hne, hcut]
  constructor
  · intro hfound
    cases bs with
    | nil =>
      obtain ⟨rfl, hclear, -⟩ := cutTop_eq_iff.1 hcut
      rwa [List.append_nil]
    | cons t bs => cases hfound
  · intro hclear
    have := cutTop_eq_iff.2 ⟨(List.append_nil ts).symm, hclear, .inl rfl⟩
    rw [hcut, Prod.mk.injEq] at this
    rw [this.2]

end Find

theorem find?_from_eq_some_iff {ts : List Token} (h : Stretch ts) (found : List Token) :
    find? [Keyword.FROM.spelling] ts = some found ↔ ∃ before, ts = before ++ found ∧
      Clear (leadsKinds [.FROM]) 0 (kinds before) (kinds found) ∧ depth 0 (kinds before) = 0 ∧
      leadsKinds [.FROM] (kinds found) = true :=
  find?_eq_some_iff h (List.cons_ne_nil Keyword.FROM [])

end Phrase

namespace Clause

/-- The keywords that open a clause. -/
def openingWords : Clause → List Keyword
  | .selection => [.SELECT]
  | .condition => [.WHERE]
  | .grouping => [.GROUP, .BY]
  | .ordering => [.ORDER, .BY]
  | .limit => [.LIMIT]
  | .offset => [.OFFSET]

/-- The keywords that close a clause. -/
def endingWords : Clause → List (List Keyword)
  | .selection => [[.FROM]]
  | .condition => [[.GROUP, .BY], [.ORDER, .BY], [.LIMIT], [.OFFSET], [.HAVING], [.WITH], [.FOR]]
  | .grouping => [[.HAVING], [.ORDER, .BY], [.LIMIT], [.OFFSET], [.WITH], [.FOR]]
  | .ordering => [[.LIMIT], [.OFFSET], [.FOR]]
  | .limit => [[.OFFSET], [.FOR]]
  | .offset => [[.LIMIT], [.FOR]]

theorem openingWords_ne_nil (c : Clause) : c.openingWords ≠ [] := by
  cases c <;> simp [openingWords]

theorem endingWords_ne_nil {c : Clause} {words : List Keyword} (h : words ∈ c.endingWords) :
    words ≠ [] := by
  rintro rfl
  cases c <;> simp [endingWords] at h

theorem ofText_opening (c : Clause) :
    Phrase.ofText c.opening = c.openingWords.map Keyword.spelling := by
  cases c <;> decide +kernel

theorem map_ofText_endings (c : Clause) :
    c.endings.map Phrase.ofText = c.endingWords.map (·.map Keyword.spelling) := by
  cases c <;> decide +kernel

/-- The clause opens with the first tokens. -/
def opens (c : Clause) (ks : List Kind) : Bool :=
  Phrase.leadsKinds c.openingWords ks

/-- The clause ends before the first token. -/
def closes (c : Clause) (ks : List Kind) : Bool :=
  c.endingWords.any (Phrase.leadsKinds · ks)

/-- The tokens of a query around the body of a clause. -/
structure Place (c : Clause) (ts before opening body after : List Token) : Prop where
  eq : ts = before ++ (opening ++ (body ++ after))
  first : Clear c.opens 0 (kinds before) (kinds (opening ++ (body ++ after)))
  top : depth 0 (kinds before) = 0
  words : kinds opening = c.openingWords.map Kind.keyword
  inner : Clear c.closes 0 (kinds body) (kinds after)
  stop : after = [] ∨ depth 0 (kinds body) = 0 ∧ c.closes (kinds after) = true

section Place

variable {c : Clause} {ts before opening body after : List Token}
  (h : c.Place ts before opening body after)

include h

/-- Nothing is open where the body of a clause starts. -/
theorem Place.top_body : depth 0 (kinds before ++ kinds opening) = 0 := by
  rw [depth_append, h.top, h.words]
  exact depth_of_level? (level?_of_no_group (by simp) 0)

/-- The tokens between two clauses are a stretch. -/
theorem Place.stretch_body (hts : Stretch ts) : Stretch body := by
  rw [h.eq] at hts
  exact hts.right.right.left

/-- A clause closes what it opens. -/
theorem Place.balanced_body (hbal : Balanced (kinds ts)) : Balanced (kinds body) := by
  rw [h.eq, ← List.append_assoc, kinds_append, kinds_append, kinds_append] at hbal
  refine balanced_of_append hbal h.top_body ?_
  rcases h.stop with rfl | ⟨htop, -⟩
  · exact .inl rfl
  · exact .inr htop

end Place

/-- Whether a clause ends at some tokens is decided by their kinds. -/
theorem any_isAt_eq (c : Clause) {ts : List Token} (h : Stretch ts) :
    (c.endings.map Phrase.ofText).any (·.isAt ts) = c.closes (kinds ts) := by
  rw [map_ofText_endings, List.any_map, closes, Bool.eq_iff_iff, List.any_eq_true, List.any_eq_true]
  constructor
  · rintro ⟨words, hwords, hat⟩
    exact ⟨words, hwords, by rw [← Phrase.isAt_eq h (endingWords_ne_nil hwords)]; exact hat⟩
  · rintro ⟨words, hwords, hat⟩
    exact ⟨words, hwords, by rw [← Phrase.isAt_eq h (endingWords_ne_nil hwords)] at hat; exact hat⟩

/-- A clause is cut off where it closes. -/
theorem cutTop_ends {c : Clause} {ts : List Token} (h : Stretch ts) (d : Nat) :
    cutTop (fun us => (c.endings.map Phrase.ofText).any (·.isAt us)) d ts =
      cutTop (fun us => c.closes (kinds us)) d ts := by
  apply cutTop_congr
  rintro us ⟨pre, rfl⟩
  exact any_isAt_eq c h.right

section Body

variable {c : Clause} {ts : List Token}

/-- The keywords of a phrase that leads are the first tokens. -/
theorem leadsKinds_iff {words : List Keyword} {us : List Token} :
    Phrase.leadsKinds words (kinds us) = true ↔
      ∃ opening rest, us = opening ++ rest ∧ kinds opening = words.map Kind.keyword := by
  rw [Phrase.leadsKinds, List.isPrefixOf_iff_prefix]
  constructor
  · rintro ⟨ks, hks⟩
    obtain ⟨opening, rest, rfl, hopening, -⟩ := List.map_eq_append_iff.1 hks.symm
    exact ⟨opening, rest, rfl, hopening⟩
  · rintro ⟨opening, rest, rfl, hopening⟩
    exact ⟨kinds rest, by rw [← hopening, kinds_append]⟩

/-- The body of a clause stands between the words that open it and those that end it. -/
theorem body?_eq_some_iff (h : Stretch ts) {b : Text} : c.body? ts = some b ↔
    ∃ before opening body after, c.Place ts before opening body after ∧
      b = (render body).trim := by
  rw [Clause.body?, Phrase.body?, Phrase.between?, ofText_opening]
  simp only [Option.map_eq_some_iff, Phrase.find?_eq_some_iff h c.openingWords_ne_nil]
  constructor
  · rintro ⟨body, ⟨found, ⟨before, rfl, hfirst, htop, hleads⟩, rfl⟩, rfl⟩
    obtain ⟨opening, rest, rfl, hwords⟩ := leadsKinds_iff.1 hleads
    have hlength : opening.length = (c.openingWords.map Keyword.spelling).length := by
      have := congrArg List.length hwords
      simpa using this
    rw [← hlength, List.drop_left, cutTop_ends (h.right.right)]
    · obtain ⟨body, after, hcut⟩ : ∃ body after,
        cutTop (fun us => c.closes (kinds us)) 0 rest = (body, after) := ⟨_, _, rfl⟩
      obtain ⟨rfl, hinner, hstop⟩ := cutTop_eq_iff.1 hcut
      rw [hcut]
      exact ⟨before, opening, body, after, ⟨rfl, hfirst, htop, hwords, hinner, hstop⟩, rfl⟩
  · rintro ⟨before, opening, body, after, ⟨rfl, hfirst, htop, hwords, hinner, hstop⟩, rfl⟩
    have hlength : opening.length = (c.openingWords.map Keyword.spelling).length := by
      have := congrArg List.length hwords
      simpa using this
    refine ⟨body, ⟨opening ++ (body ++ after), ⟨before, rfl, hfirst, htop,
      leadsKinds_iff.2 ⟨opening, _, rfl, hwords⟩⟩, ?_⟩, rfl⟩
    rw [← hlength, List.drop_left, cutTop_ends h.right.right, cutTop_eq_iff.2 ⟨rfl, hinner, hstop⟩]

/-- A clause is missing if nothing opens it at top level. -/
theorem body?_eq_none_iff (h : Stretch ts) : c.body? ts = none ↔ Clear c.opens 0 (kinds ts) [] := by
  rw [Clause.body?, Phrase.body?, Phrase.between?, ofText_opening, Option.map_eq_none_iff,
    Option.map_eq_none_iff, Phrase.find?_eq_none_iff h c.openingWords_ne_nil]
  rfl

end Body

end Clause

/-- The object of a query is the word behind its first `FROM`. -/
theorem Token.objectName?_eq_some_iff {ts : List Token} (h : Stretch ts) {name : Text} :
    objectName? ts = some name ↔ ∃ before f t rest, ts = before ++ f :: t :: rest ∧
      Clear (Phrase.leadsKinds [.FROM]) 0 (kinds before) (kinds (f :: t :: rest)) ∧
      depth 0 (kinds before) = 0 ∧ f.kind = .keyword .FROM ∧ t.kind.isWord = true ∧
      t.text = name := by
  have hfind (found : List Token) := Phrase.find?_from_eq_some_iff h found
  rw [objectName?]
  constructor
  · split
    · next f t rest hfound =>
      obtain ⟨before, hts, hclear, htop, hleads⟩ := (hfind _).1 hfound
      have hf : .keyword .FROM = f.kind := by
        simpa [Phrase.leadsKinds] using hleads
      intro hname
      split at hname
      · next hword =>
        exact ⟨before, f, t, rest, hts, hclear, htop, hf.symm, hword, Option.some.inj hname⟩
      · cases hname
    · intro hname
      cases hname
  · rintro ⟨before, f, t, rest, hts, hclear, htop, hf, hword, rfl⟩
    have hleads : Phrase.leadsKinds [.FROM] (kinds (f :: t :: rest)) = true := by
      simp [Phrase.leadsKinds, hf]
    rw [(hfind _).2 ⟨before, hts, hclear, htop, hleads⟩]
    simp [hword]

/-- The name of the object is one word. -/
theorem Token.isWordPart_of_objectName? {ts : List Token} (h : Stretch ts) {name : Text}
    (hname : objectName? ts = some name) : ∀ c ∈ name, isWordPart c = true := by
  obtain ⟨before, f, t, rest, rfl, -, -, -, hword, rfl⟩ := (objectName?_eq_some_iff h).1 hname
  obtain ⟨c, s, text, start, part, -⟩ := (h.shape (t := t) (by simp)).of_isWord hword
  rw [text]
  rintro x (_ | ⟨_, hx⟩)
  · exact isWordPart_of_isWordStart start
  · exact part x hx

end Soql
