import Soql.Proofs.Query.Search
import Soql.Proofs.Token.Join
import Soql.Query.Model

/-!
# The layout of a written query

A query is written as its items, its object and then its clauses, each behind the words that open
it. Reading finds a clause where it was written when the searches for it pass over everything
before it and the search for its end passes over its body; `Clause.ReadsBack` says just that.
-/

namespace Soql

open Kind Token

/-- A query on an object, with further text behind it. -/
def writeSelect (items object rest : Text) : Text :=
  "SELECT ".toList ++ items ++ " FROM ".toList ++ object ++ if rest.isEmpty then [] else ' ' :: rest

/-- A clause as it is written. -/
def Clause.write (c : Clause) (body : Text) : Text :=
  c.opening ++ ' ' :: body

/-- The tokens of a query that is written as items, an object and a rest. -/
structure Heading (items object rest : Text) (all its ts : List Token) : Prop where
  eq : ∃ s f o, all = s :: (its ++ f :: o :: ts) ∧ s.kind = .keyword .SELECT ∧
    f.kind = .keyword .FROM ∧ o.kind.isWord = true ∧ kindsOf object = [o.kind] ∧ o.text = object
  stretch : Stretch all
  items : Written items its
  rest : Written rest ts

/-- A text that is one token, whatever blanks stand before it. -/
theorem Written.eq_singleton {s : Text} {t : Token} {ts : List Token} (h : Written s ts)
    (hs : tokenize s = [t]) : ∃ u, ts = [u] ∧ u.kind = t.kind ∧ u.text = t.text := by
  obtain ⟨g, -, rfl⟩ := h
  rw [hs]
  exact ⟨_, rfl, rfl, rfl⟩

theorem writeSelect_eq (items object rest : Text) : writeSelect items object rest =
    Text.join [' '] ["SELECT".toList, items, "FROM".toList,
      object ++ if rest.isEmpty then [] else ' ' :: rest] := by
  have hselect : "SELECT ".toList = "SELECT".toList ++ [' '] := by decide
  have hfrom : " FROM ".toList = [' '] ++ "FROM".toList ++ [' '] := by decide
  unfold writeSelect
  generalize (if rest.isEmpty then [] else ' ' :: rest) = tail
  rw [hselect, hfrom]
  generalize "SELECT".toList = select
  generalize "FROM".toList = word
  simp only [Text.join, List.append_assoc]

/-- What is written starts with a selection and an object that are read as such. -/
theorem exists_heading {items object rest : Text} {k : Kind} (hitems : Closed items)
    (hobject : tokenize object = [⟨[], k, object⟩]) (hk : k.isWord = true) (hrest : Closed rest) :
    ∃ its ts, Heading items object rest (tokenize (writeSelect items object rest)) its ts := by
  have hselect : tokenize "SELECT".toList = [⟨[], .keyword .SELECT, "SELECT".toList⟩] := by
    decide +kernel
  have hfrom : tokenize "FROM".toList = [⟨[], .keyword .FROM, "FROM".toList⟩] := by decide +kernel
  have hobject' : Closed object := by
    rw [Closed, hobject]
    cases k <;> first | rfl | cases hk
  have htail : ∃ ts, Written rest ts ∧
      tokenize (object ++ if rest.isEmpty then [] else ' ' :: rest) = tokenize object ++ ts := by
    cases rest with
    | nil => exact ⟨[], tokenize_nil ▸ written_tokenize [], by simp⟩
    | cons c rest => exact exists_tokenize_space hobject' (c :: rest)
  obtain ⟨ts, hts, htok⟩ := htail
  rw [writeSelect_eq]
  generalize (object ++ if rest.isEmpty then [] else ' ' :: rest) = tail at htok ⊢
  generalize "SELECT".toList = select at hselect ⊢
  generalize "FROM".toList = word at hfrom ⊢
  have hclosed : ∀ y ∈ [select, items, word, tail], Closed y := by
    simp only [List.mem_cons, List.not_mem_nil, or_false]
    rintro y (rfl | rfl | rfl | rfl)
    · rw [Closed, hselect]
      rfl
    · exact hitems
    · rw [Closed, hfrom]
      rfl
    · rw [Closed, htok, hasUnclosed_append, hobject', hts.hasUnclosed_eq, hrest]
      rfl
  obtain ⟨tss, htss, hall⟩ := exists_flatten_of_join_space hclosed (written_tokenize _)
  obtain ⟨ss, hss, its, hits, fs, hfs, os, ⟨g, hg, rfl⟩, rfl⟩ : ∃ ss, Written select ss ∧
      ∃ its, Written items its ∧ ∃ fs, Written word fs ∧ ∃ os, Written tail os ∧
        tss = [ss, its, fs, os] := by
    rcases htss with _ | ⟨hs, _ | ⟨hi, _ | ⟨hf, _ | ⟨ho, _ | _⟩⟩⟩⟩
    exact ⟨_, hs, _, hi, _, hf, _, ho, rfl⟩
  obtain ⟨s, rfl, hs, -⟩ := hss.eq_singleton hselect
  obtain ⟨f, rfl, hf, -⟩ := hfs.eq_singleton hfrom
  rw [htok, hobject] at hall
  refine ⟨its, ts, ⟨s, f, ⟨g ++ [], k, object⟩, ?_, hs, hf, hk, ?_, rfl⟩, stretch_tokenize ?_, hits, hts⟩
  · rw [hall]
    simp [Token.indent]
  · rw [kindsOf, hobject]
    rfl
  · rw [hall]
    have hk' : (k == .unclosed) = false := by
      cases k <;> first | rfl | cases hk
    simp [Token.indent, hs, hf, hk', hits.hasUnclosed_eq, hts.hasUnclosed_eq, hitems, hrest]

namespace Heading

variable {items object rest : Text} {all its ts : List Token} (h : Heading items object rest all its ts)

include h

/-- The items are read up to the object. -/
theorem selection_body? (hpass : Passes Clause.selection.closes (kindsOf items)) :
    Clause.selection.body? all = some items.trim := by
  obtain ⟨s, f, o, heq, hs, hf, -⟩ := h.eq
  refine (Clause.body?_eq_some_iff h.stretch).2 ⟨[], [s], its, f :: o :: ts, ?_, ?_⟩
  · rw [← h.items.kinds_eq] at hpass
    refine ⟨heq, trivial, rfl, by simp [hs, Clause.openingWords], hpass.clear ?_, .inr ⟨hpass.top, ?_⟩⟩
    · rw [kinds_cons, headIs_cons, hf]
      rfl
    · rw [kinds_cons, hf]
      rfl
  · exact h.items.trim_render.symm

/-- The first `FROM` is the one before the object. -/
theorem find?_from (hpass : Passes (Phrase.leadsKinds [.FROM]) (kindsOf items)) :
    ∃ f o, Phrase.find? [Keyword.FROM.spelling] all = some (f :: o :: ts) ∧
      o.kind.isWord = true ∧ o.text = object := by
  obtain ⟨s, f, o, heq, hs, hf, hword, -, htext⟩ := h.eq
  rw [← h.items.kinds_eq] at hpass
  refine ⟨f, o, ?_, hword, htext⟩
  refine (Phrase.find?_from_eq_some_iff h.stretch _).2 ⟨s :: its, heq, ?_, ?_, ?_⟩
  · rw [kinds_cons, hs, clear_cons_iff]
    refine ⟨fun _ => rfl, hpass.clear ?_⟩
    rw [kinds_cons, headIs_cons, hf]
    rfl
  · rw [kinds_cons, hs]
    exact hpass.top
  · rw [kinds_cons, hf]
    rfl

/-- The object is found behind the selection. -/
theorem objectName? (hpass : Passes (Phrase.leadsKinds [.FROM]) (kindsOf items)) :
    Token.objectName? all = some object := by
  obtain ⟨f, o, hfind, hword, htext⟩ := h.find?_from hpass
  rw [Token.objectName?, hfind]
  simp [hword, htext]

/-- A search passes over the query up to the clauses if it passes over its items and its object. -/
theorem exists_passes {f : List Kind → Bool} (hselect : ∀ ls, f (.keyword .SELECT :: ls) = false)
    (hfrom : ∀ ls, f (.keyword .FROM :: ls) = false) (hitems : Passes f (kindsOf items))
    (hobject : Passes f (kindsOf object)) : ∃ hd, all = hd ++ ts ∧ Passes f (kinds hd) := by
  obtain ⟨s, f', o, heq, hs, hf, -, hkind, -⟩ := h.eq
  refine ⟨s :: (its ++ [f', o]), by simp [heq], ?_⟩
  rw [← h.items.kinds_eq] at hitems
  rw [hkind] at hobject
  rw [kinds_cons, kinds_append, kinds_cons, hs, hf]
  exact .cons hselect rfl (hitems.append (.cons hfrom rfl hobject) rfl)

/-- The query is balanced if its items and the rest are. -/
theorem balanced (hitems : Balanced (kindsOf items)) (hrest : Balanced (kindsOf rest)) :
    Balanced (kinds all) := by
  obtain ⟨s, f, o, heq, hs, hf, hword, -⟩ := h.eq
  have hopen : o.kind ≠ .openParen := by
    intro hk
    rw [hk] at hword
    cases hword
  have hclose : o.kind ≠ .closeParen := by
    intro hk
    rw [hk] at hword
    cases hword
  rw [← h.items.kinds_eq] at hitems
  rw [← h.rest.kinds_eq] at hrest
  rw [heq, kinds_cons, kinds_append, kinds_cons, kinds_cons, hs, hf]
  exact .cons (by simp) (by simp) (hitems.append (.cons (by simp) (by simp) (.cons hopen hclose hrest)))

end Heading

/-- The tokens of clauses that are written one behind the other. -/
inductive Layout : List (Clause × Text) → List Token → Prop
  | nil : Layout [] []
  | cons {c : Clause} {body : Text} {cs : List (Clause × Text)} {words bts ts : List Token}
      (words_eq : kinds words = c.openingWords.map Kind.keyword) (body_written : Written body bts)
      (rest : Layout cs ts) : Layout ((c, body) :: cs) (words ++ (bts ++ ts))

theorem kindsOf_opening (c : Clause) : kindsOf c.opening = c.openingWords.map Kind.keyword := by
  cases c <;> decide +kernel

theorem closed_opening (c : Clause) : Closed c.opening := by
  cases c <;> decide +kernel

/-- Clauses that are written with blanks between them are read as such. -/
theorem exists_layout {cs : List (Clause × Text)} (hclosed : ∀ p ∈ cs, Closed p.2)
    {ts : List Token} (h : Written (Text.join [' '] (cs.map fun p => p.1.write p.2)) ts) :
    Layout cs ts := by
  have hclosed' : ∀ y ∈ cs.map fun p => p.1.write p.2, Closed y := by
    simp only [List.mem_map, forall_exists_index, and_imp, Prod.forall]
    rintro y c body hp rfl
    exact (closed_opening c).space _ (hclosed _ hp)
  obtain ⟨tss, htss, rfl⟩ := exists_flatten_of_join_space hclosed' h
  clear h hclosed hclosed'
  induction cs generalizing tss with
  | nil =>
    cases htss
    exact .nil
  | cons p cs ih =>
    obtain ⟨c, body⟩ := p
    rw [List.map_cons] at htss
    cases htss with
    | cons hwritten hrest =>
      obtain ⟨g, hg, rfl⟩ := hwritten
      obtain ⟨bts, hbts, htok⟩ := exists_tokenize_space (closed_opening c) body
      have hsplit : Token.indent g (tokenize (c.write body)) =
          Token.indent g (tokenize c.opening) ++ bts := by
        rw [Clause.write, htok]
        cases hopening : tokenize c.opening with
        | nil =>
          have := kindsOf_opening c
          rw [kindsOf, hopening] at this
          cases c <;> cases this
        | cons t ts => rfl
      rw [List.flatten_cons, hsplit, List.append_assoc]
      exact .cons (by rw [kinds_indent]; exact kindsOf_opening c) hbts (ih _ hrest)

namespace Layout

variable {cs : List (Clause × Text)} {ts : List Token}

/-- No phrase is completed by what a clause starts with. -/
theorem not_by (h : Layout cs ts) : headIs (· == .keyword .BY) (kinds ts) = false := by
  cases h with
  | nil => rfl
  | @cons c body cs words bts ts words_eq =>
    rw [kinds_append, words_eq]
    cases c <;> rfl

/-- Clauses that close what they open do so together. -/
theorem balanced (h : Layout cs ts) (hbody : ∀ p ∈ cs, Balanced (kindsOf p.2)) :
    Balanced (kinds ts) := by
  induction h with
  | nil => rfl
  | @cons c body cs words bts ts words_eq body_written rest ih =>
    have hwords : Balanced (kinds words) := by
      rw [words_eq]
      exact level?_of_no_group (by simp) 0
    have hbts : Balanced (kinds bts) := by
      rw [body_written.kinds_eq]
      exact hbody (c, body) (by simp)
    rw [kinds_append, kinds_append]
    exact hwords.append (hbts.append (ih fun p hp => hbody p (by simp [hp])))

/-- A search passes over words that it does not stop at. -/
theorem passes_words {f : List Kind → Bool} {words : List Keyword} {ks : List Kind}
    (h : ∀ w ∈ words, ∀ ls, f (.keyword w :: ls) = false) (hks : Passes f ks) :
    Passes f (words.map Kind.keyword ++ ks) := by
  induction words with
  | nil => exact hks
  | cons w words ih => exact .cons (h w (by simp)) rfl (ih fun v hv => h v (by simp [hv]))

/-- A search passes over clauses that it does not stop at. -/
theorem passes {f : List Kind → Bool} (h : Layout cs ts)
    (hwords : ∀ p ∈ cs, ∀ w ∈ p.1.openingWords, ∀ ls, f (.keyword w :: ls) = false)
    (hbody : ∀ p ∈ cs, Passes f (kindsOf p.2)) : Passes f (kinds ts) := by
  induction h with
  | nil => exact passes_nil
  | @cons c body cs words bts ts words_eq body_written rest ih =>
    have hbts : Passes f (kinds bts) := by
      rw [body_written.kinds_eq]
      exact hbody (c, body) (by simp)
    rw [kinds_append, kinds_append, words_eq]
    exact passes_words (hwords (c, body) (by simp)) (hbts.append
      (ih (fun p hp => hwords p (by simp [hp])) fun p hp => hbody p (by simp [hp])) rest.not_by)

end Layout

namespace Clause

/-- The search for a clause passes over the clauses before it, and the search for its end passes
over its body and stops at the clause behind it. -/
def ReadsBack (c : Clause) : List (Clause × Text) → Prop
  | [] => True
  | (c', body) :: cs =>
    if c' = c then
      Passes c.closes (kindsOf body) ∧ ∀ p ∈ cs.head?, p.1.openingWords ∈ c.endingWords
    else Passes c.opens (kindsOf body) ∧ c.ReadsBack cs

/-- A clause can be written behind another one, which it ends. -/
def Before (c c' : Clause) : Prop :=
  c'.openingWords ∈ c.endingWords

/-- A clause ends where a later one opens. -/
theorem closes_of_before {c c' : Clause} (h : c.Before c') {ks : List Kind}
    (hks : c'.opens ks = true) : c.closes ks = true :=
  List.any_eq_true.2 ⟨_, h, hks⟩

/-- Clauses in order are read back when the search for each of them passes over those before it,
or over all of them when it is missing. -/
theorem readsBack_of_sorted {c : Clause} {cs : List (Clause × Text)}
    (hsorted : cs.Pairwise fun p q => p.1.Before q.1)
    (hself : ∀ p ∈ cs, p.1 = c → Passes c.closes (kindsOf p.2))
    (hothers : ∀ p ∈ cs, p.1 ≠ c → p.1.Before c ∨ (∀ q ∈ cs, q.1 ≠ c) →
      Passes c.opens (kindsOf p.2)) : c.ReadsBack cs := by
  induction cs with
  | nil => trivial
  | cons p cs ih =>
    obtain ⟨c', body⟩ := p
    rw [List.pairwise_cons] at hsorted
    rw [ReadsBack]
    split
    · next hc =>
      subst hc
      exact ⟨hself (c', body) (by simp) rfl, fun q hq => hsorted.1 q (List.mem_of_mem_head? hq)⟩
    · next hc =>
      refine ⟨hothers (c', body) (by simp) hc ?_, ih hsorted.2 (fun q hq => hself q (by simp [hq]))
        fun q hq hne hor => hothers q (by simp [hq]) hne (hor.imp_right fun hall r hr => ?_)⟩
      · by_cases hmem : ∃ q ∈ cs, q.1 = c
        · obtain ⟨q, hq, rfl⟩ := hmem
          exact .inl (hsorted.1 q hq)
        · refine .inr fun q hq => ?_
          rcases List.mem_cons.1 hq with rfl | hq
          · exact hc
          · exact fun heq => hmem ⟨q, hq, heq⟩
      · rcases List.mem_cons.1 hr with rfl | hr
        · exact hc
        · exact hall r hr

/-- The words of a clause open no other one. -/
theorem opens_eq_false {c c' : Clause} (h : c' ≠ c) :
    ∀ w ∈ c'.openingWords, ∀ ls, c.opens (.keyword w :: ls) = false := by
  intro w hw ls
  cases c <;> cases c' <;> first
    | exact absurd rfl h
    | (simp only [openingWords, List.mem_cons, List.not_mem_nil, or_false] at hw
       rcases hw with rfl | rfl <;> rfl)

/-- The clauses that are written are those that are read. -/
theorem body?_eq_lookup {c : Clause} {hd ts : List Token} {cs : List (Clause × Text)}
    (h : Layout cs ts) (hstretch : Stretch (hd ++ ts)) (hhd : Passes c.opens (kinds hd))
    (hcs : c.ReadsBack cs) : c.body? (hd ++ ts) = (cs.lookup c).map Text.trim := by
  induction h generalizing hd with
  | nil =>
    refine (body?_eq_none_iff hstretch).2 ?_
    rw [List.append_nil]
    exact hhd.clear rfl
  | @cons c' body cs words bts ts words_eq body_written rest ih =>
    rw [ReadsBack] at hcs
    by_cases hc : c' = c
    · subst hc
      rw [if_pos rfl] at hcs
      have hbody := body_written.kinds_eq ▸ hcs.1
      rw [List.lookup_cons_self, Option.map_some]
      refine (body?_eq_some_iff hstretch).2 ⟨hd, words, bts, ts, ⟨rfl, hhd.clear ?_, hhd.top,
        words_eq, hbody.clear rest.not_by, ?_⟩, body_written.trim_render.symm⟩
      · rw [kinds_append, words_eq]
        cases c' <;> rfl
      · cases rest with
        | nil => exact .inl rfl
        | @cons c'' body' cs words' bts' ts' words_eq' =>
          refine .inr ⟨hbody.top, List.any_eq_true.2 ⟨_, hcs.2 _ rfl, ?_⟩⟩
          rw [Phrase.leadsKinds, kinds_append, words_eq', List.isPrefixOf_iff_prefix]
          exact List.prefix_append _ _
    · rw [if_neg hc] at hcs
      have hbody := body_written.kinds_eq ▸ hcs.1
      have hlookup : ((c', body) :: cs).lookup c = cs.lookup c := by
        rw [List.lookup_cons, beq_false_of_ne (Ne.symm hc)]
      have hwords : Passes c.opens (kinds (words ++ bts)) := by
        rw [kinds_append, words_eq]
        exact Layout.passes_words (opens_eq_false hc) hbody
      have hnot : headIs (· == .keyword .BY) (kinds (words ++ bts)) = false := by
        rw [kinds_append, words_eq]
        cases c' <;> rfl
      rw [hlookup, ← List.append_assoc, ← List.append_assoc, List.append_assoc hd]
      refine ih ?_ ?_ hcs.2
      · simpa [List.append_assoc] using hstretch
      · rw [kinds_append]
        exact hhd.append hwords hnot

end Clause

end Soql
