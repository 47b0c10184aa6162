import Soql.Proofs.Cursor.Search

/-!
# Cutting out a clause

`extractClause` gives a text exactly when its opening phrase stands in the query outside
parentheses. What it gives is a part of the query, up to blanks next to that phrase and next to
what ends the clause; and none of the phrases that end the clause is found in it when it is read
again, although nothing is open at its start then and it has lost its blanks. All of this holds
of any text, whether its parentheses and quotes are closed or not.
-/

namespace Soql

open Kind Token

/-- `body` is the text of the clause of `q` that the first `start` opens. -/
structure ClauseText (start : Text) (ends : List Text) (q body : Text) : Prop where
  place : ∃ left words g g' rest,
    (Phrase.ofText start).StandsFirst q left words (g ++ (body ++ (g' ++ rest))) ∧
    (∀ c ∈ g, Text.isBlank c = true) ∧ (∀ c ∈ g', Text.isBlank c = true) ∧
    (rest = [] ∨ ∃ e ∈ ends, ∃ words' right', rest = words' ++ right' ∧
      (Phrase.ofText e).Stands (left ++ (words ++ (g ++ (body ++ g')))) words' right')
  tight : body.Tight
  inner : ∀ e ∈ ends, (Cursor.ofText body).findKeyword e = none

/-- A phrase is found where the text is cut at it. -/
theorem Phrase.find?_of_cutTop {phrase : Phrase} {ts before found : List Token}
    (h : cutTop phrase.isAt 0 ts = (before, found)) : phrase.find? ts =
      if found.isEmpty then none else some found := by
  rw [find?, h]
  cases found <;> rfl

/-- A clause is there exactly if its keyword is found. -/
theorem isSome_extractClause_iff (start : Text) (ends : List Text) (q : Text) :
    (extractClause start ends q).isSome = ((Cursor.ofText q).findKeyword start).isSome := by
  rcases hcut : cutTop (Phrase.ofText start).isAt 0 (tokenize q) with ⟨before, found⟩
  rw [Cursor.findKeyword_eq (Cursor.ofText q) start hcut, extractClause, Phrase.body?,
    Phrase.between?, Phrase.find?_of_cutTop hcut]
  cases found <;> rfl

/-- What stands behind the body of a clause: the end of the query or a phrase that ends it. -/
theorem exists_rest_of_stop {ends : List Text} {s : Text} {before after : List Token}
    (h : tokenize s = before ++ after)
    (hstop : after = [] ∨ depth 0 (kinds before) = 0 ∧
      (ends.map Phrase.ofText).any (·.isAt after) = true) :
    ∃ g rest, s = render before ++ (g ++ rest) ∧ (∀ c ∈ g, Text.isBlank c = true) ∧
      (rest = [] ∨ ∃ e ∈ ends, ∃ words right, rest = words ++ right ∧
        (Phrase.ofText e).Stands (render before ++ g) words right) := by
  rcases hstop with rfl | ⟨htop, hat⟩
  · obtain ⟨g, rfl, hg⟩ := exists_of_tokenize_append h
    exact ⟨g, [], by rw [List.append_nil],
      fun c hc => Text.isBlank_of_isGap (tokenize_eq_nil_iff.1 hg c hc), .inl rfl⟩
  · rw [List.any_map, List.any_eq_true] at hat
    obtain ⟨e, he, hat⟩ := hat
    obtain ⟨u, us, behind, rfl, hspelled⟩ := Phrase.isAt_iff.1 hat
    obtain ⟨right, hs, -, hstands⟩ :=
      exists_standsTop (P := (Phrase.ofText e).SpelledBy) h htop hspelled
    obtain ⟨_, -, hu, -⟩ := exists_reads_of_append h
    refine ⟨u.gap, u.text ++ render us ++ right, by rw [hs, List.append_assoc], isBlank_of_gap hu,
      .inr ⟨e, he, _, _, rfl, hstands⟩⟩

/-- The tokens of a clause: `inside` stands between the first place of the opening phrase and the
first place behind it where the clause ends. -/
theorem exists_of_extractClause {start : Text} {ends : List Text} {q body : Text}
    (h : extractClause start ends q = some body) : ∃ before t ts inside after right,
      tokenize q = before ++ (t :: ts ++ inside) ++ after ∧ tokenize right = inside ++ after ∧
      (Phrase.ofText start).StandsFirst q (render before ++ t.gap) (t.text ++ render ts) right ∧
      depth 0 (kinds (before ++ (t :: ts ++ inside))) = depth 0 (kinds inside) ∧
      Absent (fun rest => (ends.map Phrase.ofText).any (·.isAt rest)) 0 inside after ∧
      (after = [] ∨ depth 0 (kinds inside) = 0 ∧
        (ends.map Phrase.ofText).any (·.isAt after) = true) ∧
      body = (render inside).trim := by
  rcases hcut : cutTop (Phrase.ofText start).isAt 0 (tokenize q) with ⟨before, found⟩
  rw [extractClause, Phrase.body?, Phrase.between?, Phrase.find?_of_cutTop hcut] at h
  cases found with
  | nil => cases h
  | cons t found =>
    obtain ⟨ts, behind, right, rfl, hspelled, hright, hfirst⟩ := Phrase.exists_standsFirst hcut
    obtain ⟨hq, -, hstop⟩ := cutTop_eq_iff_absent.1 hcut
    obtain ⟨htop, -⟩ := hstop.resolve_left (List.cons_ne_nil t _)
    have hdrop : (t :: (ts ++ behind)).drop (Phrase.ofText start).length = behind := by
      rw [hspelled.length_eq, ← List.cons_append, List.drop_left]
    rcases hends : cutTop (fun rest => (ends.map Phrase.ofText).any (·.isAt rest)) 0 behind with
      ⟨inside, after⟩
    obtain ⟨rfl, habsent, hstop⟩ := cutTop_eq_iff_absent.1 hends
    rw [List.isEmpty_cons, if_neg (by simp), Option.map_some, Option.map_some, hdrop, hends,
      Option.some.injEq] at h
    refine ⟨before, t, ts, inside, after, right, ?_, hright, hfirst, ?_, habsent, hstop, h.symm⟩
    · rw [hq]
      simp
    · rw [kinds_append, kinds_append, depth_append, depth_append, htop, hspelled.depth_eq]

/-- None of the phrases that end a clause is found in the clause on its own. -/
theorem findKeyword_of_absent {ends : List Text} {s : Text} {inside after : List Token}
    (hread : tokenize s = inside ++ after)
    (h : Absent (fun rest => (ends.map Phrase.ofText).any (·.isAt rest)) 0 inside after) :
    ∀ e ∈ ends, (Cursor.ofText (render inside).trim).findKeyword e = none := by
  intro e he
  rw [← tokenize_render_of_append hread] at h
  rw [Cursor.findKeyword_eq_none_iff]
  refine ((Phrase.firm_any _).absent_trim h).imp fun us hus => ?_
  exact List.any_eq_true.2 ⟨_, List.mem_map_of_mem he, hus⟩

/-- What is extracted is the text of the clause. -/
theorem clauseText_of_extractClause {start : Text} {ends : List Text} {q body : Text}
    (h : extractClause start ends q = some body) : ClauseText start ends q body := by
  obtain ⟨before, t, ts, inside, after, right, htok, hright, hfirst, hdepth, habsent, hstop,
    hbody⟩ := exists_of_extractClause h
  refine ⟨?_, hbody ▸ Text.tight_trim _, hbody ▸ findKeyword_of_absent hright habsent⟩
  obtain ⟨g, g', hinside, hg, hg'⟩ := Text.exists_eq_append_trim (render inside)
  rw [← hbody] at hinside
  obtain ⟨g'', rest, htext, hg'', hrest⟩ := exists_rest_of_stop htok
    (hstop.imp id fun hstop => ⟨hdepth.trans hstop.1, hstop.2⟩)
  have hbefore : render (before ++ (t :: ts ++ inside)) = render before ++ t.gap ++
      (t.text ++ render ts ++ (g ++ (body ++ g'))) := by
    rw [render_append, render_append, render_cons, written, hinside]
    simp only [List.append_assoc]
  have hbehind : right = g ++ (body ++ (g' ++ g'' ++ rest)) := by
    have := hfirst.text.symm.trans htext
    rw [hbefore] at this
    simpa using this
  refine ⟨_, _, g, g' ++ g'', rest, hbehind ▸ hfirst, hg, ?_, ?_⟩
  · intro c hc
    exact (List.mem_append.1 hc).elim (hg' c) (hg'' c)
  · refine hrest.imp id ?_
    rintro ⟨e, he, words', right', hsplit, hstands⟩
    refine ⟨e, he, words', right', hsplit, ?_⟩
    rw [hbefore] at hstands
    simpa using hstands

/-- A search finds the first place of a keyword outside parentheses, as whole words. -/
theorem Cursor.wholeWords_of_findKeyword {q keyword : Text} {n : Nat}
    (h : (Cursor.ofText q).findKeyword keyword = some n) : ∃ left words right,
      (Phrase.ofText keyword).StandsFirst q left words right ∧ left.byteSize = n ∧
        (∀ c ∈ left.getLast?, isWordStart c = false) ∧
        ∀ c ∈ right.head?, isWordPart c = false := by
  obtain ⟨left, words, right, hfirst, hsize⟩ := Cursor.findKeyword_eq_some_iff.1 h
  exact ⟨left, words, right, hfirst, hsize, hfirst.stands.getLast?_left, hfirst.stands.head?_right⟩

/-- The extraction of a clause is exact, for every query. -/
theorem extractClause_exact (start : Text) (ends : List Text) (q : Text) :
    (extractClause start ends q).isSome = ((Cursor.ofText q).findKeyword start).isSome ∧
    (∀ n, (Cursor.ofText q).findKeyword start = some n → ∃ left words right,
      (Phrase.ofText start).StandsFirst q left words right ∧ left.byteSize = n ∧
        (∀ c ∈ left.getLast?, isWordStart c = false) ∧
        ∀ c ∈ right.head?, isWordPart c = false) ∧
    ∀ body, extractClause start ends q = some body → ClauseText start ends q body :=
  ⟨isSome_extractClause_iff start ends q, fun _ => Cursor.wholeWords_of_findKeyword,
    fun _ => clauseText_of_extractClause⟩

/-- A query whose keywords also stand in parentheses, in quotes and inside names. -/
def groupedContacts : Text :=
  "SELECT (SELECT Id FROM b WHERE c), Where_x FROM Account where y = 'GROUP BY' group  by z".toList

/-- The words of another clause in a quoted text do not end the condition. -/
theorem extractClause_exact_groupedContacts :
    (Cursor.ofText groupedContacts).findKeyword "WHERE".toList = some 56 ∧
    ClauseText "WHERE".toList ["LIMIT".toList, "GROUP BY".toList] groupedContacts
      "y = 'GROUP BY'".toList := by
  have hquery : (Cursor.ofText groupedContacts).findKeyword "WHERE".toList = some 56 ∧
      extractClause "WHERE".toList ["LIMIT".toList, "GROUP BY".toList] groupedContacts =
        some "y = 'GROUP BY'".toList := by
    decide +kernel
  exact ⟨hquery.1, (extractClause_exact _ _ _).2.2 _ hquery.2⟩

end Soql
