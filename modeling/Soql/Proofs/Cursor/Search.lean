import Soql.Cursor.Basic
import Soql.Proofs.Text.Slice
import Soql.Proofs.Token.Place

/-!
# Searching with a cursor

`Cursor.findKeyword` goes through the tokens and answers with a byte offset. The offset is where a
phrase stands in the source with no parenthesis open, and it stands nowhere before that; there is
no answer exactly when it stands nowhere.
-/

namespace Soql

open Kind Token

/-- The place of a token is known from what is written in front of it. -/
theorem Token.getElem?_spans (offset : Nat) (ts : List Token) (t : Token) (us : List Token) :
    (spans offset (ts ++ t :: us))[ts.length]? =
      some ⟨offset + (render ts).byteSize + t.gap.byteSize,
        offset + (render ts).byteSize + t.gap.byteSize + t.text.byteSize⟩ := by
  induction ts generalizing offset with
  | nil => rfl
  | cons u ts ih =>
    have hsize : (render (u :: ts)).byteSize =
        u.gap.byteSize + u.text.byteSize + (render ts).byteSize := by
      rw [render_cons, Text.byteSize_append, written, Text.byteSize_append]
    rw [List.cons_append, spans, List.length_cons, List.getElem?_cons_succ, ih, hsize]
    simp only [Nat.add_assoc]

namespace Cursor

section Skip

variable {c : Cursor}

theorem peek_eq (c : Cursor) : c.peek = c.ahead.head? := by
  rw [peek, peekNth, Nat.add_zero, ahead, List.head?_drop]

/-- A step moves behind the next token and keeps account of its parenthesis. -/
theorem advance_of_ahead {t : Token} {ts : List Token} (h : c.ahead = t :: ts) :
    c.advance = { c with pos := c.pos + 1, nesting := c.nesting.step t } ∧
      c.advance.ahead = ts := by
  have hadvance : c.advance = { c with pos := c.pos + 1, nesting := c.nesting.step t } := by
    rw [advance, peek_eq, h, List.head?_cons]
  refine ⟨hadvance, ?_⟩
  rw [hadvance, ahead, ← List.tail_drop]
  exact congrArg List.tail h

/-- A cursor can be moved over tokens that are there. -/
theorem skip_append {ts us : List Token} (h : c.ahead = ts ++ us) : c.skip ts.length =
    { c with pos := c.pos + ts.length, nesting := ts.foldl Nesting.step c.nesting } := by
  induction ts generalizing c with
  | nil => rfl
  | cons t ts ih =>
    obtain ⟨hadvance, hahead⟩ := advance_of_ahead h
    have hskip : c.skip (t :: ts).length = c.advance.skip ts.length := by
      rw [List.length_cons, skip, atEnd, h, if_neg (by simp)]
    rw [hskip, ih hahead, hadvance, List.foldl_cons, List.length_cons]
    simp only [Nat.add_assoc, Nat.add_comm 1]

end Skip

/-- The answer of a search is the offset of the token that the search among tokens finds. -/
theorem findKeyword_eq (c : Cursor) (keyword : Text) {before found : List Token}
    (h : cutTop (Phrase.ofText keyword).isAt 0 c.tokens = (before, found)) :
    c.findKeyword keyword =
      found.head?.map fun t => (render before ++ t.gap).byteSize := by
  have hahead : c.rewind.ahead = before ++ found := (cutTop_eq_iff_absent.1 h).1
  have hskip := skip_append hahead
  have hto : c.toKeyword keyword = c.rewind.skip before.length := by
    rw [toKeyword, seek]
    simp only [List.any_cons, List.any_nil, Bool.or_false]
    exact congrArg (fun cut : List Token × List Token => c.rewind.skip cut.1.length) h
  have htokens : (c.toKeyword keyword).tokens = before ++ found := by
    rw [hto, hskip]
    exact hahead
  have hpos : (c.toKeyword keyword).pos = before.length := by
    rw [hto, hskip]
    exact Nat.zero_add _
  rw [findKeyword, atEnd, ahead, htokens, hpos, List.drop_left]
  cases found with
  | nil => rfl
  | cons t found =>
    rw [offset, span?, htokens, hpos, getElem?_spans, Nat.zero_add]
    exact congrArg some (Text.byteSize_append _ _).symm

end Cursor

section Find

variable {q keyword : Text}

/-- A phrase stands where it is spelled. -/
theorem Phrase.isAt_of_spelledBy {phrase : Phrase} {t : Token} {ts behind : List Token}
    (h : phrase.SpelledBy (t :: ts)) : phrase.isAt (t :: (ts ++ behind)) = true :=
  isAt_iff.2 ⟨t, ts, behind, rfl, h⟩

/-- Where nothing is found, a phrase stands nowhere. -/
theorem Phrase.not_stands_of_absent {phrase : Phrase} {left words right : Text}
    (h : Absent phrase.isAt 0 (tokenize (left ++ (words ++ right))) []) :
    ¬phrase.Stands left words right := by
  rintro ⟨before, t, ts, behind, htok, -, -, htop, hspelled⟩
  rw [htok] at h
  have hnot := h.found_eq_false htop
  rw [List.append_nil, isAt_of_spelledBy hspelled] at hnot
  cases hnot

/-- The first place of a phrase among the tokens is its first place in the text. -/
theorem Phrase.exists_standsFirst {phrase : Phrase} {before found : List Token} {t : Token}
    (h : cutTop phrase.isAt 0 (tokenize q) = (before, t :: found)) :
    ∃ ts behind right, found = ts ++ behind ∧ phrase.SpelledBy (t :: ts) ∧ tokenize right = behind ∧
      phrase.StandsFirst q (render before ++ t.gap) (t.text ++ render ts) right := by
  obtain ⟨htok, habsent, hstop⟩ := cutTop_eq_iff_absent.1 h
  obtain ⟨htop, hat⟩ := hstop.resolve_left (List.cons_ne_nil t found)
  obtain ⟨u, ts, behind, heq, hspelled⟩ := isAt_iff.1 hat
  rw [List.cons_append, List.cons.injEq] at heq
  obtain ⟨rfl, rfl⟩ := heq
  obtain ⟨right, hq, hright, hstands⟩ := exists_standsTop (P := phrase.SpelledBy) htok htop hspelled
  refine ⟨ts, behind, right, rfl, hspelled, hright, hq, hstands, ?_⟩
  rintro left' words' right' rfl ⟨before', t', ts', behind', htok', rfl, -, htop', hspelled'⟩
  -- a place further to the left would be among the tokens that the search has passed
  rw [htok'] at htok
  rcases List.append_eq_append_iff.1 htok with ⟨zs, rfl, hzs⟩ | ⟨zs, rfl, hzs⟩
  · cases zs with
    | nil =>
      obtain ⟨rfl, -⟩ : t' = t ∧ _ := by simpa using hzs
      simp
    | cons z zs =>
      obtain ⟨rfl, hrest⟩ : t' = z ∧ ts' ++ behind' = zs ++ (t :: (ts ++ behind)) := by
        simpa using hzs
      have hnot := habsent.found_eq_false htop'
      rw [← hrest, isAt_of_spelledBy hspelled'] at hnot
      cases hnot
  · cases zs with
    | nil =>
      obtain ⟨rfl, -⟩ : t = t' ∧ _ := by simpa using hzs
      simp
    | cons z zs =>
      obtain ⟨rfl, -⟩ : t = z ∧ _ := by simpa using hzs
      simp only [render_append, render_cons, written, List.length_append]
      omega

/-- A keyword is not found exactly if it is absent at top level. -/
theorem Cursor.findKeyword_eq_none_iff : (Cursor.ofText q).findKeyword keyword = none ↔
    Absent (Phrase.ofText keyword).isAt 0 (tokenize q) [] := by
  rcases hcut : cutTop (Phrase.ofText keyword).isAt 0 (tokenize q) with ⟨before, found⟩
  rw [findKeyword_eq (Cursor.ofText q) keyword hcut, Option.map_eq_none_iff, List.head?_eq_none_iff,
    ← cutTop_snd_eq_nil_iff, hcut]

/-- A search answers with the first place of a keyword. -/
theorem Cursor.findKeyword_eq_some_iff {n : Nat} :
    (Cursor.ofText q).findKeyword keyword = some n ↔ ∃ left words right,
      (Phrase.ofText keyword).StandsFirst q left words right ∧ left.byteSize = n := by
  constructor
  · intro h
    rcases hcut : cutTop (Phrase.ofText keyword).isAt 0 (tokenize q) with ⟨before, found⟩
    rw [findKeyword_eq (Cursor.ofText q) keyword hcut] at h
    cases found with
    | nil => cases h
    | cons t found =>
      obtain ⟨ts, behind, right, -, -, -, hfirst⟩ := Phrase.exists_standsFirst hcut
      exact ⟨_, _, _, hfirst, Option.some.inj h⟩
  · rintro ⟨left, words, right, hfirst, rfl⟩
    rcases hcut : cutTop (Phrase.ofText keyword).isAt 0 (tokenize q) with ⟨before, found⟩
    cases found with
    | nil =>
      have habsent := cutTop_snd_eq_nil_iff.1 (congrArg Prod.snd hcut)
      rw [hfirst.text] at habsent
      exact absurd hfirst.stands (Phrase.not_stands_of_absent habsent)
    | cons t found =>
      obtain ⟨ts, behind, right', -, -, -, hfirst'⟩ := Phrase.exists_standsFirst hcut
      have hlength := Nat.le_antisymm (hfirst.first hfirst'.text hfirst'.stands)
        (hfirst'.first hfirst.text hfirst.stands)
      have hleft := (List.append_inj (hfirst.text.symm.trans hfirst'.text) hlength).1
      rw [findKeyword_eq (Cursor.ofText q) keyword hcut, hleft]
      rfl

end Find

end Soql
