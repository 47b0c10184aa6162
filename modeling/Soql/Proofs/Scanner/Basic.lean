import Soql.Proofs.Text.Slice
import Soql.Proofs.Text.Trim
import Soql.Proofs.Token.Level
import Soql.Scanner.Basic

/-!
# Slices of a source are in range

Marks that stand somewhere in a source are its tokens there with their places (`Lies`), and their
offsets are the sizes of initial parts of the source. A slice between two such offsets therefore
exists, and it is the text of the tokens in between up to blanks at its ends, which trimming takes
off. So each of the functions that slice gives a result for every text, balanced or not, and it is
what the tokens alone give.
-/

namespace Soql.Scanner

open Token

/-- Tokens with the places that they have when the first one's blanks start at `offset`. -/
def place (offset : Nat) (ts : List Token) : List Mark :=
  ts.zip (spans offset ts)

@[simp] theorem place_nil (offset : Nat) : place offset [] = [] := rfl

/-- The first token lies behind its gap, and the others behind it. -/
theorem place_cons (offset : Nat) (t : Token) (ts : List Token) :
    place offset (t :: ts) = (t, ⟨offset + t.gap.byteSize, offset + t.gap.byteSize +
      t.text.byteSize⟩) :: place (offset + t.written.byteSize) ts := by
  simp [place, spans, written, Nat.add_assoc]

theorem located_eq (s : Text) : located s = place 0 (tokenize s) := rfl

@[simp] theorem length_place (offset : Nat) (ts : List Token) :
    (place offset ts).length = ts.length := by
  induction ts generalizing offset with
  | nil => rfl
  | cons t ts ih => rw [place_cons, List.length_cons, ih, List.length_cons]

@[simp] theorem isEmpty_place (offset : Nat) (ts : List Token) :
    (place offset ts).isEmpty = ts.isEmpty := by
  cases ts <;> rfl

@[simp] theorem map_fst_place (offset : Nat) (ts : List Token) :
    (place offset ts).map Prod.fst = ts := by
  induction ts generalizing offset with
  | nil => rfl
  | cons t ts ih => rw [place_cons, List.map_cons, ih]

/-- The places behind some tokens start where these end. -/
theorem drop_place (offset n : Nat) (ts : List Token) :
    (place offset ts).drop n = place (offset + (render (ts.take n)).byteSize) (ts.drop n) := by
  induction ts generalizing offset n with
  | nil => simp
  | cons t ts ih =>
    cases n with
    | zero => rfl
    | succ n =>
      rw [place_cons, List.drop_succ_cons, ih, List.take_succ_cons, List.drop_succ_cons,
        render_cons, Text.byteSize_append, Nat.add_assoc]

/-- The tokens stand in the source behind `before`, and only blanks stand behind them. -/
structure Lies (source before : Text) (ts : List Token) : Prop where
  text : ∃ behind, source = before ++ render ts ++ behind ∧ ∀ c ∈ behind, Text.isGap c = true
  gaps : ∀ t ∈ ts, ∀ c ∈ t.gap, Text.isGap c = true

/-- The tokens of a text lie in it from its start on. -/
theorem lies_tokenize (s : Text) : Lies s [] (tokenize s) := by
  refine ⟨exists_eq_render_append s, ?_⟩
  generalize hts : tokenize s = ts
  induction ts generalizing s with
  | nil => simp
  | cons t ts ih =>
    obtain ⟨rest, -, ht, hrest⟩ := exists_of_tokenize_cons hts
    intro u hu
    rcases List.mem_cons.1 hu with rfl | hu
    · exact ht.gap
    · exact ih rest hrest u hu

section Lies

variable {source before : Text} {ts as bs : List Token}

/-- The later tokens lie behind the earlier ones. -/
theorem Lies.of_append (h : Lies source before (as ++ bs)) :
    Lies source (before ++ render as) bs := by
  obtain ⟨behind, hsource, hbehind⟩ := h.text
  refine ⟨⟨behind, ?_, hbehind⟩, fun t ht => h.gaps t (List.mem_append_right as ht)⟩
  rw [hsource, render_append, List.append_assoc, List.append_assoc, List.append_assoc,
    List.append_assoc]

theorem Lies.tail {t : Token} (h : Lies source before (t :: ts)) :
    Lies source (before ++ t.written) ts := by
  have := (show Lies source before ([t] ++ ts) from h).of_append
  rwa [render_cons, render_nil, List.append_nil] at this

/-- Tokens that are left over lie behind those that are passed. -/
theorem Lies.drop (h : Lies source before ts) (n : Nat) :
    Lies source (before ++ render (ts.take n)) (ts.drop n) :=
  Lies.of_append (by rwa [List.take_append_drop])

/-- Nothing but blanks stands between tokens. -/
theorem Lies.blank {t : Token} (h : Lies source before ts) (ht : t ∈ ts) :
    ∀ c ∈ t.gap, Text.isBlank c = true :=
  fun c hc => Text.isBlank_of_isGap (h.gaps t ht c hc)

/-- The offset of marks is the size of what stands before their first text. -/
theorem Lies.offset (h : Lies source before ts) : ∃ g rest, source = before ++ g ++ rest ∧
    offset source (place before.byteSize ts) = (before ++ g).byteSize ∧
    (∀ c ∈ g, Text.isBlank c = true) := by
  obtain ⟨behind, hsource, hbehind⟩ := h.text
  cases ts with
  | nil =>
    refine ⟨behind, [], ?_, ?_, fun c hc => Text.isBlank_of_isGap (hbehind c hc)⟩
    · simpa using hsource
    · rw [place_nil, Scanner.offset, hsource, render_nil, List.append_nil]
  | cons t ts =>
    refine ⟨t.gap, t.text ++ render ts ++ behind, ?_, ?_, h.blank (by simp)⟩
    · rw [hsource, render_cons, written]
      simp only [List.append_assoc]
    · rw [place_cons, Scanner.offset, Text.byteSize_append]

/-- The text of a mark is the text of its token. -/
theorem Lies.text? {t : Token} (h : Lies source before (t :: ts)) (span : Span)
    (hspan : span = ⟨before.byteSize + t.gap.byteSize,
      before.byteSize + t.gap.byteSize + t.text.byteSize⟩) :
    text? source (t, span) = some t.text := by
  obtain ⟨behind, hsource, -⟩ := h.text
  rw [Scanner.text?, Text.slice?_eq_some_iff]
  refine ⟨before ++ t.gap, render ts ++ behind, ?_, ?_, ?_⟩
  · rw [hsource, render_cons, written]
    simp only [List.append_assoc]
  · simp [hspan]
  · simp [hspan, Nat.add_assoc]

/-- The slice between the starts of two marks is the text of the tokens in between, but for blanks
at its ends. -/
theorem Lies.slice_between (h : Lies source before (as ++ bs)) : ∃ y,
    source.slice? (Scanner.offset source (place before.byteSize (as ++ bs)))
      (Scanner.offset source (place (before ++ render as).byteSize bs)) = some y ∧
      y.trim = (render as).trim := by
  obtain ⟨g, rest, hsource, hoffset, hg⟩ := h.of_append.offset
  cases as with
  | nil =>
    refine ⟨[], ?_, rfl⟩
    rw [render_nil, List.append_nil] at hsource hoffset
    rw [List.nil_append, render_nil, List.append_nil, hoffset, Text.slice?_eq_some_iff]
    exact ⟨before ++ g, rest, by rw [hsource, List.append_nil], rfl, by rw [List.append_nil]⟩
  | cons t as =>
    refine ⟨t.text ++ render as ++ g, ?_, ?_⟩
    · rw [hoffset, List.cons_append, place_cons, Scanner.offset, Text.slice?_eq_some_iff]
      refine ⟨before ++ t.gap, rest, ?_, by rw [Text.byteSize_append], ?_⟩
      · rw [hsource, render_cons, written]
        simp only [List.append_assoc]
      · rw [render_cons, written]
        simp
    · rw [Text.trim_append_of_blank _ hg, render_cons, written, List.append_assoc,
        Text.trim_append_blank_left (h.blank (by simp))]

/-- The text up to the start of some tokens is that of the tokens before them. -/
theorem Lies.slice_before (h : Lies source [] ts) (n : Nat) : ∃ y,
    source.slice? 0 (Scanner.offset source (place (render (ts.take n)).byteSize (ts.drop n))) = some y ∧
      y.trim = (render (ts.take n)).trim := by
  obtain ⟨g, rest, hsource, hoffset, hg⟩ := (h.drop n).offset
  rw [List.nil_append] at hsource hoffset
  refine ⟨render (ts.take n) ++ g, ?_, Text.trim_append_of_blank _ hg⟩
  rw [hoffset, hsource]
  exact Text.slice?_append_start _ _

/-- The text from the start of some tokens on is that of these tokens. -/
theorem Lies.slice_behind (h : Lies source before ts) : ∃ y,
    source.slice? (Scanner.offset source (place before.byteSize ts)) source.byteSize = some y ∧
      y.trim = (render ts).trim := by
  have := (show Lies source before (ts ++ []) by rwa [List.append_nil]).slice_between
  rwa [List.append_nil] at this

end Lies

section Search

variable {source before : Text} {ts : List Token}

/-- Comparing the words of a phrase stays within the text. -/
theorem leads?_place (phrase : Phrase) (h : Lies source before ts) :
    leads? source phrase (place before.byteSize ts) = some (phrase.leads ts) := by
  induction phrase generalizing before ts with
  | nil => cases ts <;> rfl
  | cons word phrase ih =>
    cases ts with
    | nil => rfl
    | cons t ts =>
      have hnext := ih h.tail
      rw [Text.byteSize_append] at hnext
      rw [place_cons, leads?, Phrase.leads, hnext, h.text? _ rfl]
      cases t.kind.isWord <;> cases hword : Text.eqIgnoreCase t.text word <;> simp [hword]

/-- So does asking whether a phrase stands here. -/
theorem isAt?_place (phrase : Phrase) (h : Lies source before ts) :
    isAt? source phrase (place before.byteSize ts) = some (phrase.isAt ts) := by
  rw [isAt?, leads?_place phrase h, Phrase.isAt]
  cases phrase.isEmpty <;> rfl

theorem isAtAny?_place (phrases : List Phrase) (h : Lies source before ts) :
    isAtAny? source phrases (place before.byteSize ts) = some (phrases.any (·.isAt ts)) := by
  induction phrases with
  | nil => rfl
  | cons phrase phrases ih =>
    rw [isAtAny?] at ih
    rw [isAtAny?, List.anyM, isAt?_place phrase h, List.any_cons]
    cases phrase.isAt ts with
    | true => rfl
    | false => simpa using ih

/-- A search among marks finds the place that the search among tokens finds. -/
theorem seek?_place (found? : List Mark → Checked Bool) (found : List Token → Bool)
    (hfound : ∀ before ts, Lies source before ts →
      found? (place before.byteSize ts) = some (found ts)) (d : Nat) (h : Lies source before ts) :
    seek? found? d (place before.byteSize ts) =
      some (place (before ++ render (cutTop found d ts).1).byteSize (cutTop found d ts).2) := by
  induction ts generalizing before d with
  | nil => rfl
  | cons t ts ih =>
    have hhere := hfound before (t :: ts) h
    have hnext := ih (t.depthAfter d) h.tail
    rw [place_cons] at hhere
    rw [Text.byteSize_append] at hnext
    rw [place_cons, seek?, hhere, hnext, cutTop]
    cases (d == 0) with
    | false => simp [Nat.add_assoc]
    | true =>
      cases found (t :: ts) with
      | false => simp [Nat.add_assoc]
      | true => simp [place_cons]

theorem cutTop_append (found : List Token → Bool) (d : Nat) (ts : List Token) :
    (cutTop found d ts).1 ++ (cutTop found d ts).2 = ts :=
  (cutTop_eq_iff_absent.1 rfl).1.symm

/-- What is behind a cut lies behind what is in front of it. -/
theorem Lies.cutTop (h : Lies source before ts) (found : List Token → Bool) (d : Nat) :
    Lies source (before ++ render (cutTop found d ts).1) (cutTop found d ts).2 :=
  Lies.of_append (by rwa [cutTop_append])

/-- A phrase is found where the text is cut at it. -/
theorem find?_place (phrase : Phrase) (h : Lies source before ts) :
    find? source phrase (place before.byteSize ts) =
      some (place (before ++ render (Token.cutTop phrase.isAt 0 ts).1).byteSize
        (Token.cutTop phrase.isAt 0 ts).2) :=
  seek?_place _ _ (fun _ _ => isAt?_place phrase) 0 h

/-- The slice of a clause exists, and it is the text of the clause's tokens. -/
theorem clause?_place (start : Phrase) (ends : List Phrase) (h : Lies source before ts) :
    clause? source start ends (place before.byteSize ts) = some (start.body? ends ts) := by
  rw [clause?, find?_place start h, Phrase.body?, Phrase.between?, Phrase.find?]
  have hfound := h.cutTop start.isAt 0
  generalize hcut : Token.cutTop start.isAt 0 ts = cut at hfound
  obtain ⟨skipped, found⟩ := cut
  cases found with
  | nil => rfl
  | cons t found =>
    have hbody := hfound.drop start.length
    simp only at hbody
    generalize hbefore : before ++ render skipped ++ render ((t :: found).take start.length) = x
      at hbody
    have hdrop : (place (before ++ render skipped).byteSize (t :: found)).drop start.length =
        place x.byteSize ((t :: found).drop start.length) := by
      rw [drop_place, ← hbefore, Text.byteSize_append (before ++ render skipped)]
    have hseek := seek?_place _ _ (fun _ _ => isAtAny?_place ends) 0 hbody
    obtain ⟨y, hslice, htrim⟩ := Lies.slice_between (by rwa [cutTop_append] :
      Lies source x ((Token.cutTop (fun rest => ends.any (·.isAt rest)) 0
        ((t :: found).drop start.length)).1 ++ _))
    rw [cutTop_append] at hslice
    simp only [Option.bind_eq_bind, Option.bind_some, isEmpty_place, hdrop, hseek, hslice,
      List.isEmpty_cons, htrim, Option.map_some]
    rfl

/-- The slices between separators exist, and they are the texts of the tokens in between. -/
theorem splitFrom?_place (sep : Token → Bool) (d : Nat) (before : Text) (as : List Token)
    (h : Lies source (before ++ render as) ts) :
    splitFrom? source sep before.byteSize d (place (before ++ render as).byteSize ts) =
      some ((render (as ++ (splitTop sep d ts).1)).trim ::
        (splitTop sep d ts).2.map fun part => (render part).trim) := by
  induction ts generalizing before as d with
  | nil =>
    obtain ⟨behind, hsource, hbehind⟩ := h.text
    have hslice : source.slice? before.byteSize source.byteSize = some (render as ++ behind) := by
      rw [hsource, render_nil, List.append_nil, List.append_assoc]
      exact Text.slice?_append_end before _
    rw [place_nil, splitFrom?, hslice]
    simp [splitTop, Text.trim_append_of_blank _ fun c hc => Text.isBlank_of_isGap (hbehind c hc)]
  | cons t ts ih =>
    have hnext : Lies source (before ++ render (as ++ [t])) ts := by
      simpa [← List.append_assoc] using h.tail
    rw [place_cons, splitFrom?, splitTop]
    split
    · obtain ⟨behind, hsource, -⟩ := h.text
      have hslice : source.slice? before.byteSize
          ((before ++ render as).byteSize + t.gap.byteSize) = some (render as ++ t.gap) := by
        rw [Text.slice?_eq_some_iff]
        refine ⟨before, t.text ++ render ts ++ behind, ?_, rfl, ?_⟩
        · rw [hsource, render_cons, written]
          simp only [List.append_assoc]
        · simp [Nat.add_assoc]
      have hrest := ih (t.depthAfter d) (before ++ render (as ++ [t])) [] (by simpa using hnext)
      have hstop : (before ++ render as).byteSize + t.gap.byteSize + t.text.byteSize =
          (before ++ render (as ++ [t])).byteSize := by
        simp [written, Nat.add_assoc]
      have hplace : (before ++ render as).byteSize + t.written.byteSize =
          (before ++ render (as ++ [t]) ++ render []).byteSize := by
        simp [Nat.add_assoc]
      simp only [hslice, hstop, hplace, hrest, Option.bind_eq_bind, Option.bind_some]
      rw [Text.trim_append_of_blank _ (h.blank (by simp))]
      simp
    · have hplace : (before ++ render as).byteSize + t.written.byteSize =
          (before ++ render (as ++ [t])).byteSize := by
        simp [Nat.add_assoc]
      rw [hplace, ih (t.depthAfter d) before (as ++ [t]) hnext]
      simp

/-- The name of the object is read within the text. -/
theorem objectName?_place (h : Lies source before ts) :
    Scanner.objectName? source (place before.byteSize ts) = some (Token.objectName? ts) := by
  rw [Scanner.objectName?, find?_place _ h, Token.objectName?, Phrase.find?]
  have hfound := h.cutTop (Phrase.isAt [Keyword.FROM.spelling]) 0
  generalize Token.cutTop (Phrase.isAt [Keyword.FROM.spelling]) 0 ts = cut at hfound
  obtain ⟨skipped, found⟩ := cut
  rcases found with _ | ⟨t, _ | ⟨u, found⟩⟩
  · rfl
  · rfl
  · simp only [place_cons, Option.bind_eq_bind, Option.bind_some]
    split
    · rw [hfound.tail.text? _ (by simp [Nat.add_assoc])]
      rfl
    · rfl

end Search

/-- The parenthesis that closes a group is the one behind the tokens inside. -/
theorem closing_place (offset d : Nat) (ts : List Token) :
    (closeGroup? d ts = none → closing d (place offset ts) = none) ∧
    ∀ inside rest, closeGroup? d ts = some (inside, rest) → ∃ t, ts = inside ++ t :: rest ∧
      closing d (place offset ts) = some ((t, ⟨offset + (render inside).byteSize + t.gap.byteSize,
        offset + (render inside).byteSize + t.gap.byteSize + t.text.byteSize⟩),
          place (offset + (render inside).byteSize + t.written.byteSize) rest) := by
  induction ts generalizing offset d with
  | nil => simp [closeGroup?, closing]
  | cons t ts ih =>
    obtain ⟨hnone, hsome⟩ := ih (offset + t.written.byteSize) (t.depthAfter d)
    rw [place_cons, closeGroup?, closing]
    by_cases hclose : (t.kind == .closeParen && d == 0) = true
    · rw [if_pos hclose, if_pos hclose]
      refine ⟨by simp, fun inside rest h => ⟨t, ?_, ?_⟩⟩
      · obtain ⟨rfl, rfl⟩ : [] = inside ∧ ts = rest := by simpa using h
        rfl
      · obtain ⟨rfl, rfl⟩ : [] = inside ∧ ts = rest := by simpa using h
        rfl
    · rw [if_neg hclose, if_neg hclose]
      constructor
      · intro h
        exact hnone (by simpa using h)
      · intro inside rest h
        obtain ⟨⟨inner, rest'⟩, hrec, heq⟩ := Option.map_eq_some_iff.1 h
        obtain ⟨rfl, rfl⟩ := Prod.mk.inj heq
        obtain ⟨u, rfl, hplace⟩ := hsome inner rest' hrec
        refine ⟨u, rfl, ?_⟩
        rw [hplace, render_cons, Text.byteSize_append, Nat.add_assoc offset]

/-- The slice inside a pair of parentheses exists: the first one is the first byte. -/
theorem stripOuterParens?_eq (s : Text) :
    Scanner.stripOuterParens? s = some (Soql.stripOuterParens? s) := by
  rw [Scanner.stripOuterParens?, located_eq, Soql.stripOuterParens?]
  have hlies := lies_tokenize s.trim
  cases htok : tokenize s.trim with
  | nil => rfl
  | cons t ts =>
    rw [htok] at hlies
    have hgap := gap_of_tight (Text.tight_trim s) htok
    simp only [place_cons, Nat.zero_add]
    split
    · next hopen =>
      have htext : t.text = ['('] := by
        have hkind : t.kind = .openParen := by simpa using hopen
        exact text_of_mem_symbol (s := s.trim) (by simp [htok]) (by rw [hkind]; rfl)
      obtain ⟨hnone, hsome⟩ := closing_place t.written.byteSize 0 ts
      cases hclose : closeGroup? 0 ts with
      | none => rw [hnone hclose]
      | some parts =>
        obtain ⟨inside, rest⟩ := parts
        obtain ⟨u, rfl, hclosing⟩ := hsome inside rest hclose
        rw [hclosing]
        cases rest with
        | cons v rest => rfl
        | nil =>
          obtain ⟨behind, hs, -⟩ := hlies.text
          have hslice : s.trim.slice? 1 (t.written.byteSize + (render inside).byteSize +
              u.gap.byteSize) = some (render inside ++ u.gap) := by
            rw [Text.slice?_eq_some_iff]
            refine ⟨['('], u.text ++ behind, ?_, rfl, ?_⟩
            · rw [hs, render_cons, written, hgap, htext]
              simp [written]
            · simp [written, hgap, htext, Nat.add_assoc]
          simp only [place_nil, hslice, Option.map_some]
          rw [Text.trim_append_of_blank _ (hlies.blank (by simp))]
    · rfl

/-- The parts of a text are slices of it. -/
theorem splitParts?_eq (sep : Token → Bool) (s : Text) :
    Scanner.splitParts? sep s = some (Soql.splitParts sep s) := by
  have h := splitFrom?_place sep 0 [] [] (lies_tokenize s)
  simp only [render_nil, List.append_nil, List.nil_append, Text.byteSize_nil] at h
  rw [Scanner.splitParts?, located_eq, h, Soql.splitParts]
  rfl

@[simp] theorem splitItems?_eq (s : Text) : Scanner.splitItems? s = some (Soql.splitItems s) :=
  splitParts?_eq _ s

@[simp] theorem splitConditions?_eq (s : Text) :
    Scanner.splitConditions? s = some (Soql.splitConditions s) :=
  splitParts?_eq _ s

/-- The body of a clause is a slice of the query. -/
theorem extractClause?_eq (start : Text) (ends : List Text) (query : Text) :
    Scanner.extractClause? start ends query = some (Soql.extractClause start ends query) :=
  clause?_place _ _ (lies_tokenize query)

/-- What stands in a subquery is a slice of it. -/
theorem subqueryBody?_eq (s : Text) : Scanner.subqueryBody? s = some (Soql.subqueryBody? s) := by
  rw [Scanner.subqueryBody?, stripOuterParens?_eq, Soql.subqueryBody?]
  cases Soql.stripOuterParens? s with
  | none => rfl
  | some body =>
    have hquery := isAt?_place [Keyword.SELECT.spelling] (lies_tokenize body)
    rw [Text.byteSize_nil, ← located_eq] at hquery
    simp only [Option.bind_eq_bind, Option.bind_some, hquery, Option.filter]

end Soql.Scanner
