import Soql.Proofs.Text.FoldCase
import Soql.Proofs.Token.Stretch
import Soql.Token.Parts
import Soql.Token.Phrase

/-!
# Tokens do not depend on letter case

The tokens of a text in lower case are those of the text, each in lower case: words and keywords
are told apart in any case, and no other kind of token looks at a letter. Cutting at phrases, at
separators and around groups only asks for kinds and for words in any case, so every cut of a text
is also a cut of its lower case.
-/

namespace Soql

open Text

namespace Token

/-- A token in lower case. -/
def foldCase (t : Token) : Token :=
  { t with gap := Text.foldCase t.gap, text := Text.foldCase t.text }

@[simp] theorem foldCase_kind (t : Token) : t.foldCase.kind = t.kind := rfl

@[simp] theorem foldCase_text (t : Token) : t.foldCase.text = Text.foldCase t.text := rfl

@[simp] theorem written_foldCase (t : Token) : t.foldCase.written = Text.foldCase t.written :=
  (Text.foldCase_append t.gap t.text).symm

/-- Folded tokens are written as the folded text. -/
@[simp] theorem render_foldCase (ts : List Token) :
    render (ts.map foldCase) = Text.foldCase (render ts) := by
  induction ts with
  | nil => rfl
  | cons t ts ih => rw [List.map_cons, render_cons, written_foldCase, ih, render_cons,
      Text.foldCase_append]

section Reading

theorem isWide_toLower (c : Char) : isWide c.toLower = isWide c :=
  apply_toLower isWide (by decide) c

theorem symbolKind_toLower (c : Char) : symbolKind c.toLower = symbolKind c :=
  apply_toLower symbolKind (by decide) c

/-- No operator of two characters has a letter in it. -/
theorem pairKind?_toLower (c d : Char) : pairKind? c.toLower d.toLower = pairKind? c d := by
  by_cases he : d = '='
  · subst he
    exact apply_toLower (pairKind? · '=') (by decide) c
  by_cases hg : d = '>'
  · subst hg
    exact apply_toLower (pairKind? · '>') (by decide) c
  rw [pairKind?_of_ne he hg, pairKind?_of_ne]
  · rwa [Ne, toLower_eq_iff (by decide)]
  · rwa [Ne, toLower_eq_iff (by decide)]

/-- Keywords are keywords in any case. -/
theorem ofWord_foldCase (word : Text) : Kind.ofWord (Text.foldCase word) = Kind.ofWord word := by
  simp only [Kind.ofWord, Keyword.ofWord?, eqIgnoreCase_foldCase_right]

theorem runLength_foldCase {p : Char → Bool} (hp : ∀ c, p c.toLower = p c) (s : Text) :
    runLength p (Text.foldCase s) = runLength p s := by
  rw [runLength, takeWhile_foldCase hp, length_foldCase, runLength]

theorem fractionLength_foldCase (s : Text) :
    fractionLength (Text.foldCase s) = fractionLength s := by
  cases s with
  | nil => rfl
  | cons c s =>
    by_cases hpoint : c = '.'
    · subst hpoint
      change fractionLength ('.' :: Text.foldCase s) = _
      rw [fractionLength, runLength_foldCase isDigit_toLower, fractionLength]
    · have hlower : c.toLower ≠ '.' := by rwa [Ne, toLower_eq_iff (by decide)]
      simp [fractionLength, hpoint, hlower]

/-- The number in front of a text is as long in either case. -/
theorem numberLength_foldCase (s : Text) : numberLength (Text.foldCase s) = numberLength s := by
  rw [numberLength_eq, runLength_foldCase isDigit_toLower, dropWhile_foldCase isDigit_toLower,
    fractionLength_foldCase, numberLength_eq]

/-- A quoted text ends at the same quote, since neither quotes nor backslashes have a case. -/
theorem quotedLength_foldCase {quote : Char} (hquote : quote.isAlpha = false) (hslash : quote ≠ '\\')
    (s : Text) : quotedLength quote (Text.foldCase s) = quotedLength quote s := by
  have hlower : ∀ {c d : Char}, d.isAlpha = false → c ≠ d → c.toLower ≠ d := fun hd hc => by
    rwa [Ne, toLower_eq_iff hd]
  have hself : ∀ {d : Char}, d.isAlpha = false → d.toLower = d := fun hd => (toLower_eq_iff hd).2 rfl
  induction s using quoted_induction quote with
  | nil => rfl
  | lone s hs =>
    have hs' : ∀ c ∈ (Text.foldCase s).head?, c = '\n' := by
      cases s with
      | nil => simp
      | cons c s =>
        obtain rfl : c = '\n' := hs c rfl
        simp [hself]
    rw [foldCase_cons, hself (by decide), quotedLength_lone hslash hs', quotedLength_lone hslash hs]
  | close s =>
    rw [foldCase_cons, hself hquote, quotedLength_close hslash, quotedLength_close hslash]
  | escape e s he ih =>
    rw [foldCase_cons, foldCase_cons, hself (by decide),
      quotedLength_escape (hlower (by decide) he), quotedLength_escape he, ih]
  | other c s hc hback ih =>
    rw [foldCase_cons, quotedLength_other (hlower hquote hc) (hlower (by decide) hback),
      quotedLength_other hc hback, ih]

/-- The token at the front has the same kind and length in lower case. -/
theorem lexeme_foldCase (c : Char) (s : Text) :
    lexeme c.toLower (Text.foldCase s) = lexeme c s := by
  have hword := isWordStart_toLower (c := c)
  have hdigit := isDigit_toLower c
  have hquote : (c.toLower == '\'' || c.toLower == '"') = (c == '\'' || c == '"') :=
    apply_toLower (fun c => c == '\'' || c == '"') (by decide) c
  have hwide := isWide_toLower c
  cases start c with
  | word h =>
    rw [lexeme_word _ (hword.trans h), lexeme_word _ h,
      runLength_foldCase (fun _ => isWordPart_toLower), take_foldCase, ← foldCase_cons,
      ofWord_foldCase]
  | digit h₁ h => rw [lexeme_digit _ (hword.trans h₁) (hdigit.trans h), lexeme_digit _ h₁ h,
      numberLength_foldCase]
  | quote h₁ h₂ h =>
    have hself : c.toLower = c := by
      rcases Bool.or_eq_true_iff.1 h with h | h <;> rw [beq_iff_eq.1 h] <;> decide
    have halpha : c.isAlpha = false := by
      rcases Bool.or_eq_true_iff.1 h with h | h <;> rw [beq_iff_eq.1 h] <;> decide
    have hslash : c ≠ '\\' := by
      rcases Bool.or_eq_true_iff.1 h with h | h <;> rw [beq_iff_eq.1 h] <;> decide
    rw [hself, lexeme_quote _ h₁ h₂ h, lexeme_quote _ h₁ h₂ h, quotedLength_foldCase halpha hslash]
  | wide h₁ h₂ h₃ h =>
    rw [lexeme_wide _ (hword.trans h₁) (hdigit.trans h₂) (hquote.trans h₃) (hwide.trans h),
      lexeme_wide _ h₁ h₂ h₃ h, runLength_foldCase isWide_toLower]
  | symbol h₁ h₂ h₃ h =>
    have hpair : (Text.foldCase s).head?.bind (pairKind? c.toLower) =
        s.head?.bind (pairKind? c) := by
      cases s with
      | nil => rfl
      | cons d s => exact pairKind?_toLower c d
    rw [lexeme_symbol _ (hword.trans h₁) (hdigit.trans h₂) (hquote.trans h₃) (hwide.trans h),
      lexeme_symbol _ h₁ h₂ h₃ h, hpair, symbolKind_toLower]

/-- A token that is read is read in either case. -/
theorem Reads.foldCase {t : Token} {rest : Text} (h : t.Reads rest) :
    t.foldCase.Reads (Text.foldCase rest) := by
  obtain ⟨c, s, htext, hc, hlexeme⟩ := h.text
  constructor
  · rw [← List.all_eq_true]
    exact (all_foldCase isGap_toLower t.gap).trans (List.all_eq_true.2 h.gap)
  · refine ⟨c.toLower, Text.foldCase s, ?_, ?_, ?_⟩
    · rw [foldCase_text, htext, foldCase_cons]
    · rw [isGap_toLower, hc]
    · rw [← foldCase_append, lexeme_foldCase, hlexeme, length_foldCase, foldCase_kind]

end Reading

end Token

open Token

/-- The tokens of a text in lower case are those of the text, each in lower case. -/
@[simp] theorem tokenize_foldCase (s : Text) :
    tokenize (Text.foldCase s) = (tokenize s).map Token.foldCase := by
  generalize hts : tokenize s = ts
  induction ts generalizing s with
  | nil =>
    rw [tokenize_eq_nil_iff, ← List.all_eq_true] at hts
    rw [List.map_nil, tokenize_eq_nil_iff, ← List.all_eq_true, all_foldCase isGap_toLower, hts]
  | cons t ts ih =>
    obtain ⟨rest, rfl, ht, hrest⟩ := exists_of_tokenize_cons hts
    rw [foldCase_append, ← written_foldCase, tokenize_written_append ht.foldCase, ih rest hrest,
      List.map_cons]

namespace Token

/-- A parenthesis has the same partner. -/
theorem closeGroup?_foldCase (d : Nat) (ts : List Token) :
    closeGroup? d (ts.map foldCase) =
      (closeGroup? d ts).map (Prod.map (List.map foldCase) (List.map foldCase)) := by
  induction ts generalizing d with
  | nil => rfl
  | cons t ts ih =>
    rw [List.map_cons, closeGroup?, closeGroup?, foldCase_kind, show
      t.foldCase.depthAfter d = t.depthAfter d from rfl, ih]
    split
    · rfl
    · simp [Function.comp_def]

/-- A search that does not look at case stops at the same token. -/
theorem cutTop_foldCase {found : List Token → Bool}
    (hfound : ∀ ts, found (ts.map foldCase) = found ts) (d : Nat) (ts : List Token) :
    cutTop found d (ts.map foldCase) =
      Prod.map (List.map foldCase) (List.map foldCase) (cutTop found d ts) := by
  induction ts generalizing d with
  | nil => rfl
  | cons t ts ih =>
    rw [List.map_cons, cutTop, cutTop, show
      t.foldCase.depthAfter d = t.depthAfter d from rfl, ih, ← List.map_cons, hfound]
    split <;> rfl

/-- The separators at top level are the same. -/
theorem splitTop_foldCase {sep : Token → Bool} (hsep : ∀ t, sep t.foldCase = sep t) (d : Nat)
    (ts : List Token) : splitTop sep d (ts.map foldCase) =
      Prod.map (List.map foldCase) (List.map (List.map foldCase)) (splitTop sep d ts) := by
  induction ts generalizing d with
  | nil => rfl
  | cons t ts ih =>
    rw [List.map_cons, splitTop, splitTop, hsep, show
      t.foldCase.depthAfter d = t.depthAfter d from rfl, ih]
    split <;> rfl

end Token

/-- A text falls into the same parts. -/
theorem splitParts_foldCase {sep : Token → Bool} (hsep : ∀ t, sep t.foldCase = sep t) (s : Text) :
    splitParts sep (Text.foldCase s) = (splitParts sep s).map Text.foldCase := by
  rw [splitParts, tokenize_foldCase, splitTop_foldCase hsep, splitParts]
  simp only [Prod.map_fst, Prod.map_snd, ← List.map_cons, List.map_map, List.filter_map]
  simp [Function.comp_def]

/-- The items of a list are told apart by commas, which have no case. -/
@[simp] theorem splitItems_foldCase (s : Text) :
    splitItems (Text.foldCase s) = (splitItems s).map Text.foldCase :=
  splitParts_foldCase (fun _ => rfl) s

/-- Connectives are keywords, and found in any case. -/
@[simp] theorem splitConditions_foldCase (s : Text) :
    splitConditions (Text.foldCase s) = (splitConditions s).map Text.foldCase :=
  splitParts_foldCase (fun _ => rfl) s

/-- The parentheses around a text are found in any case. -/
@[simp] theorem stripOuterParens?_foldCase (s : Text) :
    stripOuterParens? (Text.foldCase s) = (stripOuterParens? s).map Text.foldCase := by
  rw [stripOuterParens?, trim_foldCase, tokenize_foldCase, stripOuterParens?]
  cases tokenize s.trim with
  | nil => rfl
  | cons t ts =>
    simp only [List.map_cons, foldCase_kind, closeGroup?_foldCase]
    split
    · cases closeGroup? 0 ts with
      | none => rfl
      | some parts =>
        obtain ⟨inside, rest⟩ := parts
        cases rest with
        | nil => simp
        | cons u us => rfl
    · rfl

namespace Phrase

@[simp] theorem leads_foldCase (phrase : Phrase) (ts : List Token) :
    phrase.leads (ts.map Token.foldCase) = phrase.leads ts := by
  induction phrase generalizing ts with
  | nil => rfl
  | cons word phrase ih =>
    cases ts with
    | nil => rfl
    | cons t ts => simp [leads, ih]

@[simp] theorem isAt_foldCase (phrase : Phrase) (ts : List Token) :
    phrase.isAt (ts.map Token.foldCase) = phrase.isAt ts := by
  rw [isAt, leads_foldCase, isAt]

@[simp] theorem find?_foldCase (phrase : Phrase) (ts : List Token) :
    phrase.find? (ts.map Token.foldCase) = (phrase.find? ts).map (List.map Token.foldCase) := by
  rw [find?, cutTop_foldCase phrase.isAt_foldCase, find?]
  obtain ⟨before, found⟩ := cutTop phrase.isAt 0 ts
  cases found <;> rfl

theorem between?_foldCase (phrase : Phrase) (ends : List Phrase) (ts : List Token) :
    phrase.between? ends (ts.map Token.foldCase) =
      (phrase.between? ends ts).map (List.map Token.foldCase) := by
  have hends (ts : List Token) : (ends.any fun e => e.isAt (ts.map Token.foldCase)) =
      ends.any fun e => e.isAt ts := by
    simp only [isAt_foldCase]
  rw [between?, find?_foldCase, between?, Option.map_map, Option.map_map]
  refine congrArg (Option.map · _) (funext fun found => ?_)
  rw [Function.comp_apply, ← List.map_drop, cutTop_foldCase hends]
  rfl

/-- The body of a clause is the same one, folded. -/
@[simp] theorem body?_foldCase (phrase : Phrase) (ends : List Phrase) (ts : List Token) :
    phrase.body? ends (ts.map Token.foldCase) = (phrase.body? ends ts).map Text.foldCase := by
  simp [body?, between?_foldCase, Function.comp_def]

end Phrase

@[simp] theorem subqueryBody?_foldCase (s : Text) :
    subqueryBody? (Text.foldCase s) = (subqueryBody? s).map Text.foldCase := by
  rw [subqueryBody?, stripOuterParens?_foldCase, Option.filter_map, subqueryBody?]
  simp [Function.comp_def]

/-- The object of a query is found behind its keyword in any case. -/
@[simp] theorem objectName?_foldCase (ts : List Token) :
    objectName? (ts.map Token.foldCase) = (objectName? ts).map Text.foldCase := by
  rw [objectName?, Phrase.find?_foldCase, objectName?]
  cases Phrase.find? [Keyword.FROM.spelling] ts with
  | none => rfl
  | some found =>
    cases found with
    | nil => rfl
    | cons from_ rest =>
      cases rest with
      | nil => rfl
      | cons t ts =>
        by_cases hword : t.kind.isWord = true <;> simp [hword]

end Soql
