import Soql.Proofs.Token.LongestMatch

/-!
# Quotes that are not closed

Behind a quote that is never closed the rest of the text is one token, so that no comma, keyword or
parenthesis in it is seen: that is what an open quote is for. A backslash takes the next character
with it, though, and at the end of a text and before a line feed there is none to take. Such a
backslash ends the open quote (`QuoteLeft`) and what is behind it is read as tokens again. It is
the only way out (`unclosed_located`): without it the token reaches to the end of the text.
-/

namespace Soql

open Kind Token

/-- Behind an opening quote `body` is passed over, up to a backslash with no character to take: at
the end of the text or before a line feed. -/
structure QuoteLeft (quote : Char) (s body rest : Text) : Prop where
  text : s = body ++ '\\' :: rest
  body : body ∈ Pattern.quotedBody quote
  lone : ∀ c ∈ rest.head?, c = '\n'

section Lone

variable {quote : Char} {s body rest : Text}

/-- A backslash at which an open quote stops has no character to take. -/
theorem lone_of_quotedLength (h : quotedLength quote ('\\' :: rest) = (0, false)) :
    ∀ c ∈ rest.head?, c = '\n' := by
  cases rest with
  | nil => simp
  | cons c rest =>
    by_contra hne
    have hc : (c == '\n') = false := by simpa using hne
    simp [quotedLength, hc] at h

/-- An open quote is left where it stops before the end of the text. -/
theorem quoteLeft_of_quotedLength (hquote : quote ≠ '\\') (hne : rest ≠ [])
    (h : quotedLength quote (body ++ rest) = (body.length, false)) :
    ∃ tail, QuoteLeft quote (body ++ rest) body tail := by
  obtain ⟨c, tail, rfl⟩ := List.exists_cons_of_ne_nil hne
  obtain rfl : c = '\\' := eq_backslash_of_quotedLength hquote h c rfl
  have hself : quotedLength quote body = (body.length, false) := by
    rw [quotedLength_of_append hquote (y := '\\' :: tail) (by rw [h]), h]
  have hbody : body ∈ Pattern.quotedBody quote := by
    have := Pattern.mem_of_quotedLength hquote hself
    rwa [if_neg Bool.false_ne_true, mul_one] at this
  rw [Pattern.quotedLength_quotedBody hbody, Prod.mk.injEq] at h
  have hzero : quotedLength quote ('\\' :: tail) = (0, false) := Prod.ext (by simpa using h.1) h.2
  exact ⟨tail, rfl, hbody, lone_of_quotedLength hzero⟩

/-- Where an open quote is left its token stops. -/
theorem QuoteLeft.quotedLength_eq (hquote : quote ≠ '\\') (h : QuoteLeft quote s body rest) :
    quotedLength quote s = (body.length, false) := by
  rw [h.text, Pattern.quotedLength_quotedBody h.body, quotedLength_lone hquote h.lone, Nat.zero_add]

end Lone

/-- An open quote is the last token, up to the end of the text, unless a lone backslash ends it:
then what is behind the backslash is read as any text is. -/
theorem unclosed_located {s : Text} {before behind : List (Token × Span)} {p : Token × Span}
    (h : located s = before ++ p :: behind) (hopen : p.1.kind = .unclosed) :
    ∃ q rest, (q = '\'' ∨ q = '"') ∧ s.dropBytes? p.2.start = some (q :: rest) ∧
      (behind = [] ∧ p.2.stop = s.byteSize ↔ ¬∃ body tail, QuoteLeft q rest body tail) ∧
      ∀ body tail, QuoteLeft q rest body tail →
        p.1.text = q :: body ∧
          behind.map Prod.fst = ⟨[], .unknown, ['\\']⟩ :: tokenize tail := by
  obtain ⟨ts, us, rest, -, hus, -, hs, hreads, hrest, hstart, hstop⟩ := exists_of_located h
  obtain ⟨q, body, htext, hq, hlength⟩ := hreads.of_unclosed hopen
  have hquote : q ≠ '\\' := by rcases hq with rfl | rfl <;> decide
  have hend : p.2.stop = s.byteSize ↔ rest = [] := by
    rw [hstop, hs, Text.byteSize_append _ rest, Nat.left_eq_add, Text.byteSize_eq_zero_iff]
  have hleft : ∀ body' tail, QuoteLeft q (body ++ rest) body' tail →
      body' = body ∧ rest = '\\' :: tail := by
    intro body' tail hleft
    have hsame := hleft.quotedLength_eq hquote
    rw [hlength, Prod.mk.injEq] at hsame
    have := List.append_inj hleft.text hsame.1
    exact ⟨this.1.symm, this.2⟩
  refine ⟨q, body ++ rest, hq, ?_, ⟨?_, ?_⟩, ?_⟩
  · rw [hs, hstart, htext, List.append_assoc, Text.dropBytes?_append, List.cons_append]
  · rintro ⟨-, hbytes⟩ ⟨body', tail, hquoteLeft⟩
    have := (hleft _ _ hquoteLeft).2
    rw [hend.1 hbytes] at this
    cases this
  · intro hnone
    have hnil : rest = [] := by
      by_contra hne
      obtain ⟨tail, htail⟩ := quoteLeft_of_quotedLength hquote hne hlength
      exact hnone ⟨body, tail, htail⟩
    refine ⟨?_, hend.2 hnil⟩
    rw [hnil, tokenize_nil, ← hus] at hrest
    exact List.map_eq_nil_iff.1 hrest.symm
  · intro body' tail hquoteLeft
    obtain ⟨rfl, rfl⟩ := hleft _ _ hquoteLeft
    exact ⟨htext, by rw [hus, ← hrest, tokenize_backslash]⟩

/-- A quote that is not closed, with a backslash at the end of its line. -/
def brokenLine : Text := "x = 'a\\\n, b".toList

/-- The quote ends before the lone backslash, and reading goes on behind it. -/
theorem located_brokenLine : located brokenLine =
    [(⟨[], .identifier, ['x']⟩, ⟨0, 1⟩), (⟨[' '], .equal, ['=']⟩, ⟨2, 3⟩)] ++
      (⟨[' '], .unclosed, ['\'', 'a']⟩, ⟨4, 6⟩) ::
      [(⟨[], .unknown, ['\\']⟩, ⟨6, 7⟩), (⟨['\n'], .comma, [',']⟩, ⟨8, 9⟩),
        (⟨[' '], .identifier, ['b']⟩, ⟨10, 11⟩)] := by
  decide +kernel

/-- The comma on the second line is seen. -/
theorem unclosed_located_brokenLine : ∃ p behind, p.1.kind = .unclosed ∧ p.2 = ⟨4, 6⟩ ∧
    (∃ before, located brokenLine = before ++ p :: behind) ∧ .comma ∈ behind.map (·.1.kind) ∧
    ∃ q rest, (q = '\'' ∨ q = '"') ∧ brokenLine.dropBytes? 4 = some (q :: rest) ∧
      ∃ body tail, QuoteLeft q rest body tail := by
  refine ⟨_, _, rfl, rfl, ⟨_, located_brokenLine⟩, by decide, ?_⟩
  obtain ⟨q, rest, hq, htext, hlast, -⟩ := unclosed_located located_brokenLine rfl
  refine ⟨q, rest, hq, htext, ?_⟩
  by_contra hnone
  cases (hlast.2 hnone).1

/-- An open quote does not always take all that is behind it. -/
theorem not_unclosed_located_last : ¬∀ (s : Text) (before behind : List (Token × Span))
    (p : Token × Span), located s = before ++ p :: behind → p.1.kind = .unclosed →
      behind = [] ∧ p.2.stop = s.byteSize := by
  intro h
  cases (h _ _ _ _ located_brokenLine rfl).1

end Soql
