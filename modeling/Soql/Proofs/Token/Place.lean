import Mathlib.Data.List.Forall2
import Soql.Proofs.Token.Reread
import Soql.Token.Phrase

/-!
# Places in a text

The searches go by tokens; what they find can be told by the text alone. `StandsTop` says that
tokens of a certain sort stand somewhere in a text and no parenthesis is open there, as a division
of the text into what is before them, their own text and what is behind. A word that stands in a
text is a whole word: no character beside it goes on with it.
-/

namespace Soql

open Kind Token List

namespace Token

/-- A token of a text is read with the text behind it. -/
theorem exists_reads_of_append {s : Text} {ts us : List Token} {t : Token}
    (h : tokenize s = ts ++ t :: us) :
    ∃ rest, s = render ts ++ (t.written ++ rest) ∧ t.Reads rest ∧ tokenize rest = us := by
  obtain ⟨r, rfl, hr⟩ := exists_of_tokenize_append h
  obtain ⟨rest, rfl, ht, hrest⟩ := exists_of_tokenize_cons hr
  exact ⟨rest, rfl, ht, hrest⟩

/-- An open quoted text stops at the end or before a backslash. -/
theorem eq_backslash_of_quotedLength {quote : Char} (hquote : quote ≠ '\\') {s rest : Text}
    (h : quotedLength quote (s ++ rest) = (s.length, false)) : ∀ c ∈ rest.head?, c = '\\' := by
  induction s using quoted_induction quote with
  | nil =>
    rintro c hc
    obtain ⟨rest, rfl⟩ := head?_eq_some_iff.1 hc
    by_contra hslash
    rw [nil_append, quotedLength_cons hslash] at h
    split at h <;> simp at h
  | lone s hs =>
    have hread := quotedLength_of_append hquote (congrArg Prod.fst h).le
    rw [h, quotedLength_lone hquote hs] at hread
    cases hread
  | close s =>
    rw [cons_append, quotedLength_close hquote] at h
    cases congrArg Prod.snd h
  | escape e s he ih => exact ih ((quotedLength_escape_eq_iff he).1 h)
  | other c s hc hslash ih => exact ih ((quotedLength_other_eq_iff hc hslash).1 h)

theorem isWordStart_of_isWide {c : Char} (h : isWide c = true) : isWordStart c = false := by
  have hle : 128 ≤ c.toNat := by simpa [isWide] using h
  rw [Bool.eq_false_iff, ne_eq, isWordStart_iff]
  omega

/-- The character before a token is a blank or the last one of the token before it. -/
theorem getLast?_before {P : Char → Prop} {s : Text} {before behind : List Token} {t : Token}
    (h : tokenize s = before ++ t :: behind) (hgap : ∀ c, Text.isGap c = true → P c)
    (hlast : ∀ {u : Token} {rest : Text}, u.Reads (t.text ++ rest) → ∀ c ∈ u.text.getLast?, P c) :
    ∀ c ∈ (render before ++ t.gap).getLast?, P c := by
  intro c hc
  obtain ⟨rest, -, ht, -⟩ := exists_reads_of_append h
  by_cases hnil : t.gap = []
  · rw [hnil, append_nil] at hc
    obtain rfl | ⟨init, u, rfl⟩ := before.eq_nil_or_concat'
    · cases hc
    · rw [append_assoc, singleton_append] at h
      obtain ⟨r, -, hu, hr⟩ := exists_reads_of_append h
      obtain ⟨r', rfl, -, -⟩ := exists_of_tokenize_cons hr
      rw [written, hnil, List.nil_append] at hu
      refine hlast hu c ?_
      obtain ⟨x, v, htext, -⟩ := hu.text
      rw [render_append, render_cons, render_nil, append_nil, written, ← append_assoc,
        htext, getLast?_append_of_ne_nil _ (cons_ne_nil x v)] at hc
      rwa [htext]
  · rw [getLast?_append_of_ne_nil _ hnil] at hc
    exact hgap c (ht.gap c (mem_of_mem_getLast? hc))

/-- Before a character that starts words no token ends with such a character. -/
theorem Reads.getLast?_of_isWordStart {t : Token} {rest : Text} (h : t.Reads rest)
    (hrest : ∃ c ∈ rest.head?, isWordStart c = true) :
    ∀ c ∈ t.text.getLast?, isWordStart c = false := by
  obtain ⟨d, hd, hdstart⟩ := hrest
  by_cases hopen : t.kind = .unclosed
  · obtain ⟨q, s, -, hq, hquoted⟩ := h.of_unclosed hopen
    have hquote : q ≠ '\\' := by rcases hq with rfl | rfl <;> decide
    rw [eq_backslash_of_quotedLength hquote hquoted d hd] at hdstart
    cases hdstart
  intro c hc
  cases h.nil.shape hopen with
  | word c' s text start part kind =>
    have := h.head?_of_isWordStart ⟨c', by simp [text], start⟩ d hd
    rw [isWordPart_of_isWordStart hdstart] at this
    cases this
  | number kind head part =>
    rcases part c (mem_of_mem_getLast? hc) with hdigit | rfl
    · exact isWordStart_of_isDigit hdigit
    · rfl
  | quoted kind quote isQuote first last =>
    obtain rfl : quote = c := by
      rw [last] at hc
      simpa using hc
    rcases isQuote with rfl | rfl <;> rfl
  | symbol text => exact (of_mem_symbolText text c (mem_of_mem_getLast? hc)).1
  | wide kind part => exact isWordStart_of_isWide (part c (mem_of_mem_getLast? hc))
  | single kind c' text wide hword =>
    obtain rfl : c' = c := by simpa [text] using hc
    exact hword

end Token

/-- Tokens with the property `P` stand in a text and no parenthesis is open before them; `middle` is
their text. -/
def StandsTop (P : List Token → Prop) (left middle right : Text) : Prop :=
  ∃ before t ts behind, tokenize (left ++ (middle ++ right)) = before ++ t :: (ts ++ behind) ∧
    left = render before ++ t.gap ∧ middle = t.text ++ render ts ∧
    depth 0 (kinds before) = 0 ∧ P (t :: ts)

/-- Tokens at top level, seen in the text that they were read from. -/
theorem exists_standsTop {P : List Token → Prop} {s : Text} {before ts behind : List Token}
    {t : Token} (h : tokenize s = before ++ t :: (ts ++ behind))
    (htop : depth 0 (kinds before) = 0) (hP : P (t :: ts)) :
    ∃ right, s = render before ++ t.gap ++ (t.text ++ render ts ++ right) ∧
      tokenize right = behind ∧
      StandsTop P (render before ++ t.gap) (t.text ++ render ts) right := by
  rw [← cons_append, ← append_assoc] at h
  obtain ⟨right, hs, hright⟩ := exists_of_tokenize_append h
  have htext : s = render before ++ t.gap ++ (t.text ++ render ts ++ right) := by
    simpa [written] using hs
  refine ⟨right, htext, hright, before, t, ts, behind, ?_, rfl, rfl, htop, hP⟩
  rw [← htext, h, append_assoc, cons_append]

namespace Phrase

/-- The tokens are the words of a phrase, in any case. -/
def SpelledBy (phrase : Phrase) (ts : List Token) : Prop :=
  Forall₂ (fun word t => t.kind.isWord = true ∧ Text.eqIgnoreCase t.text word = true) phrase ts

/-- A phrase stands in a text as whole words with no parenthesis open before it. -/
def Stands (phrase : Phrase) (left words right : Text) : Prop :=
  StandsTop phrase.SpelledBy left words right

/-- A phrase stands in a text, and nowhere further to the left. -/
structure StandsFirst (phrase : Phrase) (s left words right : Text) : Prop where
  text : s = left ++ (words ++ right)
  stands : phrase.Stands left words right
  first {left' words' right' : Text} (htext : s = left' ++ (words' ++ right'))
    (hstands : phrase.Stands left' words' right') : left.length ≤ left'.length

/-- A phrase leads if it is spelled by the first tokens. -/
theorem leads_iff {phrase : Phrase} {ts : List Token} : phrase.leads ts = true ↔
    ∃ here behind, ts = here ++ behind ∧ phrase.SpelledBy here := by
  induction phrase generalizing ts with
  | nil => exact ⟨fun _ => ⟨[], ts, rfl, .nil⟩, fun _ => by cases ts <;> rfl⟩
  | cons word phrase ih =>
    cases ts with
    | nil =>
      refine ⟨fun h => Bool.noConfusion h, ?_⟩
      rintro ⟨here, behind, hnil, hspelled⟩
      cases hspelled
      cases hnil
    | cons t ts =>
      rw [leads, Bool.and_eq_true, Bool.and_eq_true, ih]
      constructor
      · rintro ⟨hword, here, behind, rfl, hspelled⟩
        exact ⟨t :: here, behind, rfl, .cons hword hspelled⟩
      · rintro ⟨here, behind, hts, hspelled⟩
        cases hspelled with
        | cons hword hrest =>
          rw [cons_append, cons.injEq] at hts
          obtain ⟨rfl, rfl⟩ := hts
          exact ⟨hword, _, behind, rfl, hrest⟩

/-- A phrase that is not empty stands here if it is spelled by the tokens here. -/
theorem isAt_iff {phrase : Phrase} {ts : List Token} : phrase.isAt ts = true ↔
    ∃ t here behind, ts = t :: here ++ behind ∧ phrase.SpelledBy (t :: here) := by
  rw [isAt, Bool.and_eq_true, leads_iff]
  constructor
  · rintro ⟨hne, here, behind, rfl, hspelled⟩
    cases hspelled with
    | nil => cases hne
    | cons hword hrest => exact ⟨_, _, behind, rfl, .cons hword hrest⟩
  · rintro ⟨t, here, behind, rfl, hspelled⟩
    refine ⟨?_, t :: here, behind, rfl, hspelled⟩
    cases hspelled
    rfl

theorem SpelledBy.isWord {phrase : Phrase} {ts : List Token} (h : phrase.SpelledBy ts) :
    ∀ t ∈ ts, t.kind.isWord = true := by
  induction h with
  | nil => simp
  | cons hword _ ih =>
    rintro u (_ | ⟨_, hu⟩)
    · exact hword.1
    · exact ih u hu

theorem SpelledBy.depth_eq {phrase : Phrase} {ts : List Token} (h : phrase.SpelledBy ts) :
    depth 0 (kinds ts) = 0 := by
  refine depth_of_level? (level?_of_no_group (fun k hk => ?_) 0)
  obtain ⟨t, ht, rfl⟩ := mem_map.1 hk
  have hword := h.isWord t ht
  constructor <;> (intro hkind; rw [hkind] at hword; cases hword)

/-- A search for a phrase looks at words only. -/
theorem leads_of_shows {phrase : Phrase} {ts us : List Token} (hshows : Shows ts us)
    (h : phrase.leads us = true) (rest : List Token) : phrase.leads (ts ++ rest) = true := by
  induction phrase generalizing ts us with
  | nil => cases ts ++ rest <;> rfl
  | cons word phrase ih =>
    cases hshows with
    | inert hinert =>
      cases us with
      | nil => cases h
      | cons u us =>
        rw [leads, isWord_of_isInert (hinert u (by simp))] at h
        cases h
    | @cons t u ts us kind text hrest =>
      rw [leads, Bool.and_eq_true, Bool.and_eq_true] at h
      obtain ⟨⟨hword, hspells⟩, hleads⟩ := h
      have htext : t.text = u.text := by
        refine text.resolve_left fun hinert => ?_
        rw [← kind, isWord_of_isInert hinert] at hword
        cases hword
      rw [cons_append, leads, kind, htext, hword, hspells, ih hrest hleads]
      rfl

/-- A search for a phrase is firm, since phrases are spelled by words. -/
theorem firm_isAt (phrase : Phrase) : Firm phrase.isAt := by
  refine ⟨?_, fun hshows hfound rest => ?_⟩
  · cases phrase <;> rfl
  · rw [isAt, Bool.and_eq_true] at hfound ⊢
    exact ⟨hfound.1, leads_of_shows hshows hfound.2 rest⟩

/-- So is a search for one of some phrases. -/
theorem firm_any (phrases : List Phrase) : Firm fun ts => phrases.any (·.isAt ts) := by
  refine ⟨?_, fun hshows hfound rest => ?_⟩
  · rw [any_eq_false]
    exact fun phrase _ => by simp [(firm_isAt phrase).nil]
  · obtain ⟨phrase, hphrase, hat⟩ := any_eq_true.1 hfound
    exact any_eq_true.2 ⟨phrase, hphrase, (firm_isAt phrase).of_shows hshows hat rest⟩

section Stands

variable {phrase : Phrase} {left words right : Text}

/-- No word goes on to the left of a phrase. -/
theorem Stands.getLast?_left (h : phrase.Stands left words right) :
    ∀ c ∈ left.getLast?, isWordStart c = false := by
  obtain ⟨before, t, ts, behind, htok, rfl, -, -, hspelled⟩ := h
  cases hspelled with
  | cons hword _ =>
    obtain ⟨rest, -, ht, -⟩ := exists_reads_of_append htok
    obtain ⟨d, hd, hstart⟩ := ht.head?_of_isWord hword.1
    refine getLast?_before htok (P := fun c => isWordStart c = false) (fun c hc => ?_)
      fun hu => hu.getLast?_of_isWordStart ⟨d, mem_head?_append_of_mem_head? hd, hstart⟩
    simp only [Text.isGap, Bool.or_eq_true, beq_iff_eq] at hc
    rcases hc with (((rfl | rfl) | rfl) | rfl) | rfl <;> rfl

/-- No word goes on to the right of a phrase. -/
theorem Stands.head?_right (h : phrase.Stands left words right) :
    ∀ c ∈ right.head?, isWordPart c = false := by
  obtain ⟨before, t, ts, behind, htok, rfl, rfl, -, hspelled⟩ := h
  obtain ⟨init, u, hlast⟩ := (t :: ts).eq_nil_or_concat'.resolve_left (cons_ne_nil t ts)
  have hu : u.kind.isWord = true := hspelled.isWord u (by simp [hlast])
  rw [← cons_append, hlast, append_assoc init, singleton_append, ← append_assoc before] at htok
  obtain ⟨rest, hs, hreads, -⟩ := exists_reads_of_append htok
  have hrender : t.gap ++ (t.text ++ render ts) = render init ++ u.written := by
    have := congrArg render hlast
    simpa [written] using this
  obtain rfl : right = rest := by
    have hsame : render before ++ (render init ++ u.written) ++ right =
        render before ++ (render init ++ u.written) ++ rest :=
      calc render before ++ (render init ++ u.written) ++ right
          = render before ++ t.gap ++ (t.text ++ render ts ++ right) := by rw [← hrender]; simp
        _ = render (before ++ init) ++ (u.written ++ rest) := hs
        _ = render before ++ (render init ++ u.written) ++ rest := by simp
    exact append_cancel_left hsame
  exact hreads.head?_of_isWordStart (hreads.head?_of_isWord hu)

end Stands

end Phrase

end Soql
