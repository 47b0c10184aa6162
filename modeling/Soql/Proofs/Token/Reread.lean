import Soql.Proofs.Token.Level

/-!
# Parts that are read again

A part of a query is kept as a trimmed text and read again later. Where every quoted text is closed
its tokens are the old ones (`Stretch.tokenize_trim`). Without that, trimming may shorten a quoted
text that runs to the end, and even split a backslash off it, so the tokens at the end differ. None
of them is a word, a separator or a parenthesis, though: a search that goes by these (`Firm`) finds
nothing in a part that it has not found where the part stood (`Firm.absent_trim`).
-/

namespace Soql

open Kind Token

/-- What no search looks for: unknown characters and quoted texts without an end. -/
def Kind.isInert (k : Kind) : Bool :=
  k == .unknown || k == .unclosed

theorem Kind.isWord_of_isInert {k : Kind} (h : k.isInert = true) : k.isWord = false := by
  cases k <;> first | rfl | cases h

namespace Token

theorem isInert_of_eq_unknown {t : Token} (h : t.kind = .unknown) : t.kind.isInert = true := by
  rw [h]
  rfl

/-- Inert tokens stay on their level. -/
theorem depth_of_inert {ts : List Token} (h : ∀ t ∈ ts, t.kind.isInert = true) (d : Nat) :
    depth d (kinds ts) = d := by
  induction ts with
  | nil => rfl
  | cons t ts ih =>
    have hinert := h t (by simp)
    have ht : t.kind.depthAfter d = d := by
      cases hk : t.kind <;> first | rfl | (rw [hk] at hinert; cases hinert)
    rw [kinds_cons, depth_cons, ht]
    exact ih fun u hu => h u (by simp [hu])

/-- Up to inert tokens at their end, the second tokens are what the first ones start with. -/
inductive Shows : List Token → List Token → Prop
  | inert {ts us : List Token} (inert : ∀ u ∈ us, u.kind.isInert = true) : Shows ts us
  | cons {t u : Token} {ts us : List Token} (kind : t.kind = u.kind)
      (text : t.kind.isInert = true ∨ t.text = u.text) (rest : Shows ts us) :
      Shows (t :: ts) (u :: us)

theorem Shows.refl : ∀ ts, Shows ts ts
  | [] => .inert (by simp)
  | _ :: ts => .cons rfl (.inr rfl) (Shows.refl ts)

/-- A search for what stands at the front, which needs a token there and looks at no inert one. -/
structure Firm (found : List Token → Bool) : Prop where
  nil : found [] = false
  of_shows {ts us : List Token} (hshows : Shows ts us) (hfound : found us = true)
    (rest : List Token) : found (ts ++ rest) = true

section Absent

variable {found : List Token → Bool} (hf : Firm found)

include hf

/-- What is absent among some tokens is absent among those that they show. -/
theorem Firm.absent_of_shows {d : Nat} {ts us rest : List Token} (hshows : Shows ts us)
    (h : Absent found d ts rest) : Absent found d us [] := by
  induction hshows generalizing d with
  | @inert ts us hinert =>
    clear h
    induction us generalizing d with
    | nil => trivial
    | cons u us ih =>
      refine ⟨fun _ => ?_, ih fun v hv => hinert v (by simp [hv])⟩
      rw [List.append_nil]
      by_contra hfound
      have hshows : Shows [] (u :: us) := .inert hinert
      have := hf.of_shows hshows (by simpa using hfound) []
      rw [List.append_nil, hf.nil] at this
      cases this
  | @cons t u ts us kind text hrest ih =>
    refine ⟨fun hd => ?_, ?_⟩
    · rw [List.append_nil]
      by_contra hfound
      have := hf.of_shows (.cons kind text hrest) (by simpa using hfound) rest
      rw [List.cons_append, h.1 hd] at this
      cases this
    · rw [← kind]
      exact ih h.2

end Absent

/-- A token without the blanks at an end looks the same to a search. -/
theorem Reads.shows_cons {t : Token} (h : t.Reads []) {g text : Text} {ts us : List Token}
    (htext : t.text.Tight → text = t.text) (hrest : Shows ts us) :
    Shows (t :: ts) (⟨g, t.kind, text⟩ :: us) := by
  refine .cons rfl ?_ hrest
  by_cases hopen : t.kind = .unclosed
  · exact .inl (by rw [hopen]; rfl)
  by_cases hunknown : t.kind = .unknown
  · exact .inl (isInert_of_eq_unknown hunknown)
  · exact .inr (htext ((h.shape hopen).tight hunknown)).symm

/-- Trimming at the start loses inert tokens, and shows the others. -/
theorem exists_shows_trimLeft {ts : List Token} (h : ∀ t ∈ ts, t.Reads []) :
    ∃ xs ys, ts = xs ++ ys ∧ (∀ x ∈ xs, x.kind.isInert = true) ∧ Shows ys (trimLeft ts) := by
  induction ts with
  | nil => exact ⟨[], [], rfl, by simp, .refl []⟩
  | cons t ts ih =>
    rw [trimLeft]
    split
    · next hblank =>
      rw [List.isEmpty_iff, Text.trimStart_eq_nil_iff] at hblank
      obtain ⟨xs, ys, hts, hxs, hshows⟩ := ih fun u hu => h u (by simp [hu])
      refine ⟨t :: xs, ys, by rw [hts]; rfl, ?_, hshows⟩
      rintro u (_ | ⟨_, hu⟩)
      · exact isInert_of_eq_unknown ((h t (by simp)).eq_unknown hblank)
      · exact hxs u hu
    · refine ⟨[], t :: ts, rfl, by simp, ?_⟩
      exact (h t (by simp)).shows_cons (fun htight => Text.trimStart_eq_self htight.first)
        (.refl ts)

/-- A quoted text that runs to the end of a text still does so when the end is taken off, but for
a backslash that stands last then. -/
theorem quotedLength_of_open {quote : Char} (hquote : quote ≠ '\\') {s g : Text}
    (h : quotedLength quote (s ++ g) = ((s ++ g).length, false)) :
    quotedLength quote s = (s.length, false) ∨
      ∃ s', s = s' ++ ['\\'] ∧ quotedLength quote (s' ++ ['\\']) = (s'.length, false) := by
  induction s using quoted_induction quote with
  | nil => exact .inl rfl
  | lone s hs =>
    cases s with
    | nil => exact .inr ⟨[], rfl, quotedLength_lone hquote hs⟩
    | cons e s =>
      obtain rfl : e = '\n' := hs e rfl
      rw [List.cons_append, List.cons_append, quotedLength_lone hquote (by simp)] at h
      cases h
  | close s =>
    rw [List.cons_append, quotedLength_close hquote] at h
    cases congrArg Prod.snd h
  | escape e s he ih =>
    rcases ih ((quotedLength_escape_eq_iff he).1 h) with hopen | ⟨s', rfl, hs'⟩
    · exact .inl ((quotedLength_escape_eq_iff he).2 hopen)
    · exact .inr ⟨'\\' :: e :: s', rfl, (quotedLength_escape_eq_iff he).2 hs'⟩
  | other c s hc hslash ih =>
    rcases ih ((quotedLength_other_eq_iff hc hslash).1 h) with hopen | ⟨s', rfl, hs'⟩
    · exact .inl ((quotedLength_other_eq_iff hc hslash).2 hopen)
    · exact .inr ⟨c :: s', rfl, (quotedLength_other_eq_iff hc hslash).2 hs'⟩

/-- A quote that is not closed is read to the end. -/
theorem reads_unclosed {g : Text} (hg : ∀ c ∈ g, Text.isGap c = true) {q : Char}
    (hq : q = '\'' ∨ q = '"') {s rest : Text}
    (h : quotedLength q (s ++ rest) = (s.length, false)) :
    Token.Reads ⟨g, .unclosed, q :: s⟩ rest := by
  have hstart : isWordStart q = false ∧ q.isDigit = false ∧ Text.isGap q = false := by
    rcases hq with rfl | rfl <;> decide
  refine ⟨hg, q, s, rfl, hstart.2.2, ?_⟩
  rw [lexeme_quote _ hstart.1 hstart.2.1 (by simpa using hq), h]
  rfl

/-- A backslash outside quotes is a token of its own. -/
theorem tokenize_backslash (s : Text) :
    tokenize ('\\' :: s) = ⟨[], .unknown, ['\\']⟩ :: tokenize s := by
  have hread : lexeme '\\' s = (.unknown, 0) := by cases s <;> rfl
  exact tokenize_written_append (t := ⟨[], .unknown, ['\\']⟩)
    ⟨by simp, '\\', [], rfl, by decide, hread⟩

/-- What is left of an open quoted text is read as inert tokens. -/
theorem Reads.inert_of_prefix {t : Token} (h : t.Reads []) (hk : t.kind = .unclosed)
    {text g : Text} (htext : t.text = text ++ g) (hne : text ≠ []) :
    ∀ u ∈ tokenize (t.gap ++ text), u.kind.isInert = true := by
  obtain ⟨q, s, hs, hq, hquoted⟩ := h.of_unclosed hk
  obtain ⟨c, s', rfl⟩ := List.exists_cons_of_ne_nil hne
  obtain ⟨rfl, rfl⟩ : q = c ∧ s = s' ++ g := by
    rw [hs, List.cons_append, List.cons.injEq] at htext
    exact htext
  have hquote : q ≠ '\\' := by rcases hq with rfl | rfl <;> decide
  rw [List.append_nil] at hquoted
  rcases quotedLength_of_open hquote hquoted with hopen | ⟨s'', rfl, hopen⟩
  · have hreads : Token.Reads ⟨t.gap, .unclosed, q :: s'⟩ [] :=
      reads_unclosed h.gap hq (by rwa [List.append_nil])
    have htok := tokenize_written_append hreads
    rw [written, List.append_nil, tokenize_nil] at htok
    simp [htok, Kind.isInert]
  · have htok := tokenize_written_append (reads_unclosed h.gap hq hopen)
    rw [tokenize_backslash, written, List.append_assoc, List.cons_append] at htok
    simp [htok, Kind.isInert]

end Token

/-- The tokens of a blank text are inert. -/
theorem inert_of_blank {s : Text} (h : ∀ c ∈ s, Text.isBlank c = true) :
    ∀ t ∈ tokenize s, t.kind.isInert = true := by
  intro t ht
  obtain ⟨g, hs, -⟩ := exists_eq_render_append s
  refine isInert_of_eq_unknown ((reads_nil_of_mem ht).eq_unknown fun c hc => h c ?_)
  rw [hs, List.mem_append]
  exact .inl (List.mem_flatMap.2 ⟨t, ht, List.mem_append_right _ hc⟩)

/-- Trimming at the end keeps all tokens but inert ones, also if a quote is open. -/
theorem shows_trimEnd (s : Text) : Shows (tokenize s) (tokenize s.trimEnd) := by
  generalize hts : tokenize s = ts
  induction ts generalizing s with
  | nil =>
    refine .inert (inert_of_blank fun c hc => ?_)
    obtain ⟨g, hs, -⟩ := Text.exists_eq_trimEnd_append s
    rw [hs] at hts
    exact Text.isBlank_of_isGap (tokenize_eq_nil_iff.1 hts c (List.mem_append_left g hc))
  | cons t ts ih =>
    obtain ⟨rest, rfl, ht, hrest⟩ := exists_of_tokenize_cons hts
    by_cases hnil : rest.trimEnd = []
    · rw [Text.trimEnd_append_of_blank _ (Text.trimEnd_eq_nil_iff.1 hnil)]
      by_cases hne : t.text.trimEnd = []
      · rw [written, Text.trimEnd_append_of_blank _ (Text.trimEnd_eq_nil_iff.1 hne),
          Text.trimEnd_eq_nil_iff.2 (isBlank_of_gap ht), tokenize_nil]
        exact .inert (by simp)
      · rw [written, Text.trimEnd_append_of_not_blank _ hne]
        by_cases hopen : t.kind = .unclosed
        · obtain ⟨g, hg, -⟩ := Text.exists_eq_trimEnd_append t.text
          exact .inert (ht.nil.inert_of_prefix hopen hg hne)
        · have htok := tokenize_written_append (ht.trimEnd hopen hne)
          rw [written, List.append_nil, tokenize_nil] at htok
          rw [htok]
          exact ht.nil.shows_cons (fun htight => Text.trimEnd_eq_self htight.last)
            (.inert (by simp))
    · obtain ⟨g, hg, -⟩ := Text.exists_eq_trimEnd_append rest
      rw [Text.trimEnd_append_of_not_blank _ hnil,
        tokenize_written_append (Reads.of_append (y := g) (hg ▸ ht))]
      exact .cons rfl (.inr rfl) (ih rest hrest)

/-- A search that finds nothing in a text finds nothing in it when blanks are taken off its ends. -/
theorem Token.Firm.absent_trim {found : List Token → Bool} (hf : Firm found) {s : Text}
    {rest : List Token} (h : Absent found 0 (tokenize s) rest) :
    Absent found 0 (tokenize s.trim) [] := by
  obtain ⟨xs, ys, hs, hxs, hshows⟩ :=
    exists_shows_trimLeft fun t (ht : t ∈ tokenize s) => reads_nil_of_mem ht
  rw [hs] at h
  have hys := (absent_append_iff.1 h).2
  rw [depth_of_inert hxs] at hys
  rw [← tokenize_trimStart] at hshows
  exact hf.absent_of_shows (shows_trimEnd _) (hf.absent_of_shows hshows hys)

end Soql
