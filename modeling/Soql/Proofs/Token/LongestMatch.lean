import Soql.Proofs.Cursor.Search
import Soql.Proofs.Text.Slice
import Soql.Proofs.Token.Pattern

/-!
# Longest match

What a token is can be said without saying how it is read: its text has the pattern of its kind,
and no longer text at that place has any pattern; where no text has one, a single character is
taken (`LongestMatch`). Reading does just this (`reads_iff`), so the tokens of a text are the only
way to take it apart by longest match (`munched_iff`). In their text they lie one behind the other
at whole characters and leave out nothing but blanks (`MaximalMunch`).
-/

namespace Soql

open Kind Token

/-- A text with `rest` behind it is the longest that can be taken as a token, and `k` is its kind.
Keywords go before other words. -/
inductive LongestMatch : Kind → Text → Text → Prop
  | found {k : Kind} {text rest : Text} (fits : text ∈ k.pattern)
      (longest : ∀ u, u <+: text ++ rest → ∀ l : Kind, u ∈ l.pattern → u.length ≤ text.length)
      (keyword : ∀ w : Keyword, Text.eqIgnoreCase text w.spelling = true → k = .keyword w) :
      LongestMatch k text rest
  | other {c : Char} {rest : Text} (ascii : c.toNat < 128) (gap : Text.isGap c = false)
      (none : ∀ u, u <+: c :: rest → ∀ l : Kind, u ∉ l.pattern) : LongestMatch .unknown [c] rest

/-- A text is taken apart from left to right by longest match, with blanks before the tokens. -/
inductive Munched : Text → List Token → Prop
  | nil {s : Text} (gap : ∀ c ∈ s, Text.isGap c = true) : Munched s []
  | cons {t : Token} {rest : Text} {ts : List Token} (gap : ∀ c ∈ t.gap, Text.isGap c = true)
      (longest : LongestMatch t.kind t.text rest) (behind : Munched rest ts) :
      Munched (t.written ++ rest) (t :: ts)

namespace LongestMatch

variable {c : Char} {s rest : Text} {k : Kind}

/-- No text that has a pattern is longer than what is read. -/
theorem length_le_of_mem_pattern {u y : Text} {l : Kind} (h : c :: u ∈ l.pattern) :
    u.length ≤ (lexeme c (u ++ y)).2 := by
  obtain ⟨l', hread, -⟩ := lexeme_of_mem_pattern h
  by_contra hlt
  have hsame := lexeme_of_append (c := c) (s := u) (y := y) (by omega)
  rw [← hsame, hread] at hlt
  exact hlt (Nat.le_refl _)

/-- Where a single unknown ASCII character is read, no text has a pattern. -/
theorem not_mem_pattern (hread : lexeme c s = (.unknown, 0)) (hwide : isWide c = false) {u : Text}
    (hu : u <+: c :: s) (l : Kind) : u ∉ l.pattern := by
  intro h
  cases u with
  | nil => exact nil_not_mem_pattern h
  | cons d u =>
    obtain ⟨rfl, y, rfl⟩ := List.cons_prefix_cons.1 hu
    have hnil : u = [] := by
      have := length_le_of_mem_pattern (y := y) h
      rw [hread] at this
      exact List.eq_nil_of_length_eq_zero (Nat.le_zero.1 this)
    subst hnil
    obtain ⟨l', hone, hl'⟩ := lexeme_of_mem_pattern h
    rw [lexeme_of_append (y := y) (by rw [List.nil_append] at hread ⊢; rw [hread]; rfl), hread,
      Prod.mk.injEq] at hone
    rcases hl' with rfl | ⟨-, hword⟩
    · rw [← hone.1, mem_pattern_unknown] at h
      rw [h.2 d (by simp)] at hwide
      cases hwide
    · have := isWord_ofWord [d]
      rw [← hword, ← hone.1] at this
      cases this

/-- What is read is the longest match. -/
theorem of_lexeme (hgap : Text.isGap c = false) (h : lexeme c (s ++ rest) = (k, s.length)) :
    LongestMatch k (c :: s) rest := by
  have hself : lexeme c s = (k, s.length) := by rw [lexeme_of_append (by rw [h]), h]
  rcases mem_pattern_of_lexeme hself with hmem | ⟨rfl, rfl, hwide⟩
  · refine .found hmem (fun u hu l hl => ?_) fun w hw => ?_
    · cases u with
      | nil => simp
      | cons d u =>
        rw [List.cons_append, List.cons_prefix_cons] at hu
        obtain ⟨rfl, y, hy⟩ := hu
        have := length_le_of_mem_pattern (y := y) hl
        rw [hy, h] at this
        simpa using this
    · obtain ⟨hword, hkind⟩ := of_mem_anyCase (Pattern.mem_anyCase.2 hw)
      rw [lexeme_of_mem_word hword, hkind, Prod.mk.injEq] at hself
      exact hself.1.symm
  · refine .other ?_ hgap fun u hu l => not_mem_pattern h hwide hu l
    simpa [isWide] using hwide

/-- What is read at the front is read from its own text, and has a pattern or is a single unknown
character. -/
theorem exists_of_lexeme (c : Char) (s : Text) : ∃ k u y, s = u ++ y ∧ lexeme c s = (k, u.length) ∧
    (c :: u ∈ k.pattern ∨ k = .unknown ∧ u = [] ∧ isWide c = false) := by
  have hlength : (s.take (lexeme c s).2).length = (lexeme c s).2 := by
    rw [List.length_take, Nat.min_eq_left (lexeme_le c s)]
  have hsplit := List.take_append_drop (lexeme c s).2 s
  refine ⟨(lexeme c s).1, _, _, hsplit.symm, Prod.ext rfl hlength.symm, mem_pattern_of_lexeme ?_⟩
  rw [lexeme_of_append (y := s.drop (lexeme c s).2), hsplit]
  · exact Prod.ext rfl hlength.symm
  · rw [hsplit, hlength]

/-- A longest match is what is read. -/
theorem lexeme_eq (h : LongestMatch k (c :: s) rest) : lexeme c (s ++ rest) = (k, s.length) := by
  obtain ⟨l, u, y, hsplit, hread, hmem⟩ := exists_of_lexeme c (s ++ rest)
  generalize htext : c :: s = text at h
  cases h with
  | found fits longest keyword =>
    subst htext
    have hle := length_le_of_mem_pattern (y := rest) fits
    rw [hread] at hle
    have hlength : u.length = s.length := by
      rcases hmem with hmem | ⟨-, rfl, -⟩
      · have hprefix : c :: u <+: c :: s ++ rest := ⟨y, by rw [List.cons_append, ← hsplit]; rfl⟩
        have := longest _ hprefix l hmem
        simp only [List.length_cons] at this
        omega
      · exact (Nat.le_zero.1 hle).symm
    have hself : lexeme c s = (l, s.length) := by
      rw [lexeme_of_append (by rw [hread, hlength]), hread, hlength]
    obtain ⟨l', hread', hl'⟩ := lexeme_of_mem_pattern fits
    rw [hself, Prod.mk.injEq] at hread'
    rw [hread, hlength, hread'.1]
    rcases hl' with rfl | ⟨rfl, hword⟩
    · rfl
    · -- a word that is no keyword is an identifier
      cases hk : Keyword.ofWord? (c :: s) with
      | none => rw [hword, Kind.ofWord, hk]
      | some w => cases keyword w (Keyword.ofWord?_eq_some_iff.1 hk)
  | other ascii gap none =>
    obtain ⟨rfl, rfl⟩ := List.cons.inj htext
    rcases hmem with hmem | ⟨rfl, rfl, -⟩
    · exact absurd hmem (none _ ⟨y, by rw [List.nil_append] at hsplit; rw [hsplit]; rfl⟩ l)
    · exact hread

/-- Where a blank stands, no text has a pattern. -/
theorem exists_cons {text : Text} (h : LongestMatch k text rest) :
    ∃ c s, text = c :: s ∧ Text.isGap c = false := by
  cases h with
  | found fits longest keyword =>
    cases text with
    | nil => exact absurd fits nil_not_mem_pattern
    | cons c s =>
      refine ⟨c, s, rfl, ?_⟩
      rw [Bool.eq_false_iff]
      intro hgap
      simp only [Text.isGap, Bool.or_eq_true, beq_iff_eq] at hgap
      have hread : lexeme c s = (.unknown, 0) ∧ isWide c = false := by
        rcases hgap with (((rfl | rfl) | rfl) | rfl) | rfl <;> exact ⟨by cases s <;> rfl, rfl⟩
      exact not_mem_pattern hread.1 hread.2 (List.prefix_refl _) k fits
  | other ascii gap none => exact ⟨_, [], rfl, gap⟩

/-- Where no text has a pattern, a single ASCII character is taken. -/
theorem single {text : Text} (h : LongestMatch k text rest)
    (hnone : ∀ u, u <+: text ++ rest → ∀ l : Kind, u ∉ l.pattern) :
    k = .unknown ∧ ∃ c, text = [c] ∧ c.toNat < 128 := by
  cases h with
  | found fits => exact absurd fits (hnone _ (List.prefix_append _ _) _)
  | other ascii => exact ⟨rfl, _, rfl, ascii⟩

end LongestMatch

/-- A token is read where it is the longest match. -/
theorem Token.reads_iff {t : Token} {rest : Text} :
    t.Reads rest ↔ (∀ c ∈ t.gap, Text.isGap c = true) ∧ LongestMatch t.kind t.text rest := by
  constructor
  · rintro ⟨hgap, c, s, htext, hc, hread⟩
    exact ⟨hgap, htext ▸ .of_lexeme hc hread⟩
  · rintro ⟨hgap, hmatch⟩
    obtain ⟨c, s, htext, hc⟩ := hmatch.exists_cons
    exact ⟨hgap, c, s, htext, hc, LongestMatch.lexeme_eq (htext ▸ hmatch)⟩

/-- Longest match takes a text apart into its tokens, and into nothing else. -/
theorem munched_iff {s : Text} {ts : List Token} : Munched s ts ↔ tokenize s = ts := by
  constructor
  · intro h
    induction h with
    | nil gap => exact tokenize_eq_nil_iff.2 gap
    | cons gap longest _ ih => rw [tokenize_written_append (reads_iff.2 ⟨gap, longest⟩), ih]
  · intro h
    induction ts generalizing s with
    | nil => exact .nil (tokenize_eq_nil_iff.1 h)
    | cons t ts ih =>
      obtain ⟨rest, rfl, ht, hrest⟩ := exists_of_tokenize_cons h
      obtain ⟨gap, longest⟩ := reads_iff.1 ht
      exact .cons gap longest (ih hrest)

namespace Token

theorem length_spans (offset : Nat) (ts : List Token) : (spans offset ts).length = ts.length := by
  induction ts generalizing offset with
  | nil => rfl
  | cons t ts ih => rw [spans, List.length_cons, ih, List.length_cons]

theorem map_fst_located (s : Text) : (located s).map Prod.fst = tokenize s := by
  rw [located, List.map_fst_zip]
  rw [length_spans]

theorem map_snd_located (s : Text) : (located s).map Prod.snd = spans 0 (tokenize s) := by
  rw [located, List.map_snd_zip]
  rw [length_spans]

/-- A token with its span, where it stands among the tokens and in the text. -/
theorem exists_of_located {s : Text} {before behind : List (Token × Span)} {p : Token × Span}
    (h : located s = before ++ p :: behind) : ∃ ts us rest,
      before.map Prod.fst = ts ∧ behind.map Prod.fst = us ∧ tokenize s = ts ++ p.1 :: us ∧
      s = render ts ++ p.1.gap ++ p.1.text ++ rest ∧ p.1.Reads rest ∧ tokenize rest = us ∧
      p.2.start = (render ts ++ p.1.gap).byteSize ∧
      p.2.stop = (render ts ++ p.1.gap ++ p.1.text).byteSize := by
  have htokens : tokenize s = before.map Prod.fst ++ p.1 :: behind.map Prod.fst := by
    rw [← List.map_cons, ← List.map_append, ← h, map_fst_located]
  have hspans : spans 0 (tokenize s) = before.map Prod.snd ++ p.2 :: behind.map Prod.snd := by
    rw [← List.map_cons, ← List.map_append, ← h, map_snd_located]
  obtain ⟨rest, hs, hreads, hrest⟩ := exists_reads_of_append htokens
  have hspan := getElem?_spans 0 (before.map Prod.fst) p.1 (behind.map Prod.fst)
  rw [← htokens, hspans, List.length_map, ← List.length_map (f := Prod.snd),
    List.getElem?_append_right (Nat.le_refl _), Nat.sub_self, List.getElem?_cons_zero,
    Option.some.injEq] at hspan
  refine ⟨_, _, rest, rfl, rfl, htokens, by simpa [written] using hs, hreads, hrest, ?_, ?_⟩ <;>
    simp [hspan, Nat.add_assoc]

/-- The spans of tokens lie one behind the other. -/
theorem pairwise_spans (offset : Nat) {ts : List Token} (h : ∀ t ∈ ts, t.text ≠ []) :
    (∀ span ∈ spans offset ts, offset ≤ span.start ∧ span.start < span.stop) ∧
      (spans offset ts).Pairwise fun x y => x.stop ≤ y.start := by
  induction ts generalizing offset with
  | nil => exact ⟨by simp [spans], .nil⟩
  | cons t ts ih =>
    obtain ⟨hne, hrest⟩ := List.forall_mem_cons.1 h
    obtain ⟨hspan, hpairwise⟩ := ih (offset + t.gap.byteSize + t.text.byteSize) hrest
    have hpos : t.text.byteSize ≠ 0 := by rwa [Ne, Text.byteSize_eq_zero_iff]
    rw [spans, List.forall_mem_cons, List.pairwise_cons]
    refine ⟨⟨⟨by simp, by simp only; omega⟩, fun span hspan' => ?_⟩, fun span hspan' => ?_,
      hpairwise⟩
    · have := hspan span hspan'
      omega
    · exact (hspan span hspan').1

/-- A character of a text stands in the first part of it or in the second. -/
theorem mem_or_of_append {x y before behind : Text} {c : Char}
    (h : x ++ y = before ++ c :: behind) :
    (∃ z, x = before ++ c :: z) ∨ ∃ z, before = x ++ z ∧ y = z ++ c :: behind := by
  rcases List.append_eq_append_iff.1 h with ⟨z, hz⟩ | ⟨z, rfl, hz⟩
  · exact .inr ⟨z, hz⟩
  · rcases List.cons_eq_append_iff.1 hz with ⟨rfl, hy⟩ | ⟨z', rfl, -⟩
    · exact .inr ⟨[], by simp, hy⟩
    · exact .inl ⟨z', rfl⟩

/-- What lies in no span is a blank. -/
theorem isGap_of_not_mem_spans {s : Text} {ts : List Token} (h : tokenize s = ts) (offset : Nat)
    {before behind : Text} {c : Char} (hs : s = before ++ c :: behind)
    (hout : ∀ span ∈ spans offset ts, ¬(span.start ≤ offset + before.byteSize ∧
      offset + before.byteSize < span.stop)) : Text.isGap c = true := by
  induction ts generalizing s offset before with
  | nil => exact tokenize_eq_nil_iff.1 h c (by simp [hs])
  | cons t ts ih =>
    obtain ⟨rest, rfl, ht, hrest⟩ := exists_of_tokenize_cons h
    rw [spans, List.forall_mem_cons] at hout
    rw [written, List.append_assoc] at hs
    rcases mem_or_of_append hs with ⟨z, hgap⟩ | ⟨before', rfl, htail⟩
    · exact ht.gap c (by simp [hgap])
    rcases mem_or_of_append htail with ⟨z, htext⟩ | ⟨before'', rfl, rfl⟩
    · refine absurd ⟨?_, ?_⟩ hout.1
      · simp
      · have := Text.utf8Size_ne_zero c
        simp only [htext, Text.byteSize_append, Text.byteSize_cons]
        omega
    · refine ih hrest (offset + t.gap.byteSize + t.text.byteSize) rfl fun span hspan => ?_
      have := hout.2 span hspan
      simpa [Nat.add_assoc] using this

/-- Before a character beyond ASCII no other token ends with such a character. -/
theorem Reads.getLast?_of_isWide {t : Token} {rest : Text} (h : t.Reads rest)
    (hrest : ∃ c ∈ rest.head?, isWide c = true) : ∀ c ∈ t.text.getLast?, isWide c = false := by
  obtain ⟨d, hd, hwide⟩ := hrest
  intro c hc
  by_cases hopen : t.kind = .unclosed
  · obtain ⟨q, s, -, hq, hquoted⟩ := h.of_unclosed hopen
    have hquote : q ≠ '\\' := by rcases hq with rfl | rfl <;> decide
    rw [eq_backslash_of_quotedLength hquote hquoted d hd] at hwide
    cases hwide
  have of_lt (hlt : c.toNat < 128) : isWide c = false := by simpa [isWide] using hlt
  have hmem := List.mem_of_mem_getLast? hc
  cases h.nil.shape hopen with
  | word c' s text start part kind =>
    refine of_lt (lt_of_isWordPart ?_)
    rw [text] at hmem
    rcases List.mem_cons.1 hmem with rfl | hmem
    · exact isWordPart_of_isWordStart start
    · exact part c hmem
  | number kind first part =>
    rcases part c hmem with hdigit | rfl
    · have := isDigit_iff.1 hdigit
      exact of_lt (by omega)
    · rfl
  | quoted kind quote isQuote first last =>
    obtain rfl : quote = c := by simpa [last] using hc
    rcases isQuote with rfl | rfl <;> rfl
  | symbol text =>
    have hall : ∀ k u, symbolText k = some u → ∀ x ∈ u, isWide x = false := by
      intro k u hu
      cases k <;> cases hu <;> decide
    exact hall _ _ text c hmem
  | wide kind part =>
    rw [h.head?_of_wide part d hd] at hwide
    cases hwide
  | single kind c' text wide =>
    obtain rfl : c' = c := by simpa [text] using hc
    exact wide

end Token

/-- Tokens at their spans take a text apart by longest match. A span has a slice only when it lies
in the text and starts and stops between characters. -/
structure MaximalMunch (s : Text) (ts : List (Token × Span)) : Prop where
  slice : ∀ p ∈ ts, s.slice? p.2.start p.2.stop = some p.1.text
  nonempty : ∀ p ∈ ts, p.2.start < p.2.stop
  ordered : ts.Pairwise fun p q => p.2.stop ≤ q.2.start
  skipped {before behind : Text} {c : Char} (text : s = before ++ c :: behind)
    (outside : ∀ p ∈ ts, ¬(p.2.start ≤ before.byteSize ∧ before.byteSize < p.2.stop)) :
    c ∈ [' ', '\t', '\r', '\n', '\x0c']
  longest : ∀ p ∈ ts, ∀ rest, s.dropBytes? p.2.stop = some rest →
    LongestMatch p.1.kind p.1.text rest
  word : ∀ p ∈ ts, p.1.text ∈ Pattern.word →
    (∀ w : Keyword, Text.eqIgnoreCase p.1.text w.spelling = true → p.1.kind = .keyword w) ∧
      ((∀ w : Keyword, Text.eqIgnoreCase p.1.text w.spelling = false) → p.1.kind = .identifier)
  wide : ∀ p ∈ ts, (∃ c ∈ p.1.text.head?, 128 ≤ c.toNat) →
    p.1.kind = .unknown ∧ (∀ c ∈ p.1.text, 128 ≤ c.toNat) ∧
      ∀ before rest, s.takeBytes? p.2.start = some before → s.dropBytes? p.2.stop = some rest →
        (∀ c ∈ before.getLast?, c.toNat < 128) ∧ ∀ c ∈ rest.head?, c.toNat < 128
  single : ∀ p ∈ ts, ∀ rest, s.dropBytes? p.2.start = some rest →
    (∀ u, u <+: rest → ∀ k : Kind, u ∉ k.pattern) →
      p.1.kind = .unknown ∧ ∃ c, p.1.text = [c] ∧ c.toNat < 128

namespace Token

/-- A token stands at its span, and what is before and behind it are the other two parts. -/
theorem exists_of_mem_located {s : Text} {p : Token × Span} (h : p ∈ located s) :
    ∃ before behind left rest, tokenize s = before ++ p.1 :: behind ∧
      left = render before ++ p.1.gap ∧ s = left ++ p.1.text ++ rest ∧ p.1.Reads rest ∧
      p.2.start = left.byteSize ∧ p.2.stop = (left ++ p.1.text).byteSize := by
  obtain ⟨xs, ys, hlocated⟩ := List.append_of_mem h
  obtain ⟨ts, us, rest, -, -, htok, hs, hreads, -, hstart, hstop⟩ := exists_of_located hlocated
  exact ⟨ts, us, _, rest, htok, rfl, hs, hreads, hstart, hstop⟩

variable {t : Token} {rest : Text}

/-- A token that is spelled as a word has the kind of the word. -/
theorem Reads.kind_of_mem_word (h : t.Reads rest) (hword : t.text ∈ Pattern.word) :
    t.kind = Kind.ofWord t.text := by
  obtain ⟨c, s, htext, -, hread⟩ := h.nil.text
  rw [htext] at hword ⊢
  rw [List.append_nil, lexeme_of_mem_word hword, Prod.mk.injEq] at hread
  exact hread.1.symm

/-- A token that starts beyond ASCII is one unknown run. -/
theorem Reads.of_isWide {c : Char} (h : t.Reads rest) (hc : c ∈ t.text.head?)
    (hwide : isWide c = true) : t.kind = .unknown ∧ ∀ d ∈ t.text, isWide d = true := by
  obtain ⟨d, s, htext, -, hread⟩ := h.nil.text
  obtain rfl : d = c := by simpa [htext] using hc
  rw [List.append_nil, lexeme_of_isWide hwide, Prod.mk.injEq] at hread
  rw [htext, List.forall_mem_cons]
  exact ⟨hread.1.symm, hwide, all_of_runLength_eq hread.2⟩

/-- A run of characters beyond ASCII starts where a token starts with one. -/
theorem getLast?_before_of_isWide {s : Text} {before behind : List Token}
    (h : tokenize s = before ++ t :: behind) {c : Char} (hc : c ∈ t.text.head?)
    (hwide : isWide c = true) : ∀ d ∈ (render before ++ t.gap).getLast?, isWide d = false := by
  refine getLast?_before h (P := fun d => isWide d = false) (fun d hd => ?_)
    fun hu => hu.getLast?_of_isWide ⟨c, List.mem_head?_append_of_mem_head? hc, hwide⟩
  rw [Bool.eq_false_iff]
  intro hd'
  rw [isGap_of_isWide hd'] at hd
  cases hd

end Token

/-- The tokens of every text take it apart by longest match, and nothing else does. -/
theorem maximalMunch_located (s : Text) : MaximalMunch s (located s) ∧
    ∀ ts, Munched s ts ↔ (located s).map Prod.fst = ts := by
  have hspans := @pairwise_spans 0 (tokenize s) fun t ht => by
    obtain ⟨c, u, htext, -⟩ := (reads_nil_of_mem ht).text
    simp [htext]
  rw [← map_snd_located, List.forall_mem_map, List.pairwise_map] at hspans
  refine ⟨?_, fun ts => by rw [map_fst_located, munched_iff]⟩
  constructor
  case nonempty => exact fun p hp => (hspans.1 p hp).2
  case ordered => exact hspans.2
  case slice =>
    intro p hp
    obtain ⟨_, _, left, rest, -, -, hs, -, hstart, hstop⟩ := exists_of_mem_located hp
    exact Text.slice?_eq_some_iff.2 ⟨left, rest, hs, hstart.symm, hstop.symm⟩
  case skipped =>
    intro before behind c hs hout
    rw [← List.forall_mem_map (f := Prod.snd)
      (P := fun q : Span => ¬(q.start ≤ before.byteSize ∧ before.byteSize < q.stop)),
      map_snd_located] at hout
    have hgap := isGap_of_not_mem_spans (s := s) rfl 0 hs (by simpa using hout)
    simpa [Text.isGap, or_assoc] using hgap
  case longest =>
    intro p hp rest hrest
    obtain ⟨_, _, left, rest', -, -, rfl, hreads, -, hstop⟩ := exists_of_mem_located hp
    rw [hstop, Text.dropBytes?_append, Option.some.injEq] at hrest
    exact hrest ▸ (reads_iff.1 hreads).2
  case word =>
    intro p hp hword
    obtain ⟨_, _, _, rest, -, -, -, hreads, -⟩ := exists_of_mem_located hp
    rw [hreads.kind_of_mem_word hword]
    exact ⟨fun w => Kind.ofWord_of_spells, Kind.ofWord_of_no_keyword⟩
  case wide =>
    rintro p hp ⟨c, hc, hwide⟩
    obtain ⟨before, _, left, rest, htok, rfl, rfl, hreads, hstart, hstop⟩ :=
      exists_of_mem_located hp
    obtain ⟨hkind, hall⟩ := hreads.of_isWide hc (by simpa [isWide] using hwide)
    refine ⟨hkind, by simpa [isWide] using hall, fun left' rest' hleft hrest => ?_⟩
    rw [hstart, List.append_assoc, Text.takeBytes?_append, Option.some.injEq] at hleft
    rw [hstop, Text.dropBytes?_append, Option.some.injEq] at hrest
    subst hleft hrest
    have hbefore := getLast?_before_of_isWide htok hc (by simpa [isWide] using hwide)
    exact ⟨by simpa [isWide] using hbefore, by simpa [isWide] using hreads.head?_of_wide hall⟩
  case single =>
    intro p hp rest hrest hnone
    obtain ⟨_, _, left, rest', -, -, rfl, hreads, hstart, -⟩ := exists_of_mem_located hp
    rw [hstart, List.append_assoc, Text.dropBytes?_append, Option.some.injEq] at hrest
    subst hrest
    exact (reads_iff.1 hreads).2.single hnone

end Soql
