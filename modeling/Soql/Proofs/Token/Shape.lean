import Soql.Proofs.Text.Trim
import Soql.Proofs.Token.Stretch

/-!
# The texts of tokens

What the text of a token looks like, given its kind: the characters of words and numbers, the
quotes of a quoted text, the one text of each symbol, and the two sorts of unknown tokens. Only an
unknown token can start or end with a blank, because its blanks are no gap between tokens.
-/

namespace Soql

namespace Keyword

/-- Keywords are told apart in any case. -/
theorem foldCase_spelling_injective {k l : Keyword}
    (h : Text.foldCase k.spelling = Text.foldCase l.spelling) : k = l := by
  have hall : ∀ k ∈ all, ∀ l ∈ all,
      Text.foldCase k.spelling = Text.foldCase l.spelling → k = l := by
    decide +kernel
  exact hall k (mem_all k) l (mem_all l) h

/-- A word is a keyword if it spells it in some case. -/
theorem ofWord?_eq_some_iff {word : Text} {k : Keyword} :
    ofWord? word = some k ↔ Text.eqIgnoreCase word k.spelling = true := by
  constructor
  · intro h
    have := List.find?_some h
    rw [Text.eqIgnoreCase_iff] at this ⊢
    exact this.symm
  · intro h
    rw [Text.eqIgnoreCase_iff] at h
    cases hfind : ofWord? word with
    | none =>
      have := List.find?_eq_none.1 hfind k (mem_all k)
      rw [Text.eqIgnoreCase_iff] at this
      exact absurd h.symm this
    | some l =>
      have := List.find?_some hfind
      rw [Text.eqIgnoreCase_iff, h] at this
      rw [foldCase_spelling_injective this]

end Keyword

namespace Kind

theorem ofWord_of_spells {word : Text} {k : Keyword}
    (h : Text.eqIgnoreCase word k.spelling = true) : ofWord word = .keyword k := by
  rw [ofWord, Keyword.ofWord?_eq_some_iff.2 h]

/-- A word that spells no keyword is an identifier. -/
theorem ofWord_of_no_keyword {word : Text}
    (h : ∀ k : Keyword, Text.eqIgnoreCase word k.spelling = false) : ofWord word = .identifier := by
  cases hword : Keyword.ofWord? word with
  | none => rw [ofWord, hword]
  | some k =>
    rw [Keyword.ofWord?_eq_some_iff, h k] at hword
    cases hword

end Kind

namespace Token

/-- The text of a symbol. -/
def symbolText : Kind → Option Text
  | .equal => some "=".toList
  | .bangEqual => some "!=".toList
  | .lessGreater => some "<>".toList
  | .less => some "<".toList
  | .lessEqual => some "<=".toList
  | .greater => some ">".toList
  | .greaterEqual => some ">=".toList
  | .plus => some "+".toList
  | .minus => some "-".toList
  | .star => some "*".toList
  | .openParen => some "(".toList
  | .closeParen => some ")".toList
  | .comma => some ",".toList
  | .dot => some ".".toList
  | .colon => some ":".toList
  | _ => none

theorem isWord_ofWord (word : Text) : (Kind.ofWord word).isWord = true := by
  unfold Kind.ofWord
  split <;> rfl

theorem symbolText_ofWord (word : Text) : symbolText (Kind.ofWord word) = none := by
  unfold Kind.ofWord
  split <;> rfl

/-- A single character is the text of its symbol, or unknown. -/
theorem symbolText_symbolKind {c : Char} :
    symbolKind c = .unknown ∨ symbolText (symbolKind c) = some [c] := by
  unfold symbolKind
  split <;> simp [symbolText]

/-- Two characters are the text of their operator. -/
theorem symbolText_pairKind? {c d : Char} {k : Kind} (h : pairKind? c d = some k) :
    symbolText k = some [c, d] := by
  unfold pairKind? at h
  split at h <;> cases h <;> rfl

/-- A symbol has neither letters nor blanks in it. -/
theorem of_mem_symbolText {k : Kind} {s : Text} (h : symbolText k = some s) :
    ∀ c ∈ s, isWordStart c = false ∧ Text.isBlank c = false := by
  cases k <;> cases h <;> decide

/-- What the text of a closed token looks like. -/
inductive Shape (t : Token) : Prop
  | word (c : Char) (s : Text) (text : t.text = c :: s) (start : isWordStart c = true)
      (part : ∀ x ∈ s, isWordPart x = true) (kind : t.kind = Kind.ofWord t.text)
  | number (kind : t.kind = .number) (first : ∀ c ∈ t.text.head?, c.isDigit = true)
      (part : ∀ c ∈ t.text, c.isDigit = true ∨ c = '.')
  | quoted (kind : t.kind = .quoted) (quote : Char) (isQuote : quote = '\'' ∨ quote = '"')
      (first : t.text.head? = some quote) (last : t.text.getLast? = some quote)
  | symbol (text : symbolText t.kind = some t.text)
  | wide (kind : t.kind = .unknown) (part : ∀ c ∈ t.text, isWide c = true)
  | single (kind : t.kind = .unknown) (c : Char) (text : t.text = [c]) (wide : isWide c = false)
      (word : isWordStart c = false) (digit : c.isDigit = false)
      (quote : (c == '\'' || c == '"') = false)

namespace Shape

variable {t : Token}

/-- Words are spelled with the characters of words, and their kind is that of their text. -/
theorem of_isWord (h : Shape t) (hk : t.kind.isWord = true) : ∃ c s, t.text = c :: s ∧
    isWordStart c = true ∧ (∀ x ∈ s, isWordPart x = true) ∧ t.kind = Kind.ofWord t.text := by
  cases h with
  | word c s text start part kind => exact ⟨c, s, text, start, part, kind⟩
  | number kind => simp [kind, Kind.isWord] at hk
  | quoted kind => simp [kind, Kind.isWord] at hk
  | symbol text => cases hkind : t.kind <;> simp_all [symbolText, Kind.isWord]
  | wide kind => simp [kind, Kind.isWord] at hk
  | single kind => simp [kind, Kind.isWord] at hk

theorem of_number (h : Shape t) (hk : t.kind = .number) :
    ∀ c ∈ t.text, c.isDigit = true ∨ c = '.' := by
  cases h with
  | word c s text start part kind =>
    have := isWord_ofWord t.text
    rw [← kind, hk] at this
    cases this
  | number kind first part => exact part
  | quoted kind => simp [hk] at kind
  | symbol text => simp [hk, symbolText] at text
  | wide kind => simp [hk] at kind
  | single kind => simp [hk] at kind

/-- A symbol is spelled in one way. -/
theorem text_of_symbol (h : Shape t) {s : Text} (hk : symbolText t.kind = some s) :
    t.text = s := by
  cases h with
  | word c u text start part kind =>
    rw [kind, symbolText_ofWord] at hk
    cases hk
  | number kind => rw [kind] at hk; cases hk
  | quoted kind => rw [kind] at hk; cases hk
  | symbol text =>
    rw [text, Option.some.injEq] at hk
    exact hk
  | wide kind => rw [kind] at hk; cases hk
  | single kind => rw [kind] at hk; cases hk

theorem of_quoted (h : Shape t) (hk : t.kind = .quoted) :
    ∃ q, (q = '\'' ∨ q = '"') ∧ t.text.head? = some q := by
  cases h with
  | word c s text start part kind =>
    have := isWord_ofWord t.text
    rw [← kind, hk] at this
    cases this
  | number kind => simp [hk] at kind
  | quoted kind quote isQuote first last => exact ⟨quote, isQuote, first⟩
  | symbol text => simp [hk, symbolText] at text
  | wide kind => simp [hk] at kind
  | single kind => simp [hk] at kind

end Shape

theorem all_of_runLength_eq {p : Char → Bool} {s : Text} (h : runLength p s = s.length) :
    ∀ c ∈ s, p c = true := by
  rw [← List.takeWhile_eq_self_iff]
  exact (List.takeWhile_prefix p).eq_of_length h

theorem part_of_numberLength_eq {s : Text} (h : numberLength s = s.length) :
    ∀ c ∈ s, c.isDigit = true ∨ c = '.' := by
  intro c hc
  have hsplit := List.takeWhile_append_dropWhile (p := Char.isDigit) (l := s)
  have hlength := congrArg List.length hsplit
  rw [List.length_append] at hlength
  rw [numberLength_eq, runLength] at h
  rw [← hsplit, List.mem_append] at hc
  rcases hc with hc | hc
  · exact .inl (List.mem_takeWhile_imp hc)
  · generalize s.dropWhile Char.isDigit = rest at h hc hlength
    have hrest : fractionLength rest = rest.length := by omega
    unfold fractionLength at hrest
    split at hrest
    · next fraction =>
      rcases List.mem_cons.1 hc with rfl | hc
      · exact .inr rfl
      · refine .inl (all_of_runLength_eq ?_ c hc)
        split at hrest
        · simp at hrest
        · simpa using hrest
    · rw [List.eq_nil_of_length_eq_zero hrest.symm] at hc
      simp at hc

/-- A quoted text that is closed ends with its quote. -/
theorem getLast?_of_quotedLength {quote : Char} (hquote : quote ≠ '\\') {s : Text}
    (h : quotedLength quote s = (s.length, true)) : s.getLast? = some quote := by
  induction s using quoted_induction quote with
  | nil => cases h
  | lone s hs =>
    rw [quotedLength_lone hquote hs] at h
    cases h
  | close s =>
    rw [quotedLength_close hquote, Prod.mk.injEq, List.length_cons] at h
    have hnil : s = [] := List.eq_nil_of_length_eq_zero (by omega)
    rw [hnil, List.getLast?_singleton]
  | escape e s he ih =>
    have := ih ((quotedLength_escape_eq_iff he).1 h)
    simp [List.getLast?_cons, this]
  | other c s hc hslash ih =>
    have := ih ((quotedLength_other_eq_iff hc hslash).1 h)
    simp [List.getLast?_cons, this]

/-- Every token but an unclosed quoted text has a shape. -/
theorem Reads.shape {t : Token} (h : t.Reads []) (hk : t.kind ≠ .unclosed) : Shape t := by
  obtain ⟨c, s, ht, hc, hlex⟩ := h.text
  rw [List.append_nil] at hlex
  cases start c with
  | word hword =>
    rw [lexeme_word s hword, Prod.mk.injEq] at hlex
    refine .word c s ht hword (all_of_runLength_eq hlex.2) ?_
    rw [ht, ← hlex.1, hlex.2, List.take_length]
  | digit hword hdigit =>
    rw [lexeme_digit s hword hdigit, Prod.mk.injEq] at hlex
    refine .number hlex.1.symm (by simpa [ht] using hdigit) ?_
    rw [ht]
    rintro x (_ | ⟨_, hx⟩)
    · exact .inl hdigit
    · exact part_of_numberLength_eq hlex.2 x hx
  | quote hword hdigit hquote =>
    rw [lexeme_quote s hword hdigit hquote, Prod.mk.injEq] at hlex
    have hclosed : (quotedLength c s).2 = true := by
      by_contra hopen
      exact hk (by simp [← hlex.1, hopen])
    have hlast := getLast?_of_quotedLength (ne_backslash_of_quote hquote) (s := s)
      (Prod.ext hlex.2 hclosed)
    refine .quoted ?_ c (by simpa using hquote) (by simp [ht]) ?_
    · rw [← hlex.1, if_pos hclosed]
    · simp [ht, List.getLast?_cons, hlast]
  | wide hword hdigit hquote hwide =>
    rw [lexeme_wide s hword hdigit hquote hwide, Prod.mk.injEq] at hlex
    refine .wide hlex.1.symm ?_
    rw [ht]
    rintro x (_ | ⟨_, hx⟩)
    · exact hwide
    · exact all_of_runLength_eq hlex.2 x hx
  | symbol hword hdigit hquote hwide =>
    rw [lexeme_symbol s hword hdigit hquote hwide] at hlex
    split at hlex
    · next k hpair =>
      rw [Prod.mk.injEq] at hlex
      obtain ⟨d, rfl⟩ := List.length_eq_one_iff.1 hlex.2.symm
      refine .symbol ?_
      rw [← hlex.1, ht]
      exact symbolText_pairKind? hpair
    · rw [Prod.mk.injEq] at hlex
      obtain rfl := List.eq_nil_of_length_eq_zero hlex.2.symm
      rcases symbolText_symbolKind (c := c) with hunknown | htext
      · exact .single (by rw [← hlex.1, hunknown]) c ht hwide hword hdigit hquote
      · exact .symbol (by rw [← hlex.1, ht, htext])

/-- Every token is read from its own text alone. -/
theorem reads_nil_of_mem {s : Text} {t : Token} (h : t ∈ tokenize s) : t.Reads [] := by
  obtain ⟨as, bs, htok⟩ := List.append_of_mem h
  obtain ⟨rest, -, hrest⟩ := exists_of_tokenize_append htok
  obtain ⟨r, -, ht, -⟩ := exists_of_tokenize_cons hrest
  exact ht.nil

/-- The tokens of a text have a shape, but for an open quote. -/
theorem shape_of_mem {s : Text} {t : Token} (h : t ∈ tokenize s) (hk : t.kind ≠ .unclosed) :
    Shape t :=
  (reads_nil_of_mem h).shape hk

theorem text_of_mem_symbol {s u : Text} {t : Token} (h : t ∈ tokenize s)
    (hk : symbolText t.kind = some u) : t.text = u := by
  have hclosed : t.kind ≠ .unclosed := by
    intro hopen
    rw [hopen] at hk
    cases hk
  exact (shape_of_mem h hclosed).text_of_symbol hk

end Token

end Soql
