import Soql.Proofs.Token.Level

/-!
# Tokens and the characters of a text

A token is made of characters of the text it is read from, so a text without a certain character
has no token that needs it. Texts without quotes are closed, texts without parentheses and commas
stay at one level, and in a text without blanks no two words stand side by side.
-/

namespace Soql

open Kind Token

/-- A token is written with characters of the text. -/
theorem mem_of_mem_tokenize {s : Text} {t : Token} (h : t ∈ tokenize s) :
    ∀ c ∈ t.written, c ∈ s := by
  obtain ⟨g, hs, -⟩ := exists_eq_render_append s
  intro c hc
  rw [hs, List.mem_append]
  exact .inl (List.mem_flatMap.2 ⟨t, h, hc⟩)

theorem mem_of_mem_text {s : Text} {t : Token} (h : t ∈ tokenize s) : ∀ c ∈ t.text, c ∈ s :=
  fun c hc => mem_of_mem_tokenize h c (List.mem_append_right _ hc)

theorem exists_reads_of_mem {s : Text} {t : Token} (h : t ∈ tokenize s) : ∃ rest, t.Reads rest := by
  obtain ⟨as, bs, htok⟩ := List.append_of_mem h
  obtain ⟨rest, -, hrest⟩ := exists_of_tokenize_append htok
  obtain ⟨r, -, ht, -⟩ := exists_of_tokenize_cons hrest
  exact ⟨r, ht⟩

/-- A text without quotes has no quoted text. -/
theorem not_quoted_of_mem {s : Text} (hs : '\'' ∉ s ∧ '"' ∉ s) {t : Token} (h : t ∈ tokenize s) :
    t.kind ≠ .quoted ∧ t.kind ≠ .unclosed := by
  obtain ⟨rest, hreads⟩ := exists_reads_of_mem h
  rw [← not_or]
  intro hk
  rcases hreads.head?_of_quoted hk with hhead | hhead
  · exact hs.1 (mem_of_mem_text h _ (List.mem_of_mem_head? hhead))
  · exact hs.2 (mem_of_mem_text h _ (List.mem_of_mem_head? hhead))

theorem closed_of_not_mem {s : Text} (hs : '\'' ∉ s ∧ '"' ∉ s) : Closed s :=
  hasUnclosed_eq_false_iff.2 fun _ h => (not_quoted_of_mem hs h).2

/-- The token of a symbol needs the first character of the symbol. -/
theorem mem_of_symbol {s : Text} {t : Token} (h : t ∈ tokenize s) {c : Char} {text : Text}
    (hk : symbolText t.kind = some (c :: text)) : c ∈ s := by
  exact mem_of_mem_text h c (by simp [text_of_mem_symbol h hk])

/-- A word needs a character that starts words. -/
theorem exists_isWordStart_of_mem {s : Text} {t : Token} (h : t ∈ tokenize s)
    (hk : t.kind.isWord = true) : ∃ c ∈ s, isWordStart c = true := by
  obtain ⟨c, hc, hstart⟩ := (reads_nil_of_mem h).head?_of_isWord hk
  exact ⟨c, mem_of_mem_text h c (List.mem_of_mem_head? hc), hstart⟩

/-- Not a parenthesis, a comma or a quoted text. -/
def Kind.isFlat (k : Kind) : Bool :=
  k != .openParen && k != .closeParen && k != .comma && k != .quoted && k != .unclosed

/-- The characters that make up groups, lists and quoted texts. -/
def flatExceptions : List Char :=
  ['(', ')', ',', '\'', '"']

/-- A text without quotes, commas and parentheses has tokens of no group and no list. -/
theorem isFlat_of_chars {s : Text} (hs : ∀ c ∈ s, c ∉ flatExceptions) :
    ∀ k ∈ kinds (tokenize s), k.isFlat = true := by
  intro k hk
  obtain ⟨t, ht, rfl⟩ := List.mem_map.1 hk
  have hnot : ∀ c ∈ flatExceptions, c ∉ s := fun c hc hmem => hs c hmem hc
  obtain ⟨hquoted, hopen⟩ := not_quoted_of_mem
    ⟨hnot '\'' (by simp [flatExceptions]), hnot '"' (by simp [flatExceptions])⟩ ht
  simp only [Kind.isFlat, Bool.and_eq_true, bne_iff_ne]
  refine ⟨⟨⟨⟨fun hkind => ?_, fun hkind => ?_⟩, fun hkind => ?_⟩, hquoted⟩, hopen⟩
  · exact hnot '(' (by simp [flatExceptions]) (mem_of_symbol ht (by rw [hkind]; rfl))
  · exact hnot ')' (by simp [flatExceptions]) (mem_of_symbol ht (by rw [hkind]; rfl))
  · exact hnot ',' (by simp [flatExceptions]) (mem_of_symbol ht (by rw [hkind]; rfl))

/-- A text without one of the characters of groups, lists and quoted texts is closed. -/
theorem closed_of_chars {s : Text} (h : ∀ c ∈ s, c ∉ flatExceptions) : Closed s :=
  closed_of_not_mem ⟨fun hc => h _ hc (by simp [flatExceptions]),
    fun hc => h _ hc (by simp [flatExceptions])⟩

/-- A text without blanks and without the characters of groups, lists and quoted texts. -/
theorem piece_of_chars {s : Text} (hblank : ∀ c ∈ s, Text.isBlank c = false)
    (h : ∀ c ∈ s, c ∉ flatExceptions) : Piece s :=
  ⟨⟨fun c hc => hblank c (List.mem_of_mem_head? hc),
    fun c hc => hblank c (List.mem_of_mem_getLast? hc)⟩, closed_of_chars h⟩

/-- No two words stand side by side where no gap is. -/
theorem gap_ne_nil_of_isWord {t u : Token} {ts : List Token} (h : Stretch (t :: u :: ts))
    (ht : t.kind.isWord = true) (hu : u.kind.isWord = true) : u.gap ≠ [] := by
  obtain ⟨rest, hrest, hreads, hnext⟩ := exists_of_tokenize_cons h.reads
  obtain ⟨rest', rfl, hu', -⟩ := exists_of_tokenize_cons hnext
  exact hreads.gap_ne_nil (hreads.head?_of_isWord ht) (hu'.head?_of_isWord hu)

end Soql
