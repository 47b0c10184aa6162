import Soql.Proofs.Token.Shape

/-!
# Tokens of a trimmed text

Parts of a query are trimmed before they are read again. Trimming takes away more than the gaps
between tokens: a blank beyond those makes up an unknown token, or stands at the end of a run of
characters beyond ASCII. `trimLeft` and `trimRight` say what becomes of the tokens; the tokens that
are kept are the old ones, but for the text of an unknown token at either end and the gap at the
front (`trimmed_similar`).
-/

namespace Soql

namespace Token

theorem not_isBlank_of_isWordPart {c : Char} (h : isWordPart c = true) : Text.isBlank c = false := by
  by_contra hblank
  simp only [Bool.not_eq_false, Text.isBlank, Bool.or_eq_true, Bool.and_eq_true, decide_eq_true_eq,
    beq_iff_eq] at hblank
  rw [isWordPart_iff] at h
  omega

theorem not_isBlank_of_isDigit {c : Char} (h : c.isDigit = true) : Text.isBlank c = false :=
  not_isBlank_of_isWordPart (by simp [isWordPart, Char.isAlphanum, h])

theorem isWordPart_of_isWordStart {c : Char} (h : isWordStart c = true) : isWordPart c = true := by
  rw [isWordStart_iff] at h
  rw [isWordPart_iff]
  omega

/-- Only an unknown token starts or ends with a blank. -/
theorem Shape.tight {t : Token} (h : Shape t) (hk : t.kind ≠ .unknown) : t.text.Tight := by
  have of_all : (∀ c ∈ t.text, Text.isBlank c = false) → t.text.Tight := fun hall =>
    ⟨fun c hc => hall c (List.mem_of_mem_head? hc), fun c hc => hall c (List.mem_of_mem_getLast? hc)⟩
  cases h with
  | word c s text start part kind =>
    apply of_all
    rw [text]
    rintro x (_ | ⟨_, hx⟩)
    · exact not_isBlank_of_isWordPart (isWordPart_of_isWordStart start)
    · exact not_isBlank_of_isWordPart (part x hx)
  | number kind first part =>
    apply of_all
    intro c hc
    rcases part c hc with hdigit | rfl
    · exact not_isBlank_of_isDigit hdigit
    · rfl
  | quoted kind quote isQuote first last =>
    have hblank : Text.isBlank quote = false := by
      rcases isQuote with rfl | rfl <;> rfl
    constructor
    · intro c hc
      rw [first, Option.mem_some_iff] at hc
      exact hc ▸ hblank
    · intro c hc
      rw [last, Option.mem_some_iff] at hc
      exact hc ▸ hblank
  | symbol text => exact of_all fun c hc => (of_mem_symbolText text c hc).2
  | wide kind => exact absurd kind hk
  | single kind => exact absurd kind hk

/-- The two sorts of unknown tokens. -/
theorem Shape.of_unknown {t : Token} (h : Shape t) (hk : t.kind = .unknown) :
    (∀ c ∈ t.text, isWide c = true) ∨ ∃ c, t.text = [c] ∧ isWide c = false := by
  cases h with
  | word c s text start part kind =>
    have := isWord_ofWord t.text
    rw [← kind, hk] at this
    cases this
  | number kind => simp [hk] at kind
  | quoted kind => simp [hk] at kind
  | symbol text => simp [hk, symbolText] at text
  | wide kind part => exact .inl part
  | single kind c text wide => exact .inr ⟨c, text, wide⟩

theorem Reads.with_gap {t : Token} {rest g : Text} (h : t.Reads rest)
    (hg : ∀ c ∈ g, Text.isGap c = true) : { t with gap := g }.Reads rest :=
  ⟨hg, h.text⟩

theorem symbolKind_ne_unclosed (c : Char) : symbolKind c ≠ .unclosed ∧ symbolKind c ≠ .quoted := by
  unfold symbolKind
  split <;> simp

theorem pairKind?_ne_unclosed (c d : Char) :
    pairKind? c d ≠ some .unclosed ∧ pairKind? c d ≠ some .quoted := by
  unfold pairKind?
  split <;> simp

/-- Only a quote starts a quoted text. -/
theorem isQuote_of_lexeme {c : Char} {s : Text}
    (h : (lexeme c s).1 = .quoted ∨ (lexeme c s).1 = .unclosed) :
    c = '\'' ∨ c = '"' := by
  by_contra hc
  have hquote : (c == '\'' || c == '"') = false := by simpa using hc
  cases start c with
  | word hword =>
    have := isWord_ofWord (c :: s.take (runLength isWordPart s))
    simp only [lexeme_word s hword] at h
    rcases h with h | h <;> (rw [h] at this; cases this)
  | digit hword hdigit =>
    rw [lexeme_digit s hword hdigit] at h
    rcases h with h | h <;> cases h
  | quote hword hdigit h' =>
    rw [hquote] at h'
    cases h'
  | wide hword hdigit _ hwide =>
    rw [lexeme_wide s hword hdigit hquote hwide] at h
    rcases h with h | h <;> cases h
  | symbol hword hdigit _ hwide =>
    rw [lexeme_symbol s hword hdigit hquote hwide] at h
    split at h
    · next k hpair =>
      obtain ⟨d, -, hd⟩ := Option.bind_eq_some_iff.1 hpair
      have := pairKind?_ne_unclosed c d
      rw [hd] at this
      rcases h with h | h
      · exact this.2 (congrArg some h)
      · exact this.1 (congrArg some h)
    · have := symbolKind_ne_unclosed c
      rcases h with h | h
      · exact this.2 h
      · exact this.1 h

/-- Quoted texts, closed or not, start with a quote. -/
theorem Reads.head?_of_quoted {t : Token} {rest : Text} (h : t.Reads rest)
    (hk : t.kind = .quoted ∨ t.kind = .unclosed) :
    t.text.head? = some '\'' ∨ t.text.head? = some '"' := by
  obtain ⟨c, s, ht, -, hlex⟩ := h.text
  rw [ht]
  have := isQuote_of_lexeme (c := c) (s := s ++ rest) (by rw [hlex]; exact hk)
  simpa using this

/-- An open quoted text starts with its quote and goes up to a line feed or to the end. -/
theorem Reads.of_unclosed {t : Token} {rest : Text} (h : t.Reads rest) (hk : t.kind = .unclosed) :
    ∃ q s, t.text = q :: s ∧ (q = '\'' ∨ q = '"') ∧
      quotedLength q (s ++ rest) = (s.length, false) := by
  obtain ⟨q, s, htext, -, hlex⟩ := h.text
  have hquote : q = '\'' ∨ q = '"' := isQuote_of_lexeme (s := s ++ rest) (.inr (by rw [hlex, hk]))
  refine ⟨q, s, htext, hquote, ?_⟩
  have hq : isWordStart q = false ∧ q.isDigit = false := by
    rcases hquote with rfl | rfl <;> decide
  rw [lexeme_quote _ hq.1 hq.2 (by simpa using hquote), hk, Prod.mk.injEq] at hlex
  refine Prod.ext hlex.2 ?_
  by_contra hclosed
  rw [if_pos (by simpa using hclosed)] at hlex
  cases hlex.1

theorem lt_of_isWordPart {c : Char} (h : isWordPart c = true) : c.toNat < 128 := by
  rw [isWordPart_iff] at h
  omega

/-- A character beyond ASCII starts an unknown token. -/
theorem lexeme_of_isWide {c : Char} (h : isWide c = true) (s : Text) :
    lexeme c s = (.unknown, runLength isWide s) := by
  have hle : 128 ≤ c.toNat := by simpa [isWide] using h
  have hpart : isWordPart c = false := by
    by_contra hpart
    have := lt_of_isWordPart (by simpa using hpart)
    omega
  have hword : isWordStart c = false := by
    by_contra hword
    rw [isWordPart_of_isWordStart (by simpa using hword)] at hpart
    simp at hpart
  have hdigit : c.isDigit = false := by
    simp only [isWordPart, Char.isAlphanum, Bool.or_eq_false_iff] at hpart
    exact hpart.1.2
  refine lexeme_wide s hword hdigit ?_ h
  rw [Bool.or_eq_false_iff, beq_eq_false_iff_ne, beq_eq_false_iff_ne]
  constructor <;> (rintro rfl; revert hle; decide)

theorem isGap_of_isWide {c : Char} (h : isWide c = true) : Text.isGap c = false := by
  by_contra hgap
  simp only [Bool.not_eq_false, Text.isGap, Bool.or_eq_true, beq_iff_eq] at hgap
  rcases hgap with (((rfl | rfl) | rfl) | rfl) | rfl <;> exact absurd h (by decide)

/-- A run ends at the end of a text if it is not continued behind it. -/
theorem runLength_eq_iff {p : Char → Bool} {s rest : Text} (hs : ∀ c ∈ s, p c = true) :
    runLength p (s ++ rest) = s.length ↔ ∀ c ∈ rest.head?, p c = false := by
  rw [runLength, List.takeWhile_append_of_pos hs, List.length_append]
  cases rest with
  | nil => simp
  | cons d rest =>
    by_cases hd : p d = true
    · simp [hd]
    · simp [hd]

/-- A run of characters beyond ASCII may be cut short at both ends. -/
theorem reads_wide {g text rest : Text} (hg : ∀ c ∈ g, Text.isGap c = true) (hne : text ≠ [])
    (hwide : ∀ c ∈ text, isWide c = true) (hrest : ∀ c ∈ rest.head?, isWide c = false) :
    Token.Reads ⟨g, .unknown, text⟩ rest := by
  obtain ⟨c, s, rfl⟩ := List.exists_cons_of_ne_nil hne
  refine ⟨hg, c, s, rfl, isGap_of_isWide (hwide c (by simp)), ?_⟩
  rw [lexeme_of_isWide (hwide c (by simp)),
    (runLength_eq_iff fun d hd => hwide d (by simp [hd])).2 hrest]

/-- A run of characters beyond ASCII is followed by an ASCII character. -/
theorem Reads.head?_of_wide {t : Token} {rest : Text} (h : t.Reads rest)
    (hwide : ∀ c ∈ t.text, isWide c = true) : ∀ c ∈ rest.head?, isWide c = false := by
  obtain ⟨c, s, ht, -, hlex⟩ := h.text
  rw [ht] at hwide
  rw [lexeme_of_isWide (hwide c (by simp)), Prod.mk.injEq] at hlex
  exact (runLength_eq_iff fun d hd => hwide d (by simp [hd])).1 hlex.2

/-- A word takes every character that can go on with it. -/
theorem Reads.head?_of_isWordStart {t : Token} {rest : Text} (h : t.Reads rest)
    (ht : ∃ c ∈ t.text.head?, isWordStart c = true) : ∀ c ∈ rest.head?, isWordPart c = false := by
  obtain ⟨c, s, htext, -, hlex⟩ := h.text
  obtain ⟨d, hd, hstart⟩ := ht
  obtain rfl : c = d := by simpa [htext] using hd
  rw [lexeme_word _ hstart, Prod.mk.injEq] at hlex
  have htake : runLength isWordPart s = s.length := by
    rw [runLength_of_append (y := rest) hlex.2.le, hlex.2]
  exact (runLength_eq_iff (all_of_runLength_eq htake)).1 hlex.2

/-- A word starts with a letter or an underscore. -/
theorem Reads.head?_of_isWord {t : Token} {rest : Text} (h : t.Reads rest)
    (hk : t.kind.isWord = true) : ∃ c ∈ t.text.head?, isWordStart c = true := by
  have hopen : t.kind ≠ .unclosed := by
    intro hopen
    rw [hopen] at hk
    cases hk
  obtain ⟨c, s, htext, hstart, -⟩ := (h.nil.shape hopen).of_isWord hk
  exact ⟨c, by simp [htext], hstart⟩

/-- Two words do not stand side by side. -/
theorem Reads.gap_ne_nil {t u : Token} {rest : Text} (h : t.Reads (u.written ++ rest))
    (ht : ∃ c ∈ t.text.head?, isWordStart c = true)
    (hu : ∃ c ∈ u.text.head?, isWordStart c = true) : u.gap ≠ [] := by
  intro hgap
  obtain ⟨c, hc, hstart⟩ := hu
  obtain ⟨s, hs⟩ := List.head?_eq_some_iff.1 hc
  have hpart := h.head?_of_isWordStart ht c (by simp [written, hgap, hs])
  rw [isWordPart_of_isWordStart hstart] at hpart
  cases hpart

/-- Tokens without the blanks at their start. -/
def trimLeft : List Token → List Token
  | [] => []
  | t :: ts =>
    if (Text.trimStart t.text).isEmpty then trimLeft ts
    else { t with gap := [], text := Text.trimStart t.text } :: ts

/-- Tokens without the blanks at their end. -/
def trimRight : List Token → List Token
  | [] => []
  | t :: ts =>
    if (trimRight ts).isEmpty then
      if (Text.trimEnd t.text).isEmpty then []
      else [{ t with text := Text.trimEnd t.text }]
    else t :: trimRight ts

/-- A token that is one character is trimmed as a whole. -/
theorem isBlank_of_trim_ne_nil {text : Text} {c : Char} (htext : text = [c])
    (hne : Text.trimStart text ≠ [] ∨ Text.trimEnd text ≠ []) : Text.isBlank c = false := by
  by_contra hblank
  have hall : ∀ x ∈ text, Text.isBlank x = true := by simpa [htext] using hblank
  rcases hne with hne | hne
  · exact hne (Text.trimStart_eq_nil_iff.2 hall)
  · exact hne (Text.trimEnd_eq_nil_iff.2 hall)

/-- What is left of a token without the blanks at its start is read as before. -/
theorem Reads.trimStart {t : Token} {rest : Text} (h : t.Reads rest)
    (hne : Text.trimStart t.text ≠ []) :
    Token.Reads { t with gap := [], text := Text.trimStart t.text } rest := by
  by_cases hk : t.kind = .unclosed
  · obtain ⟨q, s, htext, hquote, -⟩ := h.of_unclosed hk
    rw [Text.trimStart_eq_self (by rcases hquote with rfl | rfl <;> simp [htext] <;> decide)]
    exact h.with_gap (by simp)
  have hshape := h.nil.shape hk
  by_cases hunknown : t.kind = .unknown
  · rcases hshape.of_unknown hunknown with hwide | ⟨c, htext, -⟩
    · obtain ⟨g, ht, -⟩ := Text.exists_eq_append_trimStart t.text
      rw [hunknown]
      refine reads_wide (by simp) hne (fun c hc => hwide c ?_) (h.head?_of_wide hwide)
      rw [ht]
      exact List.mem_append_right _ hc
    · have hblank := isBlank_of_trim_ne_nil htext (.inl hne)
      rw [Text.trimStart_eq_self (by simpa [htext] using hblank)]
      exact h.with_gap (by simp)
  · rw [Text.trimStart_eq_self (hshape.tight hunknown).first]
    exact h.with_gap (by simp)

/-- What is left of a token without the blanks at its end is read at the end of a text. -/
theorem Reads.trimEnd {t : Token} {rest : Text} (h : t.Reads rest) (hk : t.kind ≠ .unclosed)
    (hne : Text.trimEnd t.text ≠ []) :
    Token.Reads { t with text := Text.trimEnd t.text } [] := by
  have hshape := h.nil.shape hk
  by_cases hunknown : t.kind = .unknown
  · rcases hshape.of_unknown hunknown with hwide | ⟨c, htext, -⟩
    · obtain ⟨g, ht, -⟩ := Text.exists_eq_trimEnd_append t.text
      rw [hunknown]
      refine reads_wide h.gap hne (fun c hc => hwide c ?_) (by simp)
      rw [ht]
      exact List.mem_append_left _ hc
    · have hblank := isBlank_of_trim_ne_nil htext (.inr hne)
      rw [Text.trimEnd_eq_self (by simpa [htext] using hblank)]
      exact h.nil
  · rw [Text.trimEnd_eq_self (hshape.tight hunknown).last]
    exact h.nil

theorem isBlank_of_gap {t : Token} {rest : Text} (h : t.Reads rest) :
    ∀ c ∈ t.gap, Text.isBlank c = true :=
  fun c hc => Text.isBlank_of_isGap (h.gap c hc)

end Token

open Token

/-- Trimming the start of a text is trimming its tokens from the left. -/
theorem tokenize_trimStart (s : Text) :
    tokenize (Text.trimStart s) = trimLeft (tokenize s) := by
  generalize hts : tokenize s = ts
  induction ts generalizing s with
  | nil =>
    have hblank : ∀ c ∈ s, Text.isBlank c = true := fun c hc =>
      Text.isBlank_of_isGap (tokenize_eq_nil_iff.1 hts c hc)
    rw [Text.trimStart_eq_nil_iff.2 hblank]
    exact tokenize_nil
  | cons t ts ih =>
    obtain ⟨rest, rfl, ht, hrest⟩ := exists_of_tokenize_cons hts
    rw [written, List.append_assoc, Text.trimStart_append_of_blank (isBlank_of_gap ht), trimLeft]
    by_cases hne : Text.trimStart t.text = []
    · rw [Text.trimStart_append_of_blank (Text.trimStart_eq_nil_iff.1 hne), hne]
      exact ih rest hrest
    · rw [Text.trimStart_append_of_not_blank hne, if_neg (by simpa using hne)]
      have := tokenize_written_append (ht.trimStart hne)
      simp only [written, List.nil_append] at this
      rw [this, hrest]

/-- Trimming the end of a text is trimming its tokens from the right. -/
theorem tokenize_trimEnd {s : Text} (h : hasUnclosed (tokenize s) = false) :
    tokenize (Text.trimEnd s) = trimRight (tokenize s) := by
  generalize hts : tokenize s = ts at h ⊢
  induction ts generalizing s with
  | nil =>
    have hblank : ∀ c ∈ s, Text.isBlank c = true := fun c hc =>
      Text.isBlank_of_isGap (tokenize_eq_nil_iff.1 hts c hc)
    rw [Text.trimEnd_eq_nil_iff.2 hblank]
    exact tokenize_nil
  | cons t ts ih =>
    obtain ⟨rest, rfl, ht, hrest⟩ := exists_of_tokenize_cons hts
    rw [hasUnclosed_cons, Bool.or_eq_false_iff] at h
    have hk : t.kind ≠ .unclosed := by simpa using h.1
    rw [trimRight, ← ih hrest h.2]
    by_cases hnil : Text.trimEnd rest = []
    · rw [Text.trimEnd_append_of_blank _ (Text.trimEnd_eq_nil_iff.1 hnil), hnil, tokenize_nil,
        if_pos List.isEmpty_nil]
      by_cases hne : Text.trimEnd t.text = []
      · have hblank : ∀ c ∈ t.written, Text.isBlank c = true := by
          intro c hc
          rcases List.mem_append.1 hc with hc | hc
          · exact isBlank_of_gap ht c hc
          · exact Text.trimEnd_eq_nil_iff.1 hne c hc
        rw [Text.trimEnd_eq_nil_iff.2 hblank, hne]
        exact tokenize_nil
      · rw [written, Text.trimEnd_append_of_not_blank _ hne, if_neg (by simpa using hne)]
        have := tokenize_written_append (ht.trimEnd hk hne)
        rwa [List.append_nil, tokenize_nil] at this
    · obtain ⟨g, hg, hblank⟩ := Text.exists_eq_trimEnd_append rest
      have hkeep : t.Reads (Text.trimEnd rest) := Reads.of_append (y := g) (hg ▸ ht)
      have hne : tokenize (Text.trimEnd rest) ≠ [] := by
        intro hempty
        refine hnil (Text.trimEnd_eq_nil_iff.2 fun c hc => ?_)
        rw [hg, List.mem_append] at hc
        rcases hc with hc | hc
        · exact Text.isBlank_of_isGap (tokenize_eq_nil_iff.1 hempty c hc)
        · exact hblank c hc
      rw [Text.trimEnd_append_of_not_blank _ hnil, tokenize_written_append hkeep,
        if_neg (by simpa using hne)]

end Soql
