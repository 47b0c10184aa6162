import Soql.Proofs.Token.Trim

/-!
# Pieces of a query

A stretch of closed tokens is read again from its own text, and so is every part of it. Parts are
kept as trimmed texts, and `trimmed` says what the tokens of such a text are. Conversely, texts are
put together: a `Piece` is a tight text without an open quote, and its tokens are there, one after
the other, in whatever text it is written into; only the gap before the first one differs.
-/

namespace Soql

namespace Token

/-- Closed tokens that are read again from their text. -/
structure Stretch (ts : List Token) : Prop where
  closed : hasUnclosed ts = false
  reads : tokenize (render ts) = ts

/-- The tokens of a text without an open quote are read by themselves. -/
theorem stretch_tokenize {s : Text} (h : hasUnclosed (tokenize s) = false) :
    Stretch (tokenize s) :=
  ⟨h, tokenize_render_of_append (List.append_nil _).symm⟩

theorem Stretch.left {ts us : List Token} (h : Stretch (ts ++ us)) : Stretch ts := by
  have hclosed := h.closed
  rw [hasUnclosed_append, Bool.or_eq_false_iff] at hclosed
  exact ⟨hclosed.1, tokenize_render_of_append h.reads⟩

theorem Stretch.right {ts us : List Token} (h : Stretch (ts ++ us)) : Stretch us := by
  have hclosed := h.closed
  rw [hasUnclosed_append, Bool.or_eq_false_iff] at hclosed
  obtain ⟨rest, hrest, htok⟩ := exists_of_tokenize_append h.reads
  rw [render_append, List.append_cancel_left_eq] at hrest
  exact ⟨hclosed.2, hrest ▸ htok⟩

theorem Stretch.take {ts : List Token} (h : Stretch ts) (n : Nat) : Stretch (ts.take n) :=
  Stretch.left (show Stretch (ts.take n ++ ts.drop n) by rwa [List.take_append_drop])

theorem Stretch.drop {ts : List Token} (h : Stretch ts) (n : Nat) : Stretch (ts.drop n) :=
  Stretch.right (show Stretch (ts.take n ++ ts.drop n) by rwa [List.take_append_drop])

/-- The tokens of a stretch have a shape, since none has an open quote. -/
theorem Stretch.shape {ts : List Token} (h : Stretch ts) {t : Token} (ht : t ∈ ts) : Shape t :=
  shape_of_mem (s := render ts) (by rwa [h.reads]) (hasUnclosed_eq_false_iff.1 h.closed t ht)

@[simp] theorem stretch_nil : Stretch [] :=
  ⟨rfl, tokenize_nil⟩

/-- Tokens with blanks before the first one. -/
def indent (g : Text) : List Token → List Token
  | [] => []
  | t :: ts => { t with gap := g ++ t.gap } :: ts

@[simp] theorem indent_nil (ts : List Token) : indent [] ts = ts := by
  cases ts <;> rfl

@[simp] theorem hasUnclosed_indent (g : Text) (ts : List Token) :
    hasUnclosed (indent g ts) = hasUnclosed ts := by
  cases ts <;> rfl

end Token

open Token

/-- A gap in front belongs to the first token. -/
theorem tokenize_gap_append {g : Text} (hg : ∀ c ∈ g, Text.isGap c = true) (s : Text) :
    tokenize (g ++ s) = indent g (tokenize s) := by
  cases hs : tokenize s with
  | nil =>
    refine tokenize_eq_nil_iff.2 fun c hc => ?_
    rcases List.mem_append.1 hc with hc | hc
    · exact hg c hc
    · exact tokenize_eq_nil_iff.1 hs c hc
  | cons t ts =>
    obtain ⟨rest, rfl, ht, hrest⟩ := exists_of_tokenize_cons hs
    have hgap : ∀ c ∈ g ++ t.gap, Text.isGap c = true := by
      intro c hc
      rcases List.mem_append.1 hc with hc | hc
      · exact hg c hc
      · exact ht.gap c hc
    have := tokenize_written_append (ht.with_gap hgap)
    simp only [written, List.append_assoc] at this ⊢
    rw [this, hrest]
    rfl

theorem tokenize_space_cons (s : Text) : tokenize (' ' :: s) = indent [' '] (tokenize s) :=
  tokenize_gap_append (g := [' ']) (by simp [Text.isGap]) s

namespace Token

/-- The tokens without the blanks at both ends. -/
def trimmed (ts : List Token) : List Token :=
  trimRight (trimLeft ts)

/-- Trimming at the start opens no quote. -/
theorem hasUnclosed_trimLeft {ts : List Token} (h : hasUnclosed ts = false) :
    hasUnclosed (trimLeft ts) = false := by
  induction ts with
  | nil => rfl
  | cons t ts ih =>
    rw [hasUnclosed_cons, Bool.or_eq_false_iff] at h
    rw [trimLeft]
    split
    · exact ih h.2
    · rw [hasUnclosed_cons, Bool.or_eq_false_iff]
      exact h

/-- Trimming at the end opens no quote. -/
theorem hasUnclosed_trimRight {ts : List Token} (h : hasUnclosed ts = false) :
    hasUnclosed (trimRight ts) = false := by
  induction ts with
  | nil => rfl
  | cons t ts ih =>
    rw [hasUnclosed_cons, Bool.or_eq_false_iff] at h
    rw [trimRight]
    split
    · split
      · rfl
      · rw [hasUnclosed_cons, Bool.or_eq_false_iff]
        exact ⟨h.1, rfl⟩
    · rw [hasUnclosed_cons, Bool.or_eq_false_iff]
      exact ⟨h.1, ih h.2⟩

/-- Trimming a text is trimming its tokens. -/
theorem tokenize_trim {s : Text} (h : hasUnclosed (tokenize s) = false) :
    tokenize s.trim = trimmed (tokenize s) := by
  rw [Text.trim, tokenize_trimEnd, tokenize_trimStart, trimmed]
  rw [tokenize_trimStart]
  exact hasUnclosed_trimLeft h

/-- The text of a stretch, trimmed, is read as its trimmed tokens. -/
theorem Stretch.tokenize_trim {ts : List Token} (h : Stretch ts) :
    tokenize (render ts).trim = trimmed ts := by
  rw [Token.tokenize_trim, h.reads]
  rw [h.reads]
  exact h.closed

theorem Stretch.hasUnclosed_trimmed {ts : List Token} (h : Stretch ts) :
    hasUnclosed (trimmed ts) = false :=
  hasUnclosed_trimRight (hasUnclosed_trimLeft h.closed)

/-- Trimmed tokens are read by themselves. -/
theorem Stretch.trimmed {ts : List Token} (h : Stretch ts) : Stretch (trimmed ts) := by
  rw [← h.tokenize_trim]
  apply stretch_tokenize
  rw [h.tokenize_trim]
  exact h.hasUnclosed_trimmed

/-- A tight text is what its tokens render to. -/
theorem render_tokenize {s : Text} (h : s.Tight) : render (tokenize s) = s := by
  obtain ⟨g, hs, hg⟩ := exists_eq_render_append s
  cases g with
  | nil => rw [List.append_nil] at hs; exact hs.symm
  | cons c g =>
    -- a gap at the end would be a blank there
    have hlast : (c :: g).getLast? = s.getLast? := by
      rw [hs, List.getLast?_append_of_ne_nil _ (by simp)]
    obtain ⟨x, hx⟩ := Option.isSome_iff_exists.1 (by simp : (c :: g).getLast?.isSome = true)
    have hblank := Text.isBlank_of_isGap (hg x (List.mem_of_getLast? hx))
    rw [h.last x (hlast ▸ hx)] at hblank
    cases hblank

/-- The first token of a tight text stands at its start. -/
theorem gap_of_tight {s : Text} (hs : s.Tight) {t : Token} {ts : List Token}
    (h : tokenize s = t :: ts) : t.gap = [] := by
  obtain ⟨rest, rfl, ht, -⟩ := exists_of_tokenize_cons h
  cases hgap : t.gap with
  | nil => rfl
  | cons c g =>
    have hblank := isBlank_of_gap ht c (by simp [hgap])
    rw [hs.first c (by simp [written, hgap])] at hblank
    cases hblank

end Token

/-- Every quoted text of a text is closed. -/
abbrev Closed (s : Text) : Prop :=
  hasUnclosed (tokenize s) = false

/-- A tight text in which every quoted text is closed. -/
structure Piece (s : Text) : Prop where
  tight : s.Tight
  closed : Closed s

namespace Piece

theorem stretch {s : Text} (h : Piece s) : Stretch (tokenize s) :=
  stretch_tokenize h.closed

/-- A piece is what its tokens are written as. -/
theorem render {s : Text} (h : Piece s) : Token.render (tokenize s) = s :=
  render_tokenize h.tight

/-- The text of a stretch is a piece, once it is trimmed. -/
theorem of_stretch {ts : List Token} (h : Stretch ts) : Piece (Token.render ts).trim :=
  ⟨Text.tight_trim _, by rw [Closed, h.tokenize_trim]; exact h.hasUnclosed_trimmed⟩

/-- A text without an open quote is a piece, once it is trimmed. -/
theorem of_trim {s : Text} (h : Closed s) : Piece s.trim :=
  ⟨Text.tight_trim s, by
    rw [Closed, tokenize_trim h]; exact (stretch_tokenize h).hasUnclosed_trimmed⟩

@[simp] theorem nil : Piece [] :=
  ⟨⟨by simp, by simp⟩, by rw [Closed, tokenize_nil]; rfl⟩

/-- A piece is read on its own when a text follows that no token goes on with. -/
theorem tokenize_append {x y : Text} (hx : Piece x) (hy : isBreak y = true) :
    tokenize (x ++ y) = tokenize x ++ tokenize y := by
  obtain ⟨g, hg, -, htok⟩ := Soql.tokenize_append hx.closed hy
  have hnil : g = [] := by
    have := hx.render
    rw [← this, hx.stretch.reads] at hg
    simpa using hg
  rw [htok, hnil, List.nil_append]

/-- A piece and another text with a blank between them are read one after the other. -/
theorem tokenize_space {x : Text} (hx : Piece x) (y : Text) :
    tokenize (x ++ ' ' :: y) = tokenize x ++ indent [' '] (tokenize y) := by
  rw [hx.tokenize_append (by rfl), tokenize_space_cons]

/-- Two pieces are one, if the second breaks off the first. -/
theorem append {x y : Text} (hx : Piece x) (hy : Piece y) (hne : x ≠ []) (hne' : y ≠ [])
    (hbreak : isBreak y = true) : Piece (x ++ y) :=
  ⟨hx.tight.append hy.tight hne hne', by
    rw [Closed, hx.tokenize_append hbreak, hasUnclosed_append, hx.closed, hy.closed]; rfl⟩

theorem tokenize_ne_nil {s : Text} (h : Piece s) (hne : s ≠ []) : tokenize s ≠ [] := by
  intro hnil
  apply hne
  rw [← h.render, hnil]
  rfl

end Piece

end Soql
