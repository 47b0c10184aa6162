import Soql.Proofs.Token.Lexeme
import Soql.Token.Nesting

/-!
# Stretches of tokens

The tokens of a text with its blanks are the text again, up to blanks at its end. What is read
next depends only on the text that is left, so tokens behind a place are those of the text behind
it; and tokens before a place are those of the text before it. Cutting a query apart and reading a
part again therefore gives the same tokens; and as long as every quoted text is closed, texts that
are written one behind the other are read one behind the other.
-/

namespace Soql

namespace Token

/-- The token is what is read from its own text with `rest` behind it. -/
structure Reads (t : Token) (rest : Text) : Prop where
  gap : ∀ c ∈ t.gap, Text.isGap c = true
  text : ∃ c s, t.text = c :: s ∧ Text.isGap c = false ∧
    lexeme c (s ++ rest) = (t.kind, s.length)

/-- A token is read as before if what is added breaks off all tokens. -/
theorem Reads.append {t : Token} {rest y : Text} (h : t.Reads rest) (hk : t.kind ≠ .unclosed)
    (hy : isBreak y = true) : t.Reads (rest ++ y) := by
  refine ⟨h.gap, ?_⟩
  obtain ⟨c, s, ht, hc, hlex⟩ := h.text
  refine ⟨c, s, ht, hc, ?_⟩
  rw [← List.append_assoc, lexeme_append (by rw [hlex]; exact hk) hy, hlex]

theorem Reads.of_append {t : Token} {rest y : Text} (h : t.Reads (rest ++ y)) : t.Reads rest := by
  refine ⟨h.gap, ?_⟩
  obtain ⟨c, s, ht, hc, hlex⟩ := h.text
  refine ⟨c, s, ht, hc, ?_⟩
  rw [← List.append_assoc] at hlex
  rw [lexeme_of_append (y := y), hlex]
  rw [hlex]
  simp

/-- A token that is read before some text is read without it. -/
theorem Reads.nil {t : Token} {rest : Text} (h : t.Reads rest) : t.Reads [] :=
  Reads.of_append (show t.Reads ([] ++ rest) from h)

end Token

open Token

/-- Nothing is read of gaps only. -/
theorem tokenize_eq_nil_iff {s : Text} : tokenize s = [] ↔ ∀ c ∈ s, Text.isGap c = true := by
  rw [← List.dropWhile_eq_nil_iff, tokenize]
  split
  · next h => simp [h]
  · next c rest h => simp [h]

@[simp] theorem tokenize_nil : tokenize [] = [] :=
  tokenize_eq_nil_iff.2 (by simp)

/-- A token and its rest are read one after the other. -/
theorem tokenize_written_append {t : Token} {rest : Text} (h : t.Reads rest) :
    tokenize (t.written ++ rest) = t :: tokenize rest := by
  obtain ⟨c, s, ht, hc, hlex⟩ := h.text
  have htake : (t.written ++ rest).takeWhile Text.isGap = t.gap := by
    rw [written, ht, List.append_assoc, List.takeWhile_append_of_pos h.gap, List.cons_append,
      List.takeWhile_cons_of_neg (by simp [hc]), List.append_nil]
  have hdrop : (t.written ++ rest).dropWhile Text.isGap = c :: (s ++ rest) := by
    rw [written, ht, List.append_assoc, List.dropWhile_append_of_pos h.gap, List.cons_append,
      List.dropWhile_cons_of_neg (by simp [hc])]
  rw [tokenize]
  split
  · next hnil => simp [hdrop] at hnil
  · next d r hcons =>
    rw [hdrop, List.cons.injEq] at hcons
    obtain ⟨rfl, rfl⟩ := hcons
    simp only [hlex, htake, List.take_left, List.drop_left]
    rw [← ht]

/-- The first token of a text, and what is left. -/
theorem exists_of_tokenize_cons {s : Text} {t : Token} {ts : List Token}
    (h : tokenize s = t :: ts) : ∃ rest, s = t.written ++ rest ∧ t.Reads rest ∧ tokenize rest = ts := by
  rw [tokenize] at h
  split at h
  · simp at h
  · next c rest hdrop =>
    simp only [List.cons.injEq] at h
    obtain ⟨rfl, rfl⟩ := h
    refine ⟨rest.drop (lexeme c rest).2, ?_, ⟨?_, c, rest.take (lexeme c rest).2, rfl, ?_, ?_⟩, rfl⟩
    · rw [written, List.append_assoc, List.cons_append, List.take_append_drop, ← hdrop,
        List.takeWhile_append_dropWhile]
    · exact fun x hx => List.mem_takeWhile_imp hx
    · have := List.head?_dropWhile_not Text.isGap s
      simpa [hdrop] using this
    · rw [List.take_append_drop, List.length_take, Nat.min_eq_left (lexeme_le c rest)]

/-- Tokens with their blanks are the text, up to blanks at its end. -/
theorem exists_eq_render_append (s : Text) :
    ∃ g, s = render (tokenize s) ++ g ∧ ∀ c ∈ g, Text.isGap c = true := by
  generalize hts : tokenize s = ts
  induction ts generalizing s with
  | nil => exact ⟨s, rfl, tokenize_eq_nil_iff.1 hts⟩
  | cons t ts ih =>
    obtain ⟨rest, rfl, -, hrest⟩ := exists_of_tokenize_cons hts
    obtain ⟨g, hg, hgap⟩ := ih rest hrest
    exact ⟨g, by rw [render_cons, List.append_assoc, ← hg], hgap⟩

/-- The tokens behind a place are those of the text behind it. -/
theorem exists_of_tokenize_append {s : Text} {ts us : List Token} (h : tokenize s = ts ++ us) :
    ∃ rest, s = render ts ++ rest ∧ tokenize rest = us := by
  induction ts generalizing s with
  | nil => exact ⟨s, rfl, h⟩
  | cons t ts ih =>
    obtain ⟨r, rfl, -, hr⟩ := exists_of_tokenize_cons h
    obtain ⟨rest, rfl, hrest⟩ := ih hr
    exact ⟨rest, by rw [render_cons, List.append_assoc], hrest⟩

namespace Token

theorem hasUnclosed_eq_false_iff {ts : List Token} :
    hasUnclosed ts = false ↔ ∀ t ∈ ts, t.kind ≠ .unclosed := by
  simp [hasUnclosed]

@[simp] theorem hasUnclosed_append (ts us : List Token) :
    hasUnclosed (ts ++ us) = (hasUnclosed ts || hasUnclosed us) := by
  simp [hasUnclosed]

@[simp] theorem hasUnclosed_nil : hasUnclosed [] = false := rfl

@[simp] theorem hasUnclosed_cons (t : Token) (ts : List Token) :
    hasUnclosed (t :: ts) = (t.kind == .unclosed || hasUnclosed ts) := rfl

/-- A gap before a text that breaks off tokens does so too. -/
theorem isBreak_of_gap {g y : Text} (hg : ∀ c ∈ g, Text.isGap c = true) (hy : isBreak y = true) :
    isBreak (g ++ y) = true := by
  cases g with
  | nil => exact hy
  | cons c g =>
    have hc := hg c (by simp)
    simp only [Text.isGap, Bool.or_eq_true, beq_iff_eq] at hc
    rcases hc with (((rfl | rfl) | rfl) | rfl) | rfl <;> rfl

end Token

/-- Text behind closed tokens is read on its own, together with the blanks before it. -/
theorem tokenize_append {x y : Text} (hx : hasUnclosed (tokenize x) = false)
    (hy : isBreak y = true) : ∃ g, x = render (tokenize x) ++ g ∧ (∀ c ∈ g, Text.isGap c = true) ∧
      tokenize (x ++ y) = tokenize x ++ tokenize (g ++ y) := by
  generalize hts : tokenize x = ts at hx ⊢
  induction ts generalizing x with
  | nil => exact ⟨x, rfl, tokenize_eq_nil_iff.1 hts, rfl⟩
  | cons t ts ih =>
    obtain ⟨rest, rfl, ht, hrest⟩ := exists_of_tokenize_cons hts
    rw [hasUnclosed_cons, Bool.or_eq_false_iff] at hx
    obtain ⟨g, hg, hgap, htok⟩ := ih hrest hx.2
    refine ⟨g, by rw [render_cons, List.append_assoc, ← hg], hgap, ?_⟩
    rw [List.append_assoc, tokenize_written_append (ht.append (by simpa using hx.1) hy), htok,
      List.cons_append]

/-- The tokens before a place are those of the text before it, with some of the blanks there or
without them: a longest match is still one when the text behind it ends earlier. -/
theorem tokenize_render_gap {s g rest : Text} {ts us : List Token} (h : tokenize s = ts ++ us)
    (hs : s = render ts ++ (g ++ rest)) (hg : ∀ c ∈ g, Text.isGap c = true) :
    tokenize (render ts ++ g) = ts := by
  induction ts generalizing s with
  | nil => exact tokenize_eq_nil_iff.2 hg
  | cons t ts ih =>
    obtain ⟨r, rfl, ht, hr⟩ := exists_of_tokenize_cons h
    rw [render_cons, List.append_assoc] at hs
    obtain rfl := List.append_cancel_left hs
    rw [← List.append_assoc] at ht
    rw [render_cons, List.append_assoc, tokenize_written_append ht.of_append, ih hr rfl]

/-- The first tokens of a text are read of their own text. -/
theorem tokenize_render_of_append {s : Text} {ts us : List Token} (h : tokenize s = ts ++ us) :
    tokenize (render ts) = ts := by
  obtain ⟨rest, hs, -⟩ := exists_of_tokenize_append h
  have := tokenize_render_gap (g := []) h (by simpa using hs) (by simp)
  rwa [List.append_nil] at this

end Soql
