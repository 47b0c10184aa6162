import Soql.Proofs.Token.Place

/-!
# Text with open quotes in it

A quoted text that is left open runs up to the end or to a backslash before a line feed. In the
second case it is read in the same way whatever comes later, since the backslash and the line feed
settle it. So text behind a stretch of tokens is read on its own even when quotes are open in the
stretch, as long as the last token is neither an open quoted text nor a stray character.
-/

namespace Soql

/-- A token that neither blanks nor further text can change: it is not open and not unknown. -/
def Kind.isSettled (k : Kind) : Bool :=
  k != .unclosed && k != .unknown

theorem Kind.isSettled_of_isWord {k : Kind} (h : k.isWord = true) : k.isSettled = true := by
  cases k <;> first | rfl | cases h

namespace Token

/-- Where an open quoted text stops before two more characters, these settle it. -/
theorem quotedLength_append_of_open {quote : Char} (hquote : quote ≠ '\\') {s rest : Text}
    (h : quotedLength quote (s ++ rest) = (s.length, false)) (hlength : 2 ≤ rest.length) (y : Text) :
    quotedLength quote (s ++ (rest ++ y)) = (s.length, false) := by
  induction s using quoted_induction quote with
  | nil =>
    obtain ⟨c, e, rest, rfl⟩ : ∃ c e r, rest = c :: e :: r := by
      cases rest with
      | nil => simp at hlength
      | cons c rest =>
        cases rest with
        | nil => simp at hlength
        | cons e r => exact ⟨c, e, r, rfl⟩
    obtain rfl := eq_backslash_of_quotedLength (s := []) hquote h c rfl
    rw [List.nil_append, quotedLength] at h
    split at h
    · next he => simp [quotedLength, beq_iff_eq.1 he]
    · simp at h
  | lone s hs =>
    have hread := quotedLength_of_append hquote (congrArg Prod.fst h).le
    rw [h, quotedLength_lone hquote hs] at hread
    cases hread
  | close s =>
    rw [List.cons_append, quotedLength_close hquote] at h
    cases congrArg Prod.snd h
  | escape e s he ih =>
    exact (quotedLength_escape_eq_iff he).2 (ih ((quotedLength_escape_eq_iff he).1 h))
  | other c s hc hslash ih =>
    exact (quotedLength_other_eq_iff hc hslash).2 (ih ((quotedLength_other_eq_iff hc hslash).1 h))

/-- A token with two more characters behind it is read as before when text follows. -/
theorem Reads.append_of_two {t : Token} {rest y : Text} (h : t.Reads rest)
    (hlength : 2 ≤ rest.length) (hy : isBreak y = true) : t.Reads (rest ++ y) := by
  by_cases hk : t.kind = .unclosed
  · obtain ⟨q, s, htext, hq, hquoted⟩ := h.of_unclosed hk
    have hquote : q ≠ '\\' := by rcases hq with rfl | rfl <;> decide
    obtain ⟨gap, kind, text⟩ := t
    obtain rfl : text = q :: s := htext
    obtain rfl : kind = .unclosed := hk
    exact reads_unclosed h.gap hq (quotedLength_append_of_open hquote hquoted hlength y)
  · exact h.append hk hy

/-- A stray backslash is all that is left of a text whose open quote a single character settles. -/
theorem two_le_length_of_open {t : Token} {rest : Text} (h : t.Reads rest)
    (hk : t.kind = .unclosed) (hne : tokenize rest ≠ [])
    (hlast : ∀ u ∈ (tokenize rest).getLast?, u.kind.isSettled = true) : 2 ≤ rest.length := by
  obtain ⟨q, s, -, hq, hquoted⟩ := h.of_unclosed hk
  have hquote : q ≠ '\\' := by rcases hq with rfl | rfl <;> decide
  match rest with
  | [] => exact absurd tokenize_nil hne
  | [c] =>
    obtain rfl := eq_backslash_of_quotedLength hquote hquoted c rfl
    rw [tokenize_backslash, tokenize_nil] at hlast
    exact absurd (hlast _ rfl) (by decide)
  | c :: e :: rest => simp

/-- The text of a token whose kind is settled has no blanks at its ends. -/
theorem Reads.tight {t : Token} (h : t.Reads []) (hk : t.kind.isSettled = true) :
    t.text.Tight ∧ t.text ≠ [] := by
  simp only [Kind.isSettled, Bool.and_eq_true, bne_iff_ne] at hk
  obtain ⟨c, s, htext, -⟩ := h.text
  exact ⟨(h.shape hk.1).tight hk.2, by simp [htext]⟩

/-- Tokens with a settled one at both ends have no blanks at the ends of their text, but for the gap
before the first one. -/
theorem tight_render {t : Token} {ts : List Token} (h : ∀ u ∈ t :: ts, u.Reads [])
    (hfirst : t.kind.isSettled = true) (hlast : ∀ u ∈ (t :: ts).getLast?, u.kind.isSettled = true) :
    (t.text ++ render ts).Tight := by
  obtain ⟨htight, hne⟩ := (h t (by simp)).tight hfirst
  rcases List.eq_nil_or_concat ts with rfl | ⟨us, u, rfl⟩
  · rwa [render_nil, List.append_nil]
  · rw [List.concat_eq_append] at h hlast ⊢
    have hend : (t :: (us ++ [u])).getLast? = some u := by
      rw [← List.cons_append, List.getLast?_concat]
    obtain ⟨htight', hne'⟩ := (h u (by simp)).tight (hlast u hend)
    constructor
    · intro c hc
      rw [List.head?_append_of_ne_nil _ hne] at hc
      exact htight.first c hc
    · intro c hc
      rw [render_append, render_cons, render_nil, List.append_nil, written, ← List.append_assoc,
        ← List.append_assoc, List.getLast?_append_of_ne_nil _ hne'] at hc
      exact htight'.last c hc

end Token

open Token

/-- Text behind tokens that end in a settled one is read on its own. -/
theorem tokenize_render_append {ts : List Token} (h : tokenize (render ts) = ts)
    (hlast : ∀ t ∈ ts.getLast?, t.kind.isSettled = true) {y : Text} (hy : isBreak y = true) :
    tokenize (render ts ++ y) = ts ++ tokenize y := by
  induction ts with
  | nil => rfl
  | cons t ts ih =>
    obtain ⟨rest, hrest, ht, htok⟩ := exists_of_tokenize_cons h
    obtain rfl : render ts = rest := List.append_cancel_left hrest
    have hread : t.Reads (render ts ++ y) := by
      cases ts with
      | nil => exact ht.append (fun hk => by simpa [hk, Kind.isSettled] using hlast t rfl) hy
      | cons u us =>
        by_cases hk : t.kind = .unclosed
        · refine ht.append_of_two (two_le_length_of_open ht hk (by rw [htok]; simp) ?_) hy
          rw [htok]
          exact fun v hv => hlast v (by simpa [List.getLast?_cons_cons] using hv)
        · exact ht.append hk hy
    have hrec : tokenize (render ts ++ y) = ts ++ tokenize y := by
      refine ih htok fun u hu => hlast u ?_
      cases ts with
      | nil => cases hu
      | cons v vs => simpa [List.getLast?_cons_cons] using hu
    rw [render_cons, List.append_assoc, tokenize_written_append hread, hrec, List.cons_append]

end Soql
