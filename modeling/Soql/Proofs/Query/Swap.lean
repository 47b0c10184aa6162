import Soql.Proofs.Query.Similar

/-!
# The contents of quoted texts

A quoted text is one token, whatever stands between its quotes. Putting another quoted text in its
place changes neither the tokens around it nor where the query is cut: every text of the query is
as before, or has the new quoted text in the place of the old one.
-/

namespace Soql

open Token List

namespace Token

/-- A closed quoted text is read as such whatever follows it. -/
theorem Reads.of_quoted {t : Token} (h : t.Reads []) (hk : t.kind = .quoted) (rest : Text) :
    t.Reads rest := by
  refine ⟨h.gap, ?_⟩
  obtain ⟨c, s, ht, hc, hlex⟩ := h.text
  refine ⟨c, s, ht, hc, ?_⟩
  rw [List.append_nil, hk] at hlex
  rw [hk]
  obtain ⟨q, hq, hhead⟩ := (h.shape (by simp [hk])).of_quoted hk
  obtain rfl : c = q := by simpa [ht] using hhead
  have hquote : (c == '\'' || c == '"') = true := by simpa using hq
  have hword : isWordStart c = false := by rcases hq with rfl | rfl <;> decide
  have hdigit : c.isDigit = false := by rcases hq with rfl | rfl <;> decide
  rw [lexeme_quote _ hword hdigit hquote] at hlex ⊢
  have hclosed : (quotedLength c s).2 = true := by
    by_contra hopen
    simp [hopen] at hlex
  rwa [quotedLength_append (ne_backslash_of_quote hquote) hclosed]

/-- A quote breaks off the token before it. -/
theorem isBreak_of_quote {q : Char} (hq : q = '\'' ∨ q = '"') (s : Text) :
    isBreak (q :: s) = true := by
  rcases hq with rfl | rfl <;> rfl

end Token

/-- The tokens around a quoted text are the same with another one in its place. -/
theorem tokenize_swap {a l b l' g : Text} {before after : List Token}
    (hclosed : hasUnclosed (tokenize (a ++ l ++ b)) = false)
    (hl : tokenize (a ++ l ++ b) = before ++ ⟨g, .quoted, l⟩ :: after) (ha : a = render before ++ g)
    (hl' : tokenize l' = [⟨[], .quoted, l'⟩]) :
    tokenize (a ++ l' ++ b) = before ++ ⟨g, .quoted, l'⟩ :: after := by
  have hstretch := stretch_tokenize hclosed
  rw [hl] at hstretch
  obtain ⟨r, hr, hreads⟩ := exists_of_tokenize_append hl
  obtain ⟨r', hr', hgap, hb⟩ := exists_of_tokenize_cons hreads
  have hrest : r' = b := by
    rw [hr', ha] at hr
    simpa [written, List.append_assoc] using hr.symm
  have hquoted : Token.Reads ⟨[], .quoted, l'⟩ [] := reads_nil_of_mem (s := l') (by simp [hl'])
  have hhere : tokenize (g ++ l' ++ b) = ⟨g, .quoted, l'⟩ :: after := by
    have := tokenize_written_append ((hquoted.of_quoted rfl b).with_gap hgap.gap)
    rw [hrest] at hb
    rwa [hb] at this
  have hbreak : isBreak (g ++ l' ++ b) = true := by
    obtain ⟨q, hq, hhead⟩ := (hquoted.shape (by simp)).of_quoted rfl
    obtain ⟨s, rfl⟩ := List.head?_eq_some_iff.1 hhead
    rw [List.append_assoc]
    exact isBreak_of_gap hgap.gap (isBreak_of_quote hq _)
  have hbefore := hstretch.left
  obtain ⟨g', hg', -, htok⟩ := tokenize_append (x := render before) (by
    rw [hbefore.reads]; exact hbefore.closed) hbreak
  rw [hbefore.reads] at hg' htok
  have hnil : g' = [] := by simpa using hg'
  rw [hnil, List.nil_append, hhere] at htok
  rw [ha, ← htok]
  simp only [List.append_assoc]

/-- The text is the same, or has `l'` for the `l` that stands between `a` and `b`. -/
def Swapped (a l l' b s s' : Text) : Prop :=
  s = s' ∨ ∃ x y, x <:+ a ∧ y <+: b ∧ s = x ++ l ++ y ∧ s' = x ++ l' ++ y

/-- The tokens are the same, or have `l'` for the `l` that stands between `a` and `b`. -/
inductive TokensSwapped (a l l' b : Text) : List Token → List Token → Prop
  | same (ts : List Token) : TokensSwapped a l l' b ts ts
  | swap (before : List Token) (g : Text) (after : List Token)
      (left : render before ++ g <:+ a) (right : render after <+: b) :
      TokensSwapped a l l' b (before ++ ⟨g, .quoted, l⟩ :: after)
        (before ++ ⟨g, .quoted, l'⟩ :: after)

namespace TokensSwapped

variable {a l l' b : Text} {ts us : List Token}

/-- Swapping a literal keeps the tokens alike. -/
theorem alike (h : TokensSwapped a l l' b ts us) : Forall₂ Alike ts us := by
  have hsame : ∀ vs : List Token, Forall₂ Alike vs vs := fun vs =>
    forall₂_same.2 fun v _ => ⟨rfl, fun _ => by simp [Text.eqIgnoreCase]⟩
  cases h with
  | same => exact hsame ts
  | swap before g after =>
    exact rel_append (hsame before) (.cons ⟨rfl, fun hk => absurd rfl hk⟩ (hsame after))

theorem take (h : TokensSwapped a l l' b ts us) (n : Nat) :
    TokensSwapped a l l' b (ts.take n) (us.take n) := by
  cases h with
  | same => exact .same _
  | swap before g after left right =>
    rw [List.take_append, List.take_append]
    cases hn : n - before.length with
    | zero => simpa using .same _
    | succ m =>
      have hbefore : before.take n = before := List.take_of_length_le (by omega)
      rw [hbefore]
      refine .swap before g (after.take m) left (.trans ?_ right)
      exact ⟨render (after.drop m), by rw [← render_append, List.take_append_drop]⟩

theorem drop (h : TokensSwapped a l l' b ts us) (n : Nat) :
    TokensSwapped a l l' b (ts.drop n) (us.drop n) := by
  cases h with
  | same => exact .same _
  | swap before g after left right =>
    rw [List.drop_append, List.drop_append]
    cases hn : n - before.length with
    | zero =>
      refine .swap (before.drop n) g after (.trans ?_ left) right
      exact ⟨render (before.take n), by
        rw [← List.append_assoc, ← render_append, List.take_append_drop]⟩
    | succ m =>
      have hbefore : before.drop n = [] := List.drop_eq_nil_of_le (by omega)
      rw [hbefore]
      exact .same _

/-- What trimming leaves of the tokens around one that it keeps. -/
theorem exists_trimLeft (before : List Token) (g : Text) :
    ∃ before' g', (render before' ++ g') <:+ (render before ++ g) ∧
      ∀ (k : Kind) (l : Text) (after : List Token), l.Tight → l ≠ [] →
        trimLeft (before ++ ⟨g, k, l⟩ :: after) = before' ++ ⟨g', k, l⟩ :: after := by
  induction before with
  | nil =>
    refine ⟨[], [], List.nil_suffix, fun k l after hl hne => ?_⟩
    rw [List.nil_append, trimLeft, Text.trimStart_eq_self hl.first, if_neg (by simpa using hne)]
    rfl
  | cons t before ih =>
    by_cases hblank : (Text.trimStart t.text).isEmpty = true
    · obtain ⟨before', g', hsuffix, htrim⟩ := ih
      refine ⟨before', g', ?_, fun k l after hl hne => ?_⟩
      · rw [render_cons, List.append_assoc]
        exact hsuffix.trans (List.suffix_append _ _)
      · rw [List.cons_append, trimLeft, if_pos hblank, htrim k l after hl hne]
    · refine ⟨{ t with gap := [], text := Text.trimStart t.text } :: before, g, ?_,
        fun k l after _ _ => ?_⟩
      · obtain ⟨h, ht, -⟩ := Text.exists_eq_append_trimStart t.text
        refine ⟨t.gap ++ h, ?_⟩
        simp only [render_cons, written, List.nil_append]
        rw [← List.append_assoc, ← List.append_assoc, List.append_assoc t.gap, ← ht]
      · rw [List.cons_append, trimLeft, if_neg hblank, List.cons_append]

theorem render_trimRight (ts : List Token) : render (trimRight ts) <+: render ts := by
  induction ts with
  | nil => exact List.prefix_rfl
  | cons t ts ih =>
    obtain ⟨h, ht, -⟩ := Text.exists_eq_trimEnd_append t.text
    rw [trimRight, render_cons]
    split
    · split
      · exact List.nil_prefix
      · refine ⟨h ++ render ts, ?_⟩
        simp only [render_cons, render_nil, written, List.append_nil]
        rw [List.append_assoc, ← List.append_assoc _ h, ← ht, List.append_assoc]
    · rw [render_cons]
      exact List.prefix_append_right_inj _ |>.2 ih

/-- Trimming at the end does not reach beyond a token that is not blank. -/
theorem trimRight_append (before : List Token) {t : Token} (ht : t.text.Tight) (hne : t.text ≠ [])
    (after : List Token) : trimRight (before ++ t :: after) = before ++ t :: trimRight after := by
  induction before with
  | nil =>
    rw [List.nil_append, trimRight, Text.trimEnd_eq_self ht.last]
    split
    · next hnil => rw [if_neg (by simpa using hne), List.isEmpty_iff.1 hnil]; rfl
    · rfl
  | cons u before ih =>
    rw [List.cons_append, trimRight, ih, if_neg (by simp)]
    rfl

/-- The literals are swapped in the trimmed tokens. -/
theorem trimmed (hl : l.Tight) (hne : l ≠ []) (hl' : l'.Tight) (hne' : l' ≠ [])
    (h : TokensSwapped a l l' b ts us) :
    TokensSwapped a l l' b (Token.trimmed ts) (Token.trimmed us) := by
  cases h with
  | same => exact .same _
  | swap before g after left right =>
    obtain ⟨before', g', hsuffix, htrim⟩ := exists_trimLeft before g
    rw [Token.trimmed, Token.trimmed, htrim _ l after hl hne, htrim _ l' after hl' hne',
      trimRight_append before' (t := ⟨g', .quoted, l⟩) hl hne,
      trimRight_append before' (t := ⟨g', .quoted, l'⟩) hl' hne']
    exact .swap before' g' _ (hsuffix.trans left) ((render_trimRight after).trans right)

/-- Cutting keeps track of the place of the quoted text. -/
theorem cutting (hl : l.Tight) (hne : l ≠ []) (hl' : l'.Tight) (hne' : l' ≠ []) :
    Cutting fun ts us => Stretch ts ∧ Stretch us ∧ TokensSwapped a l l' b ts us where
  left h := h.1
  right h := h.2.1
  alike h := h.2.2.alike
  take n h := ⟨h.1.take n, h.2.1.take n, h.2.2.take n⟩
  drop n h := ⟨h.1.drop n, h.2.1.drop n, h.2.2.drop n⟩
  trimmed h := ⟨h.1.trimmed, h.2.1.trimmed, h.2.2.trimmed hl hne hl' hne'⟩

/-- Pieces whose tokens differ in the literal differ in it as texts. -/
theorem swapped {s s' : Text} (hs : Piece s) (hs' : Piece s')
    (h : TokensSwapped a l l' b (tokenize s) (tokenize s')) : Swapped a l l' b s s' := by
  have hrender := hs.render
  have hrender' := hs'.render
  generalize tokenize s = ts at h hrender
  generalize tokenize s' = us at h hrender'
  cases h with
  | same => exact .inl (hrender.symm.trans hrender')
  | swap before g after left right =>
    refine .inr ⟨render before ++ g, render after, left, right, ?_, ?_⟩
    · rw [← hrender, render_append, render_cons, written]
      simp only [List.append_assoc]
    · rw [← hrender', render_append, render_cons, written]
      simp only [List.append_assoc]

end TokensSwapped

/-- The same object, and clauses with texts that are related one by one. -/
structure Query.SameButFor (P : Text → Text → Prop) (p q : Query) : Prop where
  objectName : p.objectName = q.objectName
  clauses : Query.Similar P p q

/-- A quoted text does not stand inside a word. -/
theorem Swapped.eq_of_word {a l l' b s s' : Text} (h : Swapped a l l' b s s')
    (hs : ∀ c ∈ s, isWordPart c = true) {q : Char} (hq : q = '\'' ∨ q = '"')
    (hl : l.head? = some q) : s = s' := by
  rcases h with h | ⟨x, y, -, -, rfl, -⟩
  · exact h
  · have := hs q (by simp [List.mem_of_mem_head? hl])
    rcases hq with rfl | rfl <;> cases this

/-- Another quoted text in the place of one changes a query in the texts that contain it only. -/
theorem Query.ofText_swap_sameButFor {a l b l' g : Text} {before after : List Token}
    (hclosed : hasUnclosed (tokenize (a ++ l ++ b)) = false)
    (hl : tokenize (a ++ l ++ b) = before ++ ⟨g, .quoted, l⟩ :: after) (ha : a = render before ++ g)
    (hl' : tokenize l' = [⟨[], .quoted, l'⟩]) :
    (Query.ofText (a ++ l ++ b)).SameButFor (Swapped a l l' b) (Query.ofText (a ++ l' ++ b)) := by
  have hswap := tokenize_swap hclosed hl ha hl'
  have hstretch := stretch_tokenize hclosed
  rw [hl] at hstretch hclosed
  have hshape := hstretch.shape (List.mem_append_right before (List.mem_cons_self ..))
  obtain ⟨q, hq, hhead⟩ := hshape.of_quoted rfl
  have hne : l ≠ [] := by
    rintro rfl
    cases hhead
  have hpiece' : Piece l' := .of_tokenize hl' (by simp) (by simp)
  have hne' : l' ≠ [] := by
    rintro rfl
    simp at hl'
  have hstretch' : Stretch (before ++ ⟨g, .quoted, l'⟩ :: after) := by
    rw [← hswap]
    refine stretch_tokenize ?_
    rw [hswap]
    simpa using hclosed
  have hright : render after <+: b := by
    obtain ⟨r, hr, -⟩ := exists_eq_render_append (a ++ l ++ b)
    rw [hl, ha] at hr
    simp only [render_append, render_cons, written, List.append_assoc,
      List.append_cancel_left_eq] at hr
    exact ⟨r, hr.symm⟩
  have hR := TokensSwapped.cutting (a := a) (b := b) (hshape.tight (by simp)) hne hpiece'.tight hne'
  have hsimilar := (Query.ofTokens_similar hR ⟨hstretch, hstretch',
    .swap before g after (ha ▸ List.suffix_rfl) hright⟩).imp fun s s' h =>
      TokensSwapped.swapped h.left h.right h.tokens.2.2
  rw [Query.ofText, Query.ofText, hl, hswap]
  refine ⟨?_, hsimilar⟩
  -- the object is a word, which no quoted text is part of
  have hobject := hsimilar.objectName
  cases hname : (Query.ofTokens (before ++ ⟨g, .quoted, l⟩ :: after)).objectName with
  | none =>
    rw [hname] at hobject
    generalize (Query.ofTokens _).objectName = x at hobject ⊢
    cases hobject
    rfl
  | some name =>
    have hword := isWordPart_of_objectName? hstretch hname
    rw [hname] at hobject
    generalize (Query.ofTokens _).objectName = x at hobject ⊢
    cases hobject with
    | some h => rw [h.eq_of_word hword hq hhead]

/-- A quoted text that spells the end of a condition and another clause stays a value. -/
theorem Query.ofText_swap_sameButFor_condition :
    (Query.ofText ("SELECT Id FROM A WHERE x = ".toList ++ "'b'".toList ++
      " AND y IN (1, 2)".toList)).SameButFor
      (Swapped "SELECT Id FROM A WHERE x = ".toList "'b'".toList "', LIMIT 1 OR ('".toList
        " AND y IN (1, 2)".toList)
      (Query.ofText ("SELECT Id FROM A WHERE x = ".toList ++ "', LIMIT 1 OR ('".toList ++
        " AND y IN (1, 2)".toList)) := by
  have hl : tokenize ("SELECT Id FROM A WHERE x = ".toList ++ "'b'".toList ++
      " AND y IN (1, 2)".toList) = tokenize "SELECT Id FROM A WHERE x = ".toList ++
        ⟨[' '], .quoted, "'b'".toList⟩ :: tokenize " AND y IN (1, 2)".toList := by
    decide +kernel
  have ha : "SELECT Id FROM A WHERE x = ".toList =
      render (tokenize "SELECT Id FROM A WHERE x = ".toList) ++ [' '] := by
    decide +kernel
  exact Query.ofText_swap_sameButFor (by decide +kernel) hl ha (by decide +kernel)

end Soql
