import Mathlib.Combinatorics.Enumerative.DyckWord
import Soql.Proofs.Token.Group

/-!
# Matched parentheses

The parentheses of a text, with everything else left out, are a word of two letters. They match
when this is a Dyck word: no prefix closes more than it opens, and all of it closes as much as it
opens. What the scans find by counting a depth is told here without the count: whether a text is
balanced, where a group closes, and which parentheses are outer ones (`outerParens_exact`).
-/

namespace Soql

namespace Kind

/-- The letter that a parenthesis is. -/
def paren? : Kind → Option DyckStep
  | .openParen => some .U
  | .closeParen => some .D
  | _ => none

/-- The parentheses among tokens of the kinds. -/
def parens (ks : List Kind) : List DyckStep :=
  ks.filterMap paren?

theorem count_U_parens (ks : List Kind) : (parens ks).count .U = ks.count .openParen := by
  rw [parens, List.count, List.countP_filterMap]
  exact List.countP_congr fun k _ => by cases k <;> simp [paren?]

theorem count_D_parens (ks : List Kind) : (parens ks).count .D = ks.count .closeParen := by
  rw [parens, List.count, List.countP_filterMap]
  exact List.countP_congr fun k _ => by cases k <;> simp [paren?]

theorem forall_prefix_cons_iff {p : List Kind → Prop} {k : Kind} {ks : List Kind} :
    (∀ ls, ls <+: k :: ks → p ls) ↔ p [] ∧ ∀ ls, ls <+: ks → p (k :: ls) := by
  simp only [List.prefix_cons_iff]
  constructor
  · exact fun h => ⟨h [] (.inl rfl), fun ls hls => h _ (.inr ⟨ls, rfl, hls⟩)⟩
  · rintro ⟨hnil, hcons⟩ _ (rfl | ⟨ls, rfl, hls⟩)
    · exact hnil
    · exact hcons ls hls

/-- A level is reached exactly when the counts agree and no prefix closes more than is open. -/
theorem level?_eq_some_iff {d e : Nat} {ks : List Kind} : level? d ks = some e ↔
    d + ks.count .openParen = e + ks.count .closeParen ∧
      ∀ ls, ls <+: ks → ls.count .closeParen ≤ d + ls.count .openParen := by
  induction ks generalizing d with
  | nil => simp
  | cons k ks ih =>
    rw [level?, forall_prefix_cons_iff]
    by_cases hopen : k = .openParen
    · subst hopen
      simp [ih, depthAfter, Nat.add_right_comm d 1, Nat.add_assoc]
    by_cases hclose : k = .closeParen
    · subst hclose
      cases d with
      | zero =>
        -- The prefix of this one parenthesis already closes too much.
        have hfirst : ¬∀ ls, ls <+: ks → ls.count .closeParen + 1 ≤ ls.count .openParen :=
          fun h => absurd (h [] List.nil_prefix) (by simp)
        simpa using fun _ => by simpa using hfirst
      | succ d => simp [ih, depthAfter, Nat.add_right_comm d 1, ← Nat.add_assoc]
    · simp [ih, depthAfter, hopen, hclose]

/-- The level gives out exactly when some prefix closes more than is open. -/
theorem level?_eq_none_iff {d : Nat} {ks : List Kind} : level? d ks = none ↔
    ∃ ls, ls <+: ks ∧ d + ls.count .openParen < ls.count .closeParen := by
  rw [← not_iff_not, ← ne_eq, Option.ne_none_iff_exists']
  simp only [level?_eq_some_iff, not_exists, not_and, Nat.not_lt]
  constructor
  · rintro ⟨e, -, hprefix⟩
    exact hprefix
  · intro hprefix
    have hall := hprefix ks List.prefix_rfl
    exact ⟨d + ks.count .openParen - ks.count .closeParen, by omega, hprefix⟩

/-- The parentheses are a Dyck word. -/
def Matched (ks : List Kind) : Prop :=
  ∃ w : DyckWord, w.toList = parens ks

/-- Parentheses match if there are as many of both kinds, and in no prefix more that close. -/
theorem matched_iff {ks : List Kind} : Matched ks ↔
    ks.count .openParen = ks.count .closeParen ∧
      ∀ ls, ls <+: ks → ls.count .closeParen ≤ ls.count .openParen := by
  constructor
  · rintro ⟨w, hw⟩
    refine ⟨?_, fun ls hls => ?_⟩
    · rw [← count_U_parens, ← count_D_parens, ← hw]
      exact w.count_U_eq_count_D
    · have hpre : parens ls <+: w.toList := by
        rw [hw]
        exact hls.filterMap _
      rw [← count_U_parens, ← count_D_parens, List.prefix_iff_eq_take.1 hpre]
      exact w.count_D_le_count_U _
  · rintro ⟨hcount, hprefix⟩
    refine ⟨⟨parens ks, by rw [count_U_parens, count_D_parens, hcount], fun i => ?_⟩, rfl⟩
    obtain ⟨ls, hls, htake⟩ := List.prefix_filterMap_iff.1 (List.take_prefix i (parens ks))
    rw [htake]
    change (parens ls).count .D ≤ (parens ls).count .U
    rw [count_U_parens, count_D_parens]
    exact hprefix ls hls

/-- Keeping count of the depth finds out whether parentheses match. -/
theorem balanced_iff_matched {ks : List Kind} : Balanced ks ↔ Matched ks := by
  rw [Balanced, level?_eq_some_iff, matched_iff, Nat.zero_add, Nat.zero_add]
  simp only [Nat.zero_add]

end Kind

namespace Token

open Kind

/-- The scan for balance accepts exactly the Dyck words. -/
theorem isBalanced_iff_matched {ts : List Token} : isBalanced ts = true ↔ Matched (kinds ts) :=
  isBalanced_iff.trans balanced_iff_matched

/-- Some prefix closes more than it opens if the reader has seen a parenthesis too many. -/
theorem underflow_after_iff {ts : List Token} : (Nesting.after ts).underflow = true ↔
    ∃ us, us <+: ts ∧ (kinds us).count .openParen < (kinds us).count .closeParen := by
  rw [nesting_after, Option.isNone_iff_eq_none, level?_eq_none_iff]
  simp only [Nat.zero_add]
  constructor
  · rintro ⟨ls, hls, hcount⟩
    obtain ⟨us, hus, rfl⟩ := List.prefix_map_iff.1 hls
    exact ⟨us, hus, hcount⟩
  · rintro ⟨us, hus, hcount⟩
    exact ⟨kinds us, hus.map _, hcount⟩

/-- Behind an opening parenthesis, the scan finds the parenthesis that closes it. -/
theorem closeGroup?_zero_eq_some_iff {ts inside rest : List Token} :
    closeGroup? 0 ts = some (inside, rest) ↔
      ∃ t, ts = inside ++ t :: rest ∧ t.kind = .closeParen ∧ Matched (kinds inside) := by
  simp only [closeGroup?_eq_some_iff, ← balanced_iff_matched]

end Token

open Kind Token

/-- The blanks before a token of a text do not count at the end of a stretch. -/
theorem trim_render_append_gap {s : Text} {c : Token} (h : c ∈ tokenize s) (ts : List Token) :
    (render ts ++ c.gap).trim = (render ts).trim :=
  Text.trim_append_of_blank _ (isBlank_of_gap (reads_nil_of_mem h))

/-- Outer parentheses are taken away exactly when the tokens between them match, and then the
trimmed text between them is left. So a group is opened whatever matched text it is made of, and
it is a subquery when this text starts with `SELECT`. -/
theorem outerParens_exact :
    (∀ s t : Text, stripOuterParens? s = some t ↔
      ∃ (o : Token) (inside : List Token) (c : Token) (between : Text),
        tokenize s.trim = o :: (inside ++ [c]) ∧ o.kind = .openParen ∧ c.kind = .closeParen ∧
          Matched (kinds inside) ∧ s.trim = group between ∧ t = between.trim) ∧
    ∀ x : Text, Closed x → Matched (kindsOf x) →
      stripOuterParens? (group x) = some x.trim ∧
        ((subqueryBody? (group x)).isSome = true ↔ OpensQuery x.trim) := by
  constructor
  · intro s t
    rw [stripOuterParens?_eq_some_iff]
    constructor
    · rintro ⟨o, inside, c, htok, ho, hc, hlevel, rfl⟩
      exact ⟨o, inside, c, render inside ++ c.gap, htok, ho, hc, balanced_iff_matched.1 hlevel,
        eq_group_of_tokenize (Text.tight_trim s) htok ho hc,
        (trim_render_append_gap (s := s.trim) (by simp [htok]) inside).symm⟩
    · rintro ⟨o, inside, c, between, htok, ho, hc, hmatched, hgroup, rfl⟩
      have hbetween : between = render inside ++ c.gap :=
        group_inj.1 (hgroup.symm.trans (eq_group_of_tokenize (Text.tight_trim s) htok ho hc))
      refine ⟨o, inside, c, htok, ho, hc, balanced_iff_matched.2 hmatched, ?_⟩
      rw [hbetween, trim_render_append_gap (s := s.trim) (by simp [htok]) inside]
  · intro x hclosed hmatched
    have hbal := balanced_iff_matched.2 hmatched
    exact ⟨stripOuterParens?_group hclosed hbal, isSome_subqueryBody?_group hclosed hbal⟩

/-- A subquery with a closing parenthesis in a quoted text. -/
def quotedParen : Text :=
  " SELECT Id FROM Case WHERE (Subject = ':)') ".toList

/-- The parenthesis in quotes is none. -/
theorem outerParens_exact_quotedParen : Closed quotedParen ∧ Matched (kindsOf quotedParen) ∧
    stripOuterParens? (group quotedParen) = some quotedParen.trim ∧
    (subqueryBody? (group quotedParen)).isSome = true := by
  have hclosed : Closed quotedParen := by decide +kernel
  have hmatched : Matched (kindsOf quotedParen) := balanced_iff_matched.1 (by decide +kernel)
  have hopens : (kindsOf quotedParen.trim).head? = some (.keyword .SELECT) := by decide +kernel
  obtain ⟨hstrip, hquery⟩ := outerParens_exact.2 quotedParen hclosed hmatched
  exact ⟨hclosed, hmatched, hstrip, hquery.2 hopens⟩

end Soql
