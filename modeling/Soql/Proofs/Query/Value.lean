import Soql.Proofs.Literal.Written
import Soql.Proofs.Query.Comparison
import Soql.Proofs.Token.Group

/-!
# Fields and values of conditions

Plain paths can be the field of a condition. As its value, a group in parentheses reads alone, and
so does everything that a text is written as, except a bind variable whose name has a word that
ends conditions.
-/

namespace Soql

open Kind Token

/-- A text with the tokens of a group is read alone. -/
theorem ReadsAlone.of_group {s : Text} {ks : List Kind} (hclosed : Closed s)
    (hs : kindsOf s = .openParen :: (ks ++ [.closeParen])) (hbal : Balanced ks) : ReadsAlone s := by
  have hconnect : Passes (headIs Kind.isConnective) (kindsOf s) := by
    rw [hs]
    exact passes_group (fun _ => rfl) hbal
  refine ⟨hclosed, ?_, hconnect.clear rfl, ?_⟩
  · rw [hs]
    exact .group hbal
  · rw [hs]
    exact Clause.condition.search_closes.passes_group hbal

/-- A balanced text in parentheses is read alone. -/
theorem ReadsAlone.group {s : Text} (hclosed : Closed s) (hbal : Balanced (kindsOf s)) :
    ReadsAlone (Soql.group s) :=
  .of_group (piece_group hclosed).closed (kindsOf_group hclosed) hbal

/-- A text that can be taken out of parentheses reads alone. -/
theorem ReadsAlone.of_stripOuterParens? {s b : Text} (hs : Closed s)
    (h : stripOuterParens? s = some b) : ReadsAlone s.trim := by
  obtain ⟨o, inside, c, htok, ho, hc, hlevel, -⟩ := stripOuterParens?_eq_some_iff.1 h
  refine .of_group (Piece.of_trim hs).closed ?_ hlevel
  rw [kindsOf, htok, kinds_cons, kinds_append, kinds_cons, ho, hc, kinds_nil]

theorem Kind.isConnective_of_endsCondition {k : Kind} (h : k.endsCondition = false) :
    k.isConnective = false := by
  cases k with
  | keyword w => cases w <;> first | rfl | cases h
  | _ => rfl

/-- A text without groups reads alone when none of its words starts a phrase or ends a condition. -/
theorem ReadsAlone.of_quiet {s : Text} (hclosed : Closed s)
    (h : ∀ k ∈ kindsOf s, k ≠ .openParen ∧ k ≠ .closeParen ∧ k.startsPhrase = false ∧
      k.endsCondition = false) : ReadsAlone s where
  closed := hclosed
  balanced := level?_of_no_group (fun k hk => ⟨(h k hk).1, (h k hk).2.1⟩) 0
  connects := clear_of_forall fun k hk _ => isConnective_of_endsCondition (h k hk).2.2.2
  passes := Clause.condition.search_closes.passes fun k hk => ⟨(h k hk).2.2.1, (h k hk).1⟩

/-- A text without groups reads alone when none of its words ends a condition and no two of them
stand side by side. -/
theorem ReadsAlone.of_apart {s : Text} (hclosed : Closed s)
    (hgroup : ∀ k ∈ kindsOf s, k ≠ .openParen ∧ k ≠ .closeParen)
    (hends : ∀ k ∈ kindsOf s, k.endsCondition = false)
    (hapart : ∀ as k l bs, kindsOf s = as ++ k :: l :: bs → k.isWord = true → l.isWord = false) :
    ReadsAlone s where
  closed := hclosed
  balanced := level?_of_no_group hgroup 0
  connects := clear_of_forall fun k hk _ => isConnective_of_endsCondition (hends k hk)
  passes := passes_of_apart (fun k hk ls hls => by
    have := Clause.of_condition_closes hls
    rwa [hends k hk, or_iff_right (by simp)] at this) hgroup hapart

/-- No two words stand side by side in a text without gaps. -/
theorem apart_of_chars {s : Text} (hclosed : Closed s) (hgap : ∀ c ∈ s, Text.isGap c = false) :
    ∀ as k l bs, kindsOf s = as ++ k :: l :: bs → k.isWord = true → l.isWord = false := by
  intro as k l bs hks hk
  obtain ⟨before, rest, htok, -, hrest⟩ := List.map_eq_append_iff.1 hks
  obtain ⟨t, us, rfl, rfl, hus⟩ := List.map_eq_cons_iff.1 hrest
  obtain ⟨u, after, rfl, rfl, -⟩ := List.map_eq_cons_iff.1 hus
  by_contra hl
  have hstretch := stretch_tokenize hclosed
  rw [htok] at hstretch
  have hne := gap_ne_nil_of_isWord hstretch.right hk (by simpa using hl)
  obtain ⟨c, hc⟩ := List.exists_mem_of_ne_nil _ hne
  have hu : u ∈ tokenize s := by simp [htok]
  obtain ⟨r, hreads⟩ := exists_reads_of_mem hu
  have hmem := mem_of_mem_tokenize hu c (List.mem_append_left _ hc)
  have := hreads.gap c hc
  rw [hgap c hmem] at this
  cases this

theorem not_isGap_of_not_isBlank {c : Char} (h : Text.isBlank c = false) : Text.isGap c = false := by
  by_contra hgap
  rw [Text.isBlank_of_isGap (by simpa using hgap)] at h
  cases h

namespace PlainPath

variable {s : Text} (h : PlainPath s)

include h

theorem isField : IsField (kindsOf s) := by
  refine .path h.isPath fun hnot => ?_
  rcases h.kinds_eq _ (List.mem_of_mem_head? hnot) with hk | hk <;> cases hk

theorem readsAlone : ReadsAlone s := by
  refine .of_quiet h.piece.closed fun k hk => ?_
  rcases h.kinds_eq k hk with rfl | rfl <;> simp [Kind.startsPhrase, Kind.endsCondition]

end PlainPath

namespace Literal

/-- A bind variable with a word in its name that ends conditions, such as `:a.limit`. -/
def EndsCondition (s : Text) : Prop :=
  isBindVariable s = true ∧ ∃ k ∈ kindsOf s, k.endsCondition = true

/-- What a text is written as reads alone, unless it is a bind variable with a word that ends
conditions. -/
theorem Form.readsAlone {s w : Text} (h : Form s w) (hs : ¬ EndsCondition s) : ReadsAlone w := by
  have hgroup : ∀ k ∈ kindsOf w, k ≠ .openParen ∧ k ≠ .closeParen := fun k hk =>
    ⟨(h.no_group k hk).1, (h.no_group k hk).2.1⟩
  rcases h.bind_or_value with ⟨hbind, rfl⟩ | hvalue
  · have hclosed := closed_of_chars (not_mem_of_isBindVariable hbind)
    have hends : ∀ k ∈ kindsOf w, k.endsCondition = false := by
      intro k hk
      by_contra hends
      exact hs ⟨hbind, k, hk, by simpa using hends⟩
    exact .of_apart hclosed hgroup hends (apart_of_chars hclosed fun c hc =>
      not_isGap_of_not_isBlank (not_isBlank_of_isBindVariable hbind c hc))
  · refine .of_quiet h.closed fun k hk => ⟨(hgroup k hk).1, (hgroup k hk).2, ?_⟩
    cases k with
    | keyword word => rcases hvalue word hk with rfl | rfl | rfl <;> exact ⟨rfl, rfl⟩
    | _ => exact ⟨rfl, rfl⟩

end Literal

end Soql
