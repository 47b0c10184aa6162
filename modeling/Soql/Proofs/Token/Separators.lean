import Soql.Proofs.Token.Join

/-!
# Separators outside parentheses

A text has one part more than it has separators outside parentheses, before empty parts are
dropped. A parenthesis that is left open hides the separators behind it: joined texts of which one
before the last leaves a parenthesis open are taken apart into fewer parts than they were joined
from. Blanks at the ends of a text belong to no part.
-/

namespace Soql

open Kind Token

namespace Kind

theorem depthAfter_mono (k : Kind) {d e : Nat} (h : d ≤ e) : k.depthAfter d ≤ k.depthAfter e := by
  cases k <;> simp only [depthAfter] <;> omega

theorem depth_mono (ks : List Kind) {d e : Nat} (h : d ≤ e) : depth d ks ≤ depth e ks := by
  induction ks generalizing d e with
  | nil => exact h
  | cons k ks ih => exact ih (k.depthAfter_mono h)

/-- How many separators stand outside parentheses in tokens that start at depth `d`. -/
def separators (sep : Kind → Bool) (d : Nat) : List Kind → Nat
  | [] => 0
  | k :: ks => (if d == 0 && sep k then 1 else 0) + separators sep (k.depthAfter d) ks

variable {sep : Kind → Bool} {d e : Nat}

theorem separators_append (ks ls : List Kind) :
    separators sep d (ks ++ ls) = separators sep d ks + separators sep (depth d ks) ls := by
  induction ks generalizing d with
  | nil => simp [separators]
  | cons k ks ih => rw [List.cons_append, separators, separators, ih, depth_cons, Nat.add_assoc]

/-- Deeper inside parentheses there are fewer separators. -/
theorem separators_anti (ks : List Kind) (h : d ≤ e) : separators sep e ks ≤ separators sep d ks := by
  induction ks generalizing d e with
  | nil => exact Nat.le_refl 0
  | cons k ks ih =>
    have htail := ih (k.depthAfter_mono h)
    rw [separators, separators]
    by_cases he : (e == 0 && sep k) = true
    · have hd : (d == 0 && sep k) = true := by
        simp only [Bool.and_eq_true, beq_iff_eq] at he ⊢
        exact ⟨by omega, he.2⟩
      rw [if_pos he, if_pos hd]
      omega
    · rw [if_neg he]
      omega

/-- Without separators outside parentheses there are none deeper inside. -/
theorem separators_eq_zero {ks rest : List Kind} (h : Clear (headIs sep) 0 ks rest) (d : Nat) :
    separators sep d ks = 0 := by
  have hzero : ∀ (e : Nat) (ks : List Kind), Clear (headIs sep) e ks rest →
      separators sep e ks = 0 := by
    intro e ks h
    induction ks generalizing e with
    | nil => rfl
    | cons k ks ih =>
      have hk : ¬(e == 0 && sep k) = true := by
        simp only [Bool.and_eq_true, beq_iff_eq, not_and, Bool.not_eq_true]
        exact h.1
      rw [separators, if_neg hk, ih _ h.2]
  have hle : separators sep d ks ≤ separators sep 0 ks := separators_anti ks (Nat.zero_le d)
  rwa [hzero 0 ks h, Nat.le_zero] at hle

end Kind

section Count

variable {sep : Kind → Bool}

/-- There is a part behind each separator. -/
theorem length_splitTop (d : Nat) (ts : List Token) :
    (splitTop (fun t => sep t.kind) d ts).2.length = separators sep d (kinds ts) := by
  induction ts generalizing d with
  | nil => rfl
  | cons t ts ih =>
    rw [splitTop, kinds_cons, separators, ← depthAfter_eq, ← ih]
    split
    · rw [List.length_cons, Nat.add_comm]
    · rw [Nat.zero_add]

/-- Empty parts are dropped, so there may be fewer parts than separators tell. -/
theorem length_splitParts_le (s : Text) :
    (splitParts (fun t => sep t.kind) s).length ≤ separators sep 0 (kindsOf s) + 1 := by
  rw [splitParts, kindsOf, ← length_splitTop]
  exact (List.length_filter_le _ _).trans (by simp)

end Count

section Blanks

variable {sep : Kind → Bool}

/-- The tokens of the parts that separators leave. -/
def topParts (sep : Kind → Bool) (d : Nat) (ts : List Token) : List (List Token) :=
  (splitTop (fun t => sep t.kind) d ts).1 :: (splitTop (fun t => sep t.kind) d ts).2

theorem splitParts_eq_topParts (s : Text) : splitParts (fun t => sep t.kind) s =
    ((topParts sep 0 (tokenize s)).map fun ts => (render ts).trim).filter (!·.isEmpty) := rfl

theorem topParts_nil (d : Nat) : topParts sep d [] = [[]] := rfl

theorem topParts_cons (d : Nat) (t : Token) (ts : List Token) : topParts sep d (t :: ts) =
    if d == 0 && sep t.kind then [] :: topParts sep (t.kind.depthAfter d) ts
    else (topParts sep (t.kind.depthAfter d) ts).modifyHead (t :: ·) := by
  rw [topParts, splitTop, ← depthAfter_eq]
  split <;> rfl

/-- The texts of the parts, without the blanks at their ends, token by token. -/
theorem trimEnd_topParts_cons (d : Nat) (t : Token) (ts : List Token) :
    (topParts sep d (t :: ts)).map (fun us => (render us).trimEnd) =
      if d == 0 && sep t.kind then
        [] :: (topParts sep (t.kind.depthAfter d) ts).map fun us => (render us).trimEnd
      else ((topParts sep (t.kind.depthAfter d) ts).map fun us => (render us).trimEnd).modifyHead
        fun s => Text.trimEnd (t.written ++ s) := by
  rw [topParts_cons]
  split
  · rfl
  · rw [topParts, List.modifyHead_cons, List.map_cons, List.map_cons, List.modifyHead_cons,
      render_cons, Text.trimEnd_append_trimEnd]

theorem isBlank_written {t : Token} (h : t.Reads []) (hblank : ∀ c ∈ t.text, Text.isBlank c = true) :
    ∀ c ∈ t.written, Text.isBlank c = true := fun c hc =>
  (List.mem_append.1 hc).elim (isBlank_of_gap h c) (hblank c)

/-- Of the first token only its own text remains when it is trimmed. -/
theorem trim_written_append {t : Token} (h : t.Reads []) (s : Text) :
    (t.written ++ s).trim = (Text.trimStart t.text ++ s).trim := by
  obtain ⟨g, ht, hg⟩ := Text.exists_eq_append_trimStart t.text
  conv => lhs; rw [written, ht]
  rw [List.append_assoc, List.append_assoc, Text.trim_append_blank_left (isBlank_of_gap h),
    Text.trim_append_blank_left hg]

variable (hunknown : sep .unknown = false) {ts : List Token}
  (h : ∀ t ∈ ts, t.Reads [])

include hunknown h

/-- Blanks at the start of some tokens are blanks at the start of their first part. -/
theorem trim_topParts_trimLeft :
    (topParts sep 0 (trimLeft ts)).map (fun us => (render us).trim) =
      (topParts sep 0 ts).map fun us => (render us).trim := by
  induction ts with
  | nil => rfl
  | cons t ts ih =>
    have hreads := h t (by simp)
    rw [trimLeft]
    split
    · next hblank =>
      rw [List.isEmpty_iff, Text.trimStart_eq_nil_iff] at hblank
      have hkind := hreads.eq_unknown hblank
      rw [ih fun u hu => h u (by simp [hu]), topParts_cons, hkind, hunknown, Bool.and_false,
        if_neg Bool.false_ne_true, show Kind.unknown.depthAfter 0 = 0 from rfl, topParts,
        List.modifyHead_cons, List.map_cons, List.map_cons, render_cons,
        Text.trim_append_blank_left (isBlank_written hreads hblank)]
    · rw [topParts_cons, topParts_cons]
      split
      · rfl
      · rw [topParts, List.modifyHead_cons, List.modifyHead_cons, List.map_cons, List.map_cons,
          render_cons, render_cons, trim_written_append hreads]
        rfl

/-- Blanks at the end of some tokens are blanks at the end of their last part. -/
theorem trimEnd_topParts_trimRight (d : Nat) :
    (topParts sep d (trimRight ts)).map (fun us => (render us).trimEnd) =
      (topParts sep d ts).map fun us => (render us).trimEnd := by
  induction ts generalizing d with
  | nil => rfl
  | cons t ts ih =>
    have hreads := h t (by simp)
    have hrest := ih (fun u hu => h u (by simp [hu])) (t.kind.depthAfter d)
    rw [trimRight]
    split
    · next hnil =>
      rw [List.isEmpty_iff.1 hnil, topParts_nil] at hrest
      split
      · next hblank =>
        rw [List.isEmpty_iff, Text.trimEnd_eq_nil_iff] at hblank
        have hwritten : Text.trimEnd (t.written ++ []) = [] := by
          rw [List.append_nil, Text.trimEnd_eq_nil_iff]
          exact isBlank_written hreads hblank
        rw [trimEnd_topParts_cons, ← hrest, hreads.eq_unknown hblank, hunknown,
          Bool.and_false, if_neg Bool.false_ne_true, List.map_singleton, List.modifyHead_cons]
        exact congrArg ([·]) hwritten.symm
      · have hwritten : Text.trimEnd (t.gap ++ Text.trimEnd t.text ++ []) =
            Text.trimEnd (t.written ++ []) := by
          rw [List.append_nil, List.append_nil, Text.trimEnd_append_trimEnd, written]
        rw [trimEnd_topParts_cons, trimEnd_topParts_cons, ← hrest]
        split
        · rfl
        · exact congrArg ([·]) hwritten
    · rw [trimEnd_topParts_cons, trimEnd_topParts_cons, hrest]

end Blanks

/-- Blanks at the ends of a text are in none of its parts. -/
theorem splitParts_trim {sep : Kind → Bool} (hunknown : sep .unknown = false) {s : Text}
    (h : Closed s) : splitParts (fun t => sep t.kind) s.trim = splitParts (fun t => sep t.kind) s := by
  have hstretch := stretch_tokenize h
  have hleft := trim_topParts_trimLeft hunknown hstretch.reads_nil
  have hright := congrArg (List.map Text.trim)
    (trimEnd_topParts_trimRight hunknown hstretch.trimLeft.reads_nil 0)
  simp only [List.map_map, Function.comp_def, Text.trim_trimEnd] at hright
  rw [splitParts_eq_topParts, splitParts_eq_topParts, tokenize_trim h, trimmed, hright, hleft]

section Join

variable {text : Text} {sep : Kind → Bool} (hsep : Separator text sep)
  (hgroup : ∀ k, sep k = true → k ≠ .openParen ∧ k ≠ .closeParen)

include hsep hgroup

/-- The separators of joined texts are those of the first one, the one behind it if no parenthesis
is open there, and those of the rest. -/
theorem Separator.separators_join_cons {x : Text} (hx : Closed x) (y : Text) (xs : List Text)
    (d : Nat) : separators sep d (kindsOf (Text.join text (x :: y :: xs))) =
      separators sep d (kindsOf x) + ((if depth d (kindsOf x) = 0 then 1 else 0) +
        separators sep (depth d (kindsOf x)) (kindsOf (Text.join text (y :: xs)))) := by
  obtain ⟨c, us, hc, -, hus, htok⟩ := hsep.tokens hx (Text.join text (y :: xs))
  obtain ⟨hopen, hclose⟩ := hgroup c.kind hc
  have hdepth : c.kind.depthAfter (depth d (kindsOf x)) = depth d (kindsOf x) := by
    cases hk : c.kind <;> first | rfl | exact absurd hk hopen | exact absurd hk hclose
  have hkinds : kindsOf (Text.join text (x :: y :: xs)) =
      kindsOf x ++ c.kind :: kindsOf (Text.join text (y :: xs)) := by
    rw [kindsOf, Text.join, htok, kinds_append, kinds_cons, hus.kinds_eq]
    rfl
  rw [hkinds, separators_append, separators, hdepth, hc]
  simp

/-- Joined texts without separators of their own have at most the separators between them, and fewer
when a text before the last leaves a parenthesis open. -/
theorem Separator.separators_join_le {x : Text} {xs : List Text}
    (hclosed : ∀ y ∈ x :: xs, Closed y)
    (hclear : ∀ y ∈ x :: xs, Clear (headIs sep) 0 (kindsOf y) []) (d : Nat) :
    separators sep d (kindsOf (Text.join text (x :: xs))) ≤ xs.length ∧
      ((∃ y ∈ (x :: xs).dropLast, depth 0 (kindsOf y) ≠ 0) →
        separators sep d (kindsOf (Text.join text (x :: xs))) < xs.length) := by
  have hx := separators_eq_zero (hclear x (by simp))
  induction xs generalizing x d with
  | nil =>
    refine ⟨(hx d).le, ?_⟩
    rintro ⟨y, hy, -⟩
    cases hy
  | cons y xs ih =>
    have hrest := ih (fun z hz => hclosed z (List.mem_cons_of_mem x hz))
      (fun z hz => hclear z (List.mem_cons_of_mem x hz)) (depth d (kindsOf x))
      (separators_eq_zero (hclear y (by simp)))
    rw [hsep.separators_join_cons hgroup (hclosed x (by simp)), hx, List.length_cons]
    refine ⟨by split <;> omega, ?_⟩
    rintro ⟨z, hz, hopen⟩
    rcases List.mem_cons.1 hz with rfl | hz
    · -- the separator behind the text is not at top level
      have hle := depth_mono (kindsOf z) (Nat.zero_le d)
      rw [if_neg (by omega)]
      omega
    · have := hrest.2 ⟨z, hz, hopen⟩
      split <;> omega

/-- Joined texts of which one before the last leaves a parenthesis open are taken apart into fewer
parts. -/
theorem Separator.length_splitParts_join_lt {xs : List Text} (hclosed : ∀ y ∈ xs, Closed y)
    (hclear : ∀ y ∈ xs, Clear (headIs sep) 0 (kindsOf y) [])
    (hopen : ∃ y ∈ xs.dropLast, depth 0 (kindsOf y) ≠ 0) :
    (splitParts (fun t => sep t.kind) (Text.join text xs)).length < xs.length := by
  cases xs with
  | nil => simp at hopen
  | cons x xs =>
    have hlt := (hsep.separators_join_le hgroup hclosed hclear 0).2 hopen
    have hle : (splitParts (fun t => sep t.kind) (Text.join text (x :: xs))).length ≤ _ :=
      length_splitParts_le _
    rw [List.length_cons]
    omega

end Join

end Soql
