import Soql.Proofs.Builder.Subquery
import Soql.Proofs.Query.Swap

/-!
# The gaps between tokens

A query is taken apart by the kinds and texts of its tokens. What stands between them, how much of
it and which blanks, has no part in it: two queries with the same tokens have the same clauses, and
each text of the one has the tokens of its counterpart.
-/

namespace Soql

open Token List

namespace Token

/-- The kinds and texts of tokens, without the gaps. -/
def wording (ts : List Token) : List (Kind × Text) :=
  ts.map fun t => (t.kind, t.text)

@[simp] theorem wording_cons (t : Token) (ts : List Token) :
    wording (t :: ts) = (t.kind, t.text) :: wording ts := rfl

@[simp] theorem isEmpty_wording (ts : List Token) : (wording ts).isEmpty = ts.isEmpty :=
  isEmpty_map

/-- The wording of tokens is their kinds and texts, without the gaps. -/
theorem wording_eq_iff {ts us : List Token} : wording ts = wording us ↔
    Forall₂ (fun t u : Token => t.kind = u.kind ∧ t.text = u.text) ts us := by
  unfold wording
  rw [← forall₂_eq_eq_eq, forall₂_map_left_iff, forall₂_map_right_iff]
  simp only [Prod.mk.injEq]

/-- Trimming at the start does not look at gaps. -/
theorem wording_trimLeft {ts us : List Token} (h : wording ts = wording us) :
    wording (trimLeft ts) = wording (trimLeft us) := by
  rw [wording_eq_iff] at h
  induction h with
  | nil => rfl
  | @cons t u ts us htu h ih =>
    unfold trimLeft
    rw [htu.2]
    split
    · exact ih
    · simp only [wording_cons, htu.1, wording_eq_iff.2 h]

/-- Neither does trimming at the end. -/
theorem wording_trimRight {ts us : List Token} (h : wording ts = wording us) :
    wording (trimRight ts) = wording (trimRight us) := by
  rw [wording_eq_iff] at h
  induction h with
  | nil => rfl
  | @cons t u ts us htu h ih =>
    have hempty : (trimRight ts).isEmpty = (trimRight us).isEmpty := by
      rw [← isEmpty_wording, ih, isEmpty_wording]
    unfold trimRight
    rw [hempty, htu.2]
    split
    · split
      · rfl
      · simp only [wording_cons, htu.1]
    · simp only [wording_cons, htu.1, htu.2, ih]

/-- Cutting and trimming look at kinds and texts only. -/
theorem cutting_wording :
    Cutting fun ts us => Stretch ts ∧ Stretch us ∧ wording ts = wording us where
  left h := h.1
  right h := h.2.1
  alike h := (wording_eq_iff.1 h.2.2).imp fun t u htu =>
    ⟨htu.1, fun _ => by rw [htu.2, Text.eqIgnoreCase_iff]⟩
  take n h := by
    refine ⟨h.1.take n, h.2.1.take n, ?_⟩
    have := congrArg (List.take n) h.2.2
    rwa [wording, wording, ← map_take, ← map_take] at this
  drop n h := by
    refine ⟨h.1.drop n, h.2.1.drop n, ?_⟩
    have := congrArg (List.drop n) h.2.2
    rwa [wording, wording, ← map_drop, ← map_drop] at this
  trimmed h := ⟨h.1.trimmed, h.2.1.trimmed, wording_trimRight (wording_trimLeft h.2.2)⟩

/-- An open quote is a matter of wording. -/
theorem hasUnclosed_of_wording {ts us : List Token} (h : wording ts = wording us)
    (hclosed : hasUnclosed ts = false) : hasUnclosed us = false := by
  have hwording : ∀ vs : List Token, hasUnclosed vs = (wording vs).any (·.1 == .unclosed) := by
    intro vs
    unfold hasUnclosed wording
    rw [any_map]
    rfl
  rw [hwording, ← h, ← hwording, hclosed]

end Token

/-- Two texts have the same tokens, with any gaps between them. -/
def SameTokens (s s' : Text) : Prop :=
  wording (tokenize s) = wording (tokenize s')

instance (s s' : Text) : Decidable (SameTokens s s') :=
  inferInstanceAs (Decidable (wording (tokenize s) = wording (tokenize s')))

/-- Two texts that may be missing are equal if related ones are. -/
theorem eq_of_optionRel {P : Text → Text → Prop} {x y : Option Text} (h : Option.Rel P x y)
    (heq : ∀ a, x = some a → ∀ b, y = some b → P a b → a = b) : x = y := by
  cases h with
  | none => rfl
  | some hab => rw [heq _ rfl _ rfl hab]

/-- The object of a query is one token. -/
theorem eq_of_objectName? {ts us : List Token} (hts : Stretch ts) (hus : Stretch us)
    {name name' : Text} (hname : objectName? ts = some name) (hname' : objectName? us = some name')
    (h : SameTokens name name') : name = name' := by
  obtain ⟨k, hk, -⟩ := exists_tokenize_of_objectName? hts hname
  obtain ⟨k', hk', -⟩ := exists_tokenize_of_objectName? hus hname'
  unfold SameTokens at h
  rw [hk, hk', wording_cons, wording_cons, List.cons.injEq, Prod.mk.injEq] at h
  exact h.1.2

/-- Queries with the same tokens have the same object and the same clauses, and each text of the
one has the same tokens as its counterpart. -/
theorem Query.ofText_sameTokens {q q' : Text} (hclosed : hasUnclosed (tokenize q) = false)
    (h : SameTokens q q') : (Query.ofText q).SameButFor SameTokens (Query.ofText q') := by
  have hts := stretch_tokenize hclosed
  have hus := stretch_tokenize (hasUnclosed_of_wording h hclosed)
  have hsimilar : Query.Similar SameTokens (Query.ofText q) (Query.ofText q') :=
    (Query.ofTokens_similar cutting_wording ⟨hts, hus, h⟩).imp fun s s' hss => hss.tokens.2.2
  refine ⟨eq_of_optionRel hsimilar.objectName ?_, hsimilar⟩
  intro name hname name' hname' hnames
  exact eq_of_objectName? hts hus hname hname' hnames

/-- Accounts by owner and type, on one line. -/
def accountsByOwner : Text :=
  "SELECT Owner.Name FROM Account WHERE Type IN ('a','b') ".toList ++
    "GROUP BY CUBE(Owner.Name,Type) LIMIT 9".toList

/-- The same query on several lines, with blanks inside paths, lists and calls. -/
def accountsByOwnerInLines : Text :=
  "SELECT\n Owner . Name FROM\tAccount WHERE Type IN( 'a' , 'b' )".toList ++
    "GROUP\r\n BY CUBE (Owner. Name ,Type)LIMIT  9\n".toList

/-- A query on one line and the same over several lines. -/
theorem Query.ofText_sameTokens_accountsByOwner :
    hasUnclosed (tokenize accountsByOwner) = false ∧
      SameTokens accountsByOwner accountsByOwnerInLines ∧
      (Query.ofText accountsByOwner).SameButFor SameTokens
        (Query.ofText accountsByOwnerInLines) := by
  have hclosed : hasUnclosed (tokenize accountsByOwner) = false := by decide +kernel
  have h : SameTokens accountsByOwner accountsByOwnerInLines := by decide +kernel
  exact ⟨hclosed, h, Query.ofText_sameTokens hclosed h⟩

end Soql
