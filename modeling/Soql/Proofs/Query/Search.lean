import Soql.Proofs.Query.Clause

/-!
# What a search for a clause passes over

Every phrase that opens or closes a clause starts with one of ten keywords. A search for a clause
passes over tokens without such a keyword, and over any group in parentheses.
-/

namespace Soql

open Kind Token

/-- The first words of the phrases that open and close clauses. -/
def Keyword.startsPhrase : Keyword → Bool
  | .SELECT | .FROM | .WHERE | .GROUP | .HAVING | .ORDER | .LIMIT | .OFFSET | .WITH | .FOR => true
  | _ => false

/-- A keyword that a phrase starts with. -/
def Kind.startsPhrase : Kind → Bool
  | .keyword k => k.startsPhrase
  | _ => false

/-- A search that stops at phrases only. -/
def Search (f : List Kind → Bool) : Prop :=
  ∀ k ks, f (k :: ks) = true → k.startsPhrase = true

/-- Finding a phrase is a search, if its first word can start one. -/
theorem search_leadsKinds {words : List Keyword}
    (h : words.head?.any Keyword.startsPhrase = true) : Search (Phrase.leadsKinds words) := by
  intro k ks hlead
  cases words with
  | nil => cases h
  | cons w words =>
    rw [Phrase.eq_of_leadsKinds hlead]
    exact h

/-- So is finding where a clause opens. -/
theorem Clause.search_opens (c : Clause) : Search c.opens := by
  cases c <;> exact search_leadsKinds rfl

/-- So is finding where a clause ends. -/
theorem Clause.search_closes (c : Clause) : Search c.closes := by
  have hwords : ∀ words ∈ c.endingWords, words.head?.any Keyword.startsPhrase = true := by
    cases c <;> decide
  intro k ks h
  obtain ⟨words, hmem, hlead⟩ := List.any_eq_true.1 h
  exact search_leadsKinds (hwords words hmem) k ks hlead

namespace Search

variable {f : List Kind → Bool} (hf : Search f)

include hf

/-- A search does not stop at a token that starts no phrase. -/
theorem eq_false {k : Kind} (hk : k.startsPhrase = false) (ks : List Kind) :
    f (k :: ks) = false := by
  by_contra h
  rw [hf k ks (by simpa using h)] at hk
  cases hk

/-- A search passes over tokens without keywords of clauses. -/
theorem passes_append {ks ls : List Kind}
    (h : ∀ k ∈ ks, k.startsPhrase = false ∧ k ≠ .openParen) (hls : Passes f ls) :
    Passes f (ks ++ ls) := by
  induction ks with
  | nil => exact hls
  | cons k ks ih =>
    obtain ⟨hk, hopen⟩ := h k (by simp)
    refine .cons (hf.eq_false hk) ?_ (ih fun l hl => h l (by simp [hl]))
    cases k <;> first | rfl | exact absurd rfl hopen

/-- A search passes tokens that start no phrase, outside parentheses. -/
theorem passes {ks : List Kind} (h : ∀ k ∈ ks, k.startsPhrase = false ∧ k ≠ .openParen) :
    Passes f ks := by
  have := hf.passes_append h passes_nil
  rwa [List.append_nil] at this

theorem passes_group {ks : List Kind} (h : level? 0 ks = some 0) :
    Passes f (.openParen :: (ks ++ [.closeParen])) :=
  Kind.passes_group (hf.eq_false rfl) h

end Search

/-- A search that looks at the first token, and behind it for no more than a `BY`. -/
def Near (f : List Kind → Bool) : Prop :=
  ∀ k ks rest, f (k :: (ks ++ rest)) = true → headIs (· == .keyword .BY) rest = false →
    ∀ rest', f (k :: (ks ++ rest')) = true

/-- A phrase is recognised by a word, or by a word and `BY`. -/
theorem near_leadsKinds {words : List Keyword} (h : ∃ w, words = [w] ∨ words = [w, .BY]) :
    Near (Phrase.leadsKinds words) := by
  intro k ks rest hlead hrest rest'
  obtain ⟨w, rfl | rfl⟩ := h
  · simpa [Phrase.leadsKinds, List.isPrefixOf] using hlead
  · cases ks with
    | nil =>
      cases rest with
      | nil => simp [Phrase.leadsKinds, List.isPrefixOf] at hlead
      | cons l rest =>
        simp only [Phrase.leadsKinds, List.map_cons, List.map_nil, List.nil_append, List.isPrefixOf,
          Bool.and_true, Bool.and_eq_true, beq_iff_eq] at hlead
        rw [headIs_cons, ← hlead.2] at hrest
        cases hrest
    | cons l ks => simpa [Phrase.leadsKinds, List.isPrefixOf] using hlead

theorem Clause.near_closes (c : Clause) : Near c.closes := by
  have hwords : ∀ words ∈ c.endingWords, ∃ w, words = [w] ∨ words = [w, .BY] := by
    cases c <;> simp [endingWords]
  intro k ks rest h hrest rest'
  obtain ⟨words, hmem, hlead⟩ := List.any_eq_true.1 h
  exact List.any_eq_true.2 ⟨words, hmem, near_leadsKinds (hwords words hmem) k ks rest hlead hrest rest'⟩

/-- Tokens that a search does not stop at where they stand do not stop it elsewhere. -/
theorem passes_of_clear {f : List Kind → Bool} (hf : Near f) {ks rest : List Kind}
    (htop : depth 0 ks = 0) (h : Clear f 0 ks rest) : Passes f ks := by
  refine ⟨htop, fun {rest'} hrest' => ?_⟩
  clear htop
  generalize 0 = d at h ⊢
  induction ks generalizing d with
  | nil => trivial
  | cons k ks ih =>
    refine ⟨fun hd => ?_, ih _ h.2⟩
    by_contra hfound
    have := hf k ks rest' (by simpa using hfound) hrest' rest
    rw [h.1 hd] at this
    cases this

/-- Words apart from each other do not make up a phrase of two words. -/
theorem passes_of_apart {f : List Kind → Bool} {ks : List Kind}
    (hf : ∀ k ∈ ks, ∀ ls, f (k :: ls) = true →
      k.isWord = true ∧ headIs (· == .keyword .BY) ls = true)
    (hgroup : ∀ k ∈ ks, k ≠ .openParen ∧ k ≠ .closeParen)
    (hapart : ∀ as k l bs, ks = as ++ k :: l :: bs → k.isWord = true → l.isWord = false) :
    Passes f ks := by
  refine ⟨depth_of_level? (level?_of_no_group hgroup 0), fun {rest} hrest => ?_⟩
  generalize 0 = d
  induction ks generalizing d with
  | nil => trivial
  | cons k ks ih =>
    refine ⟨fun _ => ?_, ih (fun l hl => hf l (by simp [hl])) (fun l hl => hgroup l (by simp [hl]))
      (fun as l m bs hks => hapart (k :: as) l m bs (by rw [hks]; rfl)) _⟩
    by_contra hfound
    obtain ⟨hword, hby⟩ := hf k (by simp) _ (by simpa using hfound)
    cases ks with
    | nil =>
      rw [List.nil_append, hrest] at hby
      cases hby
    | cons l ks =>
      have hl := hapart [] k l ks rfl hword
      rw [List.cons_append, headIs_cons, beq_iff_eq] at hby
      rw [hby] at hl
      cases hl

/-- Where one search passes, a narrower one does too. -/
theorem Kind.Passes.imp {f g : List Kind → Bool} {ks : List Kind} (h : Passes g ks)
    (hfg : ∀ ls, f ls = true → g ls = true) : Passes f ks :=
  ⟨h.top, fun hrest => (h.clear hrest).imp hfg⟩

end Soql
