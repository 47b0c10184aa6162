import Mathlib.Computability.Language
import Soql.Proofs.Token.Lexeme

/-!
# Patterns of texts

A pattern is a regular language over the characters. It is made of classes of characters and fixed
texts by choice (`+`), sequence (`*`) and repetition (`∗`), so it says what a text looks like
without saying how it is read. A pattern that starts with a class takes a text apart at its first
character.
-/

namespace Soql

open scoped Computability

namespace Pattern

/-- A single character of a class. -/
def one (p : Char → Prop) : Language Char :=
  {s | ∃ c, s = [c] ∧ p c}

/-- A single character from `first` to `last`, in the order of code points. -/
def between (first last : Char) : Language Char :=
  one fun c => first ≤ c ∧ c ≤ last

/-- A text as it stands. -/
def fixed (text : Text) : Language Char :=
  {text}

/-- A text in any case. -/
def anyCase (text : Text) : Language Char :=
  {s | Text.eqIgnoreCase s text = true}

/-- One or more in a row. -/
def several (l : Language Char) : Language Char :=
  l * l∗

/-- One or none. -/
def maybe (l : Language Char) : Language Char :=
  1 + l

/-- An ASCII digit. -/
def digit : Language Char :=
  between '0' '9'

section Membership

variable {p q : Char → Prop} {l : Language Char} {c : Char} {s text : Text}

theorem mem_one : s ∈ one p ↔ ∃ c, s = [c] ∧ p c :=
  Iff.rfl

theorem mem_fixed : s ∈ fixed text ↔ s = text :=
  Iff.rfl

/-- A keyword matches its spellings in any case. -/
theorem mem_anyCase : s ∈ anyCase text ↔ Text.eqIgnoreCase s text = true :=
  Iff.rfl

/-- An optional part is left out or there. -/
theorem mem_maybe : s ∈ maybe l ↔ s = [] ∨ s ∈ l := by
  rw [maybe, Language.mem_add, Language.mem_one]

theorem one_congr (h : ∀ c, p c ↔ q c) : one p = one q := by
  rw [funext fun c => propext (h c)]

/-- A choice between two classes of characters is a class of characters. -/
theorem one_add_one : one p + one q = one fun c => p c ∨ q c := by
  ext s
  rw [Language.mem_add, mem_one, mem_one, mem_one]
  constructor
  · rintro (⟨c, rfl, h⟩ | ⟨c, rfl, h⟩)
    · exact ⟨c, rfl, .inl h⟩
    · exact ⟨c, rfl, .inr h⟩
  · rintro ⟨c, rfl, h | h⟩
    · exact .inl ⟨c, rfl, h⟩
    · exact .inr ⟨c, rfl, h⟩

theorem fixed_singleton (c : Char) : fixed [c] = one (· = c) := by
  ext s
  rw [mem_fixed, mem_one]
  exact ⟨fun h => ⟨c, h, rfl⟩, fun ⟨_, h, hc⟩ => hc ▸ h⟩

theorem between_eq (first last : Char) :
    between first last = one fun c => first.toNat ≤ c.toNat ∧ c.toNat ≤ last.toNat :=
  rfl

theorem digit_eq : digit = one fun c => c.isDigit = true :=
  one_congr fun _ => Token.isDigit_iff.symm

/-- A pattern that starts with a fixed text. -/
theorem mem_fixed_mul : s ∈ fixed text * l ↔ ∃ t ∈ l, s = text ++ t := by
  rw [Language.mem_mul]
  constructor
  · rintro ⟨_, rfl, t, ht, rfl⟩
    exact ⟨t, ht, rfl⟩
  · rintro ⟨t, ht, rfl⟩
    exact ⟨text, rfl, t, ht, rfl⟩

theorem mem_one_mul : s ∈ one p * l ↔ ∃ c t, s = c :: t ∧ p c ∧ t ∈ l := by
  rw [Language.mem_mul]
  constructor
  · rintro ⟨_, ⟨c, rfl, hc⟩, t, ht, rfl⟩
    exact ⟨c, t, rfl, hc, ht⟩
  · rintro ⟨c, t, rfl, hc, ht⟩
    exact ⟨[c], ⟨c, rfl, hc⟩, t, ht, rfl⟩

theorem cons_mem_one_mul : c :: s ∈ one p * l ↔ p c ∧ s ∈ l := by
  rw [mem_one_mul]
  constructor
  · rintro ⟨d, t, hcons, hd, ht⟩
    obtain ⟨rfl, rfl⟩ := List.cons.inj hcons
    exact ⟨hd, ht⟩
  · exact fun ⟨hc, hs⟩ => ⟨c, s, rfl, hc, hs⟩

/-- A repetition is nothing, or one of what is repeated and a repetition again. -/
@[elab_as_elim]
theorem kstar_induction {motive : Text → Prop} (hs : s ∈ l∗) (nil : motive [])
    (step : ∀ t ∈ l, ∀ s, motive s → motive (t ++ s)) : motive s := by
  obtain ⟨ts, rfl, hts⟩ := Language.mem_kstar.1 hs
  clear hs
  induction ts with
  | nil => exact nil
  | cons t ts ih =>
    rw [List.forall_mem_cons] at hts
    exact step t hts.1 _ (ih hts.2)

theorem append_mem_kstar (hs : s ∈ l) {t : Text} (ht : t ∈ l∗) : s ++ t ∈ l∗ :=
  Set.mem_of_mem_of_subset (Language.append_mem_mul hs ht) (mul_kstar_le_kstar (a := l))

/-- A repeated class of characters matches the texts over the class. -/
theorem mem_kstar_one : s ∈ (one p)∗ ↔ ∀ c ∈ s, p c := by
  constructor
  · intro h
    refine kstar_induction h ?_ ?_
    · simp
    · rintro _ ⟨c, rfl, hc⟩ s ih
      exact List.forall_mem_cons.2 ⟨hc, ih⟩
  · intro h
    induction s with
    | nil => exact Language.nil_mem_kstar _
    | cons c s ih =>
      rw [List.forall_mem_cons] at h
      exact append_mem_kstar (mem_one.2 ⟨c, rfl, h.1⟩) (ih h.2)

theorem cons_mem_several_one : c :: s ∈ several (one p) ↔ p c ∧ ∀ d ∈ s, p d := by
  rw [several, cons_mem_one_mul, mem_kstar_one]

/-- The texts over a class that are not empty. -/
theorem mem_several_one : s ∈ several (one p) ↔ s ≠ [] ∧ ∀ c ∈ s, p c := by
  cases s with
  | nil => simp [several, mem_one_mul]
  | cons c s => simp [cons_mem_several_one]

end Membership

end Pattern

end Soql
