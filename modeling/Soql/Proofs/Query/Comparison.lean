import Soql.Proofs.Query.Condition
import Soql.Proofs.Query.Search

/-!
# Conditions in a chain

Conditions are written with `AND` between them and a clause behind them. They are read back one by
one when no field and no value closes the clause or connects conditions outside parentheses;
`ReadsAlone` states that for a part of a condition.
-/

namespace Soql

open Kind Token

/-- The words that end a condition on their own. -/
def Keyword.endsCondition : Keyword → Bool
  | .AND | .OR | .LIMIT | .OFFSET | .HAVING | .WITH | .FOR => true
  | _ => false

/-- A word that ends a condition on its own. -/
def Kind.endsCondition : Kind → Bool
  | .keyword k => k.endsCondition
  | _ => false

/-- Read at the end of a condition, or before an operator, a text neither ends it nor the clause. -/
structure ReadsAlone (s : Text) : Prop where
  closed : Closed s
  balanced : Balanced (kindsOf s)
  connects : Clear (headIs Kind.isConnective) 0 (kindsOf s) []
  passes : Passes Clause.condition.closes (kindsOf s)

/-- What closes a condition. -/
theorem Clause.of_condition_closes {k : Kind} {ks : List Kind}
    (h : Clause.condition.closes (k :: ks) = true) : k.endsCondition = true ∨
      k.isWord = true ∧ headIs (· == .keyword .BY) ks = true := by
  cases k with
  | keyword w =>
    cases w <;> first
      | exact .inl rfl
      | cases h
      | (refine .inr ⟨rfl, ?_⟩
         cases ks with
         | nil => cases h
         | cons l ks =>
           have hl : Kind.keyword .BY = l := by
             simpa [closes, endingWords, Phrase.leadsKinds, List.isPrefixOf] using h
           rw [headIs_cons, ← hl]
           rfl)
  | _ => cases h

/-- A word that ends conditions ends the clause of conditions, unless it connects them. -/
theorem Clause.condition_closes {k : Kind} (hk : k.endsCondition = true)
    (hconnective : k.isConnective = false) (ks : List Kind) :
    Clause.condition.closes (k :: ks) = true := by
  cases k with
  | keyword w =>
    cases w <;> first | rfl | exact absurd hk (by decide) | exact absurd hconnective (by decide)
  | _ => cases hk

/-- The words of an operator neither open a clause nor connect conditions. -/
theorem Operator.quiet_spelling (op : Operator) : ∀ k ∈ kindsOf op.spelling,
    k.startsPhrase = false ∧ k.isConnective = false ∧ k ≠ .openParen ∧ k ≠ .closeParen ∧
      k ≠ .keyword .BY := by
  rw [kindsOf, Operator.tokenize_spelling]
  cases op <;> decide

namespace Condition

/-- A condition has the kinds of its three parts. -/
theorem kindsOf_write {c : Condition} (h : Closed c.field) : kindsOf c.write =
    kindsOf c.field ++ (kindsOf c.operator.spelling ++ kindsOf c.rawValue) := by
  rw [write, kindsOf_space (h.space _ c.operator.closed_spelling), kindsOf_space h,
    List.append_assoc]

/-- A search passes over a condition if it passes over its field and its value. -/
theorem passes_write {f : List Kind → Bool} (hf : Search f) {c : Condition} (h : Closed c.field)
    (hfield : Passes f (kindsOf c.field)) (hvalue : Passes f (kindsOf c.rawValue)) :
    Passes f (kindsOf c.write) := by
  have hop := c.operator.quiet_spelling
  rw [kindsOf_write h]
  refine hfield.append (hf.passes_append (fun k hk => ⟨(hop k hk).1, (hop k hk).2.2.1⟩) hvalue) ?_
  obtain ⟨k, ks, hk⟩ := List.exists_cons_of_ne_nil c.operator.spelling_ne_nil
  rw [hk, List.cons_append, headIs_cons, beq_eq_false_iff_ne]
  exact (hop k (by simp [hk])).2.2.2.2

end Condition

namespace ReadsAlone

/-- Blanks at the end do not matter. -/
theorem trimEnd {s : Text} (h : ReadsAlone s) : ReadsAlone s.trimEnd := by
  obtain ⟨ks, hks, hall⟩ := exists_kinds_trimRight (stretch_tokenize h.closed).reads_nil
  rw [← tokenize_trimEnd h.closed] at hks
  have hkinds : kindsOf s = kindsOf s.trimEnd ++ ks := hks
  have hbal := h.balanced
  have hconnects := h.connects
  have hpass : Clear Clause.condition.closes 0 (kindsOf s) [] := h.passes.clear rfl
  rw [hkinds] at hbal hconnects hpass
  obtain ⟨d, hd, hd'⟩ := level?_append_eq_some_iff.1 hbal
  rw [level?_of_all hall, Option.some.injEq] at hd'
  subst hd'
  refine ⟨?_, hd, (clear_append_iff.1 hconnects).1.head _,
    passes_of_clear (Clause.near_closes _) (depth_of_level? hd) (clear_append_iff.1 hpass).1⟩
  rw [Closed, tokenize_trimEnd h.closed]
  exact hasUnclosed_trimRight h.closed

/-- A condition reads alone when its field and its value do. -/
theorem write {c : Condition} (hfield : ReadsAlone c.field) (hvalue : ReadsAlone c.rawValue) :
    ReadsAlone c.write := by
  have hop := c.operator.quiet_spelling
  have hopbal : Balanced (kindsOf c.operator.spelling) :=
    level?_of_no_group (fun k hk => ⟨(hop k hk).2.2.1, (hop k hk).2.2.2.1⟩) 0
  refine ⟨Condition.closed_write hfield.closed hvalue.closed, ?_, ?_,
    Condition.passes_write Clause.condition.search_closes hfield.closed hfield.passes hvalue.passes⟩
  · rw [Condition.kindsOf_write hfield.closed]
    exact hfield.balanced.append (hopbal.append hvalue.balanced)
  · have hopclear : Clear (headIs Kind.isConnective) 0 (kindsOf c.operator.spelling)
        (kindsOf c.rawValue) := clear_of_forall fun k hk ls => (hop k hk).2.1
    rw [Condition.kindsOf_write hfield.closed, clear_append_iff, clear_append_iff,
      depth_of_level? hfield.balanced, depth_of_level? hopbal]
    exact ⟨hfield.connects.head _, hopclear.head _, hvalue.connects⟩

end ReadsAlone

/-- A condition that is read back from a chain in which it is written. -/
structure Condition.ReadsBack (c : Condition) : Prop where
  field : Piece c.field
  isField : IsField (kindsOf c.field)
  field_alone : ReadsAlone c.field
  value_alone : ReadsAlone c.rawValue
  value_ne_nil : c.rawValue.trim ≠ []

namespace Condition.ReadsBack

/-- A condition that is read back is read without what stands around it. -/
theorem alone {c : Condition} (h : c.ReadsBack) : ReadsAlone c.write :=
  .write h.field_alone h.value_alone

theorem field_ne_nil {c : Condition} (h : c.ReadsBack) : c.field ≠ [] := by
  obtain ⟨k, ks, hk, -⟩ := h.isField.isWord_head
  exact ne_nil_of_kindsOf hk

theorem write_ne_nil (c : Condition) : c.write ≠ [] := by
  simp [write]

/-- A condition without the blanks behind its value. -/
theorem trimEnd {c : Condition} (h : c.ReadsBack) :
    { c with rawValue := c.rawValue.trimEnd }.ReadsBack where
  field := h.field
  isField := h.isField
  field_alone := h.field_alone
  value_alone := h.value_alone.trimEnd
  value_ne_nil := by
    rw [Text.trim_trimEnd]
    exact h.value_ne_nil

/-- Blanks behind a condition are blanks behind its value. -/
theorem trimEnd_write {c : Condition} (h : c.ReadsBack) :
    c.write.trimEnd = { c with rawValue := c.rawValue.trimEnd }.write := by
  have hvalue : Text.trimEnd (' ' :: c.rawValue) = ' ' :: c.rawValue.trimEnd :=
    Text.trimEnd_append_of_not_blank [' '] (Text.trimEnd_ne_nil h.value_ne_nil)
  rw [write, write, Text.trimEnd_append_of_not_blank _ (by rw [hvalue]; simp), hvalue]

theorem trimStart_append {c : Condition} (h : c.ReadsBack) (s : Text) :
    Text.trimStart (c.write ++ s) = c.write ++ s := by
  refine Text.trimStart_eq_self fun x hx => ?_
  rw [write, List.append_assoc, List.append_assoc, List.head?_append_of_ne_nil _ h.field_ne_nil] at hx
  exact h.field.tight.first x hx

/-- A condition loses only the blanks behind its value. -/
theorem trim_write {c : Condition} (h : c.ReadsBack) :
    c.write.trim = { c with rawValue := c.rawValue.trimEnd }.write := by
  have := h.trimStart_append []
  rw [List.append_nil] at this
  rw [Text.trim, this, h.trimEnd_write]

/-- A trimmed condition is read back with its value trimmed. -/
theorem ofText?_trim {c : Condition} (h : c.ReadsBack) :
    ofText? c.write.trim = some { c with rawValue := c.rawValue.trim } := by
  rw [h.trim_write, ofText?_write h.trimEnd.field h.trimEnd.isField, Text.trim_trimEnd]

/-- A chain of conditions is taken apart into the conditions that it is made of. -/
theorem splitConditions_join {cs : List Condition} (h : ∀ c ∈ cs, c.ReadsBack) :
    splitConditions (Text.join " AND ".toList (cs.map write)) = cs.map (·.write.trim) := by
  have hxs : ∀ x ∈ cs.map write, ReadsAlone x := by
    simp only [List.mem_map, forall_exists_index, and_imp, forall_apply_eq_imp_iff₂]
    exact fun c hc => (h c hc).alone
  rw [splitConditions_eq, separator_and.splitParts_join (fun x hx => (hxs x hx).closed)
    (fun x hx => (hxs x hx).connects)
    fun x hx => depth_of_level? (hxs x (List.dropLast_subset _ hx)).balanced]
  rw [List.map_map, List.filter_eq_self.2]
  · rfl
  · intro x hx
    obtain ⟨c, hc, rfl⟩ := List.mem_map.1 hx
    have := (h c hc).ofText?_trim
    simp only [Function.comp_apply, Bool.not_eq_true', List.isEmpty_eq_false_iff]
    intro hnil
    rw [hnil, ofText?_nil] at this
    cases this

/-- The blanks behind a chain are those behind its last value. -/
theorem exists_trimEnd_join {cs : List Condition} (h : ∀ c ∈ cs, c.ReadsBack) :
    ∃ cs' : List Condition, (∀ c ∈ cs', c.ReadsBack) ∧
      cs'.map (·.write.trim) = cs.map (·.write.trim) ∧
        Text.trimEnd (Text.join " AND ".toList (cs.map write)) =
          Text.join " AND ".toList (cs'.map write) := by
  match cs with
  | [] => exact ⟨[], by simp, rfl, rfl⟩
  | [c] =>
    have hc := h c (by simp)
    refine ⟨[{ c with rawValue := c.rawValue.trimEnd }], by simpa using hc.trimEnd, ?_, ?_⟩
    · rw [List.map_singleton, List.map_singleton, ← hc.trimEnd_write, Text.trim_trimEnd]
    · exact hc.trimEnd_write
  | c :: d :: cs =>
    obtain ⟨cs', hread, hmap, hjoin⟩ := exists_trimEnd_join fun x hx => h x (List.mem_cons_of_mem c hx)
    refine ⟨c :: cs', ?_, congrArg (c.write.trim :: ·) hmap, ?_⟩
    · rintro x (_ | ⟨_, hx⟩)
      · exact h c (by simp)
      · exact hread x hx
    · cases cs' with
      | nil => cases hmap
      | cons e es =>
        have hne : Text.trimEnd (Text.join " AND ".toList ((d :: cs).map write)) ≠ [] := by
          rw [hjoin]
          exact Text.join_ne_nil _ (write_ne_nil e) _
        rw [List.map_cons, List.map_cons, List.map_cons, List.map_cons, Text.join, Text.join,
          ← List.map_cons, ← List.map_cons, Text.trimEnd_append_of_not_blank _ hne, hjoin]

/-- Conditions between connectives are told apart again. -/
theorem splitConditions_trim_join {cs : List Condition} (h : ∀ c ∈ cs, c.ReadsBack) :
    splitConditions (Text.join " AND ".toList (cs.map write)).trim = cs.map (·.write.trim) := by
  obtain ⟨cs', hread, hmap, hjoin⟩ := exists_trimEnd_join h
  have hstart : Text.trimStart (Text.join " AND ".toList (cs.map write)) =
      Text.join " AND ".toList (cs.map write) := by
    cases cs with
    | nil => rfl
    | cons c cs =>
      cases cs with
      | nil =>
        have := (h c (by simp)).trimStart_append []
        rwa [List.append_nil] at this
      | cons d cs =>
        rw [List.map_cons, List.map_cons, Text.join, List.append_assoc]
        exact (h c (by simp)).trimStart_append _
  rw [Text.trim, hstart, hjoin, splitConditions_join hread, hmap]

end Condition.ReadsBack

/-- A search that stops at phrases only passes over a chain of conditions if it passes over each. -/
theorem Search.passes_chain {f : List Kind → Bool} (hf : Search f) {xs : List Text}
    (hclosed : ∀ x ∈ xs, Closed x) (h : ∀ x ∈ xs, Passes f (kindsOf x)) :
    Passes f (kindsOf (Text.join " AND ".toList xs)) := by
  refine separator_and.passes_join (fun k ks hk => ?_) hclosed h
  rw [Kind.isConnective, Bool.or_eq_true, beq_iff_eq, beq_iff_eq] at hk
  rcases hk with rfl | rfl <;> exact ⟨hf.eq_false rfl ks, rfl, by simp⟩

/-- A chain of conditions is read alone. -/
theorem ReadsAlone.join {xs : List Text} (h : ∀ x ∈ xs, ReadsAlone x) :
    Closed (Text.join " AND ".toList xs) ∧ Balanced (kindsOf (Text.join " AND ".toList xs)) ∧
      Passes Clause.condition.closes (kindsOf (Text.join " AND ".toList xs)) := by
  have hclosed : ∀ x ∈ xs, Closed x := fun x hx => (h x hx).closed
  exact ⟨separator_and.closed_join hclosed,
    separator_and.balanced_join (fun _ => no_group_of_isConnective) hclosed fun x hx =>
      (h x hx).balanced,
    Clause.condition.search_closes.passes_chain hclosed fun x hx => (h x hx).passes⟩

end Soql
