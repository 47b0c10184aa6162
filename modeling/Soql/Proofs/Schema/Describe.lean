import Mathlib.Data.List.Basic
import Soql.Proofs.Schema.NameMap
import Soql.Schema.Describe

/-!
# Describes in the making

A describe is made from a name by changes of its label, its mark as a sample and its fields. Of the
fields that were added under a name, in any case, the last one is found (`Holds`), and it is the
only one of them that is stored. The other changes do not touch the fields.
-/

namespace Soql.Schema

/-- The field has a name, up to case. -/
def Field.isNamed (f : Field) (name : Text) : Bool :=
  Text.lowercase f.name == Text.lowercase name

namespace Describe

/-- Something that is changed while a describe is made. -/
inductive Change
  | label (label : Text)
  | demo (isDemo : Bool)
  | field (f : Field)

/-- The field that a change adds. -/
def Change.field? : Change → Option Field
  | .field f => some f
  | _ => none

/-- The describe after a change. -/
def change (d : Describe) : Change → Describe
  | .label label => d.withLabel label
  | .demo isDemo => d.withDemo isDemo
  | .field f => d.addField f

/-- The describe that some changes make of an object without fields. -/
def ofChanges (name : Text) (changes : List Change) : Describe :=
  changes.foldl change (ofName name)

/-- The last of some fields that has a name. -/
def lastNamed? (name : Text) (fs : List Field) : Option Field :=
  fs.reverse.find? (·.isNamed name)

/-- A describe holds the fields that were added to it: under each name the last one is found, and
the names of the stored fields are those of the added ones, up to case, each once. -/
structure Holds (d : Describe) (added : List Field) : Prop where
  getField?_eq : ∀ name, d.getField? name = lastNamed? name added
  hasField_eq : ∀ name, d.hasField name = (lastNamed? name added).isSome
  distinct : (d.fields.values.map fun f => Text.lowercase f.name).Nodup
  names : ∀ key, key ∈ d.fields.values.map (fun f => Text.lowercase f.name) ↔
    key ∈ added.map fun f => Text.lowercase f.name

section Fields

variable {d : Describe} {fs : List Field} {f : Field} {name : Text}

theorem lastNamed?_concat (fs : List Field) (f : Field) (name : Text) :
    lastNamed? name (fs ++ [f]) = if f.isNamed name = true then some f else lastNamed? name fs := by
  rw [lastNamed?, List.reverse_append, List.reverse_singleton, List.singleton_append,
    List.find?_cons]
  cases f.isNamed name <;> rfl

/-- The last field of a name is one of the fields, and has the name. -/
theorem of_lastNamed? (h : lastNamed? name fs = some f) :
    f ∈ fs ∧ Text.lowercase f.name = Text.lowercase name := by
  unfold lastNamed? at h
  have hnamed := List.find?_some h
  exact ⟨List.mem_reverse.1 (List.mem_of_find?_eq_some h), eq_of_beq hnamed⟩

theorem exists_lastNamed? (hf : f ∈ fs) (hname : Text.lowercase f.name = Text.lowercase name) :
    ∃ g, lastNamed? name fs = some g := by
  rw [← Option.isSome_iff_exists, lastNamed?, List.find?_isSome]
  exact ⟨f, List.mem_reverse.2 hf, beq_iff_eq.2 hname⟩

/-- Of fields with different names it does not matter which is the last. -/
theorem lastNamed?_eq_some_iff (hdistinct : (fs.map fun f => Text.lowercase f.name).Nodup) :
    lastNamed? name fs = some f ↔ f ∈ fs ∧ Text.lowercase f.name = Text.lowercase name := by
  refine ⟨of_lastNamed?, fun ⟨hf, hname⟩ => ?_⟩
  obtain ⟨g, hg⟩ := exists_lastNamed? hf hname
  obtain ⟨hmem, hgname⟩ := of_lastNamed? hg
  rw [hg, List.inj_on_of_nodup_map hdistinct hmem hf (hgname.trans hname.symm)]

/-- A field that is added is found, and the others are found as before. -/
theorem getField?_addField (f : Field) (name : Text) : (d.addField f).getField? name =
    if f.isNamed name = true then some f else d.getField? name := by
  rw [getField?, addField, NameMap.get?_insert]
  simp only [Field.isNamed, beq_iff_eq]
  rfl

/-- Of the fields that are added the last one of a name is found. -/
theorem getField?_foldl_addField (fs : List Field) (name : Text) :
    (fs.foldl addField d).getField? name = (lastNamed? name fs).or (d.getField? name) := by
  induction fs using List.reverseRecOn with
  | nil => rfl
  | append_singleton fs f ih =>
    rw [List.foldl_append, List.foldl_cons, List.foldl_nil, getField?_addField, ih,
      lastNamed?_concat]
    cases f.isNamed name <;> rfl

/-- Every stored field is under its own name. -/
def Keyed (d : Describe) : Prop :=
  ∀ e ∈ d.fields.entries, Text.lowercase e.2.name = e.1

/-- Adding fields keeps them under their names. -/
theorem keyed_foldl_addField (h : d.Keyed) (fs : List Field) : (fs.foldl addField d).Keyed := by
  induction fs generalizing d with
  | nil => exact h
  | cons f fs ih =>
    refine ih fun e he => ?_
    rcases d.fields.mem_insert_iff.1 he with ⟨hkey, hfield⟩ | ⟨hold, -⟩
    · rw [hkey, hfield]
    · exact h e hold

theorem Keyed.names_values (h : d.Keyed) :
    (d.fields.values.map fun f => Text.lowercase f.name) = d.fields.entries.map Prod.fst := by
  rw [NameMap.values, List.map_map]
  exact List.map_congr_left h

/-- No two fields of a description share a name, in any case. -/
theorem Keyed.distinct (h : d.Keyed) :
    (d.fields.values.map fun f => Text.lowercase f.name).Nodup :=
  h.names_values ▸ d.fields.distinct

/-- A field is found by its name, in any case. -/
theorem Keyed.getField?_eq_some_iff (h : d.Keyed) : d.getField? name = some f ↔
    f ∈ d.fields.values ∧ Text.lowercase f.name = Text.lowercase name := by
  rw [getField?, NameMap.get?_eq_some_iff]
  constructor
  · intro he
    exact ⟨List.mem_map_of_mem he, h _ he⟩
  · rintro ⟨hf, hname⟩
    obtain ⟨e, he, rfl⟩ := List.mem_map.1 hf
    rw [← hname, h e he]
    exact he

/-- What is found under every name settles what is stored. -/
theorem Keyed.holds (h : d.Keyed) (hfound : ∀ name, d.getField? name = lastNamed? name fs) :
    d.Holds fs := by
  refine ⟨hfound, fun name => hfound name ▸ rfl, h.distinct, ?_⟩
  intro key
  simp only [List.mem_map]
  constructor
  · rintro ⟨f, hf, rfl⟩
    have hmine := h.getField?_eq_some_iff.2 ⟨hf, rfl⟩
    exact ⟨f, (of_lastNamed? (hfound f.name ▸ hmine)).1, rfl⟩
  · rintro ⟨f, hf, rfl⟩
    obtain ⟨g, hg⟩ := exists_lastNamed? hf rfl
    obtain ⟨hstored, hname⟩ := h.getField?_eq_some_iff.1 ((hfound f.name).trans hg)
    exact ⟨g, hstored, hname⟩

end Fields

section Changes

variable (name : Text) (changes : List Change)

/-- The fields of a describe are those that were added one after another; the other changes leave
them as they are. -/
theorem fields_ofChanges : (ofChanges name changes).fields =
    ((changes.filterMap Change.field?).foldl addField (ofName name)).fields := by
  unfold ofChanges
  induction changes using List.reverseRecOn with
  | nil => rfl
  | append_singleton changes c ih =>
    rw [List.foldl_append, List.filterMap_append, List.foldl_append]
    cases c with
    | field f => exact congrArg (NameMap.insert · f.name f) ih
    | label label => exact ih
    | demo isDemo => exact ih

theorem keyed_ofName : (ofName name).Keyed := by
  rintro e he
  cases he

/-- A description that is built is keyed by the names of its fields. -/
theorem keyed_ofChanges : (ofChanges name changes).Keyed := by
  unfold Keyed
  rw [fields_ofChanges]
  exact keyed_foldl_addField (keyed_ofName name) _

/-- It holds the last field of each name among the changes. -/
theorem holds_ofChanges : (ofChanges name changes).Holds (changes.filterMap Change.field?) := by
  refine (keyed_ofChanges name changes).holds fun field => ?_
  rw [getField?, fields_ofChanges]
  exact (getField?_foldl_addField _ field).trans (Option.or_none ..)

end Changes

end Describe

end Soql.Schema
