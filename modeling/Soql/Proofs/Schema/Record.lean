import Soql.Proofs.Json.Record
import Soql.Proofs.Schema.Describe
import Soql.Proofs.Text.ByteOrder
import Soql.Schema.Record

/-!
# Describes survive their exchange

The record of a describe lists each stored field once, in the order of the bytes of their names
(`Lists`). A describe that is read from it is the same to everyone who asks (`SameAs`), although
the fields come back in another order: no two of them have one name.
-/

namespace Soql.Schema

/-- The types of fields are told apart by their names. -/
theorem FieldType.ofTypeName_typeName (type : FieldType) : ofTypeName type.typeName = type := by
  cases type <;> decide

namespace FieldRecord

theorem toField_ofField (f : Field) : (ofField f).toField = f := by
  rw [toField, ofField, FieldType.ofTypeName_typeName]

theorem ofJson?_toJson (r : FieldRecord) : ofJson? r.toJson = some r := by
  obtain ⟨name, typeName, nillable, referenceTo, relationshipName⟩ := r
  cases relationshipName with
  | none =>
    rw [ofJson?, toJson, Json.record?_zip (by decide) 1 rfl]
    simp
  | some relationship =>
    rw [ofJson?, toJson, Json.record?_zip (by decide) 0 rfl]
    simp [Json.nullable?]

end FieldRecord

namespace DescribeRecord

/-- The second of the flags that mark a sample is not written. -/
theorem ofJson?_toJson (r : DescribeRecord) : ofJson? r.toJson = some { r with mock := false } := by
  rw [ofJson?, toJson, Json.record?_zip (by decide) 1 rfl]
  simp [Json.listOf?_map FieldRecord.ofJson?_toJson]

/-- The describe that a record gives has the fields of the record, added in its order. -/
theorem toDescribe_eq (r : DescribeRecord) : r.toDescribe =
    (r.fields.map FieldRecord.toField).foldl Describe.addField
      (((Describe.ofName r.name).withDemo (r.demo || r.mock)).withLabel
        (r.label.getD r.name)) := by
  rw [toDescribe, List.foldl_map]
  cases r.label <;> rfl

/-- A record lists the fields of a describe: each stored field once, by increasing name. -/
structure Lists (r : DescribeRecord) (d : Describe) : Prop where
  increasing : r.fields.Pairwise fun a b => Text.bytes a.name < Text.bytes b.name
  perm : r.fields.Perm (d.fields.values.map FieldRecord.ofField)

/-- The record of a description lists its fields. -/
theorem lists_ofDescribe {d : Describe} (h : d.Keyed) : (ofDescribe d).Lists d := by
  have hperm : (ofDescribe d).fields.Perm (d.fields.values.map FieldRecord.ofField) :=
    List.mergeSort_perm ..
  refine ⟨?_, hperm⟩
  have hsorted : (ofDescribe d).fields.Pairwise fun a b => Text.le a.name b.name = true :=
    List.pairwise_mergeSort
      (fun (a b c : FieldRecord) => @Text.le_of_le_of_le a.name b.name c.name)
      (fun (a b : FieldRecord) => Text.le_or_le a.name b.name) _
  have hdistinct : ((ofDescribe d).fields.map FieldRecord.name).Nodup := by
    rw [(hperm.map FieldRecord.name).nodup_iff, List.map_map]
    have hlower : ((d.fields.values.map Field.name).map Text.lowercase).Nodup := by
      rw [List.map_map]
      exact h.distinct
    exact hlower.of_map
  exact hsorted.imp₂ (fun a b hle hne => Text.bytes_lt_of_le hle hne)
    (List.pairwise_map.1 hdistinct)

end DescribeRecord

namespace Describe

/-- No question tells two describes apart. -/
structure SameAs (c d : Describe) : Prop where
  name_eq : c.name = d.name
  label_eq : c.label = d.label
  isDemo_eq : c.isDemo = d.isDemo
  getField?_eq : ∀ name, c.getField? name = d.getField? name

theorem foldl_addField_texts (fs : List Field) (d : Describe) :
    (fs.foldl addField d).name = d.name ∧ (fs.foldl addField d).label = d.label ∧
      (fs.foldl addField d).isDemo = d.isDemo := by
  induction fs generalizing d with
  | nil => exact ⟨rfl, rfl, rfl⟩
  | cons f fs ih => exact ih (d.addField f)

/-- The fields of a record are those that are stored, in some order. As no two of them have one
name, it does not matter which of them is added last. -/
theorem sameAs_toDescribe {d : Describe} (h : d.Keyed) :
    (DescribeRecord.ofDescribe d).toDescribe.SameAs d := by
  rw [DescribeRecord.toDescribe_eq]
  obtain ⟨hname, hlabel, hdemo⟩ := foldl_addField_texts
    ((DescribeRecord.ofDescribe d).fields.map FieldRecord.toField)
    (((ofName d.name).withDemo (d.isDemo || false)).withLabel d.label)
  refine ⟨hname, hlabel, hdemo.trans (Bool.or_false _), fun name => ?_⟩
  have hperm : ((DescribeRecord.ofDescribe d).fields.map FieldRecord.toField).Perm
      d.fields.values := by
    have hback : FieldRecord.toField ∘ FieldRecord.ofField = id :=
      funext FieldRecord.toField_ofField
    have hfields := (DescribeRecord.lists_ofDescribe h).perm.map FieldRecord.toField
    rwa [List.map_map, hback, List.map_id] at hfields
  have hdistinct := h.distinct
  rw [← (hperm.map fun f => Text.lowercase f.name).nodup_iff] at hdistinct
  rw [getField?_foldl_addField]
  refine (Option.or_none ..).trans (Option.ext fun f => ?_)
  rw [lastNamed?_eq_some_iff hdistinct, h.getField?_eq_some_iff, hperm.mem_iff]

/-- A describe holds, of the fields that were added under a name, the last one. Its record lists the
stored fields once each by increasing name, and what is read back from the record, or from what is
written of it in JSON, is the same describe to everyone who asks. -/
theorem exchange_ofChanges (name : Text) (changes : List Change) :
    (ofChanges name changes).Holds (changes.filterMap Change.field?) ∧
    (DescribeRecord.ofDescribe (ofChanges name changes)).Lists (ofChanges name changes) ∧
    (DescribeRecord.ofDescribe (ofChanges name changes)).toDescribe.SameAs
      (ofChanges name changes) ∧
    ofJson? (ofChanges name changes).toJson =
      some (DescribeRecord.ofDescribe (ofChanges name changes)).toDescribe := by
  have hkeyed := keyed_ofChanges name changes
  refine ⟨holds_ofChanges name changes, DescribeRecord.lists_ofDescribe hkeyed,
    sameAs_toDescribe hkeyed, ?_⟩
  rw [ofJson?, toJson, DescribeRecord.ofJson?_toJson]
  rfl

end Describe

end Soql.Schema
