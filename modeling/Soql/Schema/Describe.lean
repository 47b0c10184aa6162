import Soql.Schema.FieldType
import Soql.Schema.NameMap

/-!
# Describes

A describe is what is known of an object: its name and label, and its fields under their names. A
describe may be a sample, which stands in when the real one is not at hand.
-/

namespace Soql.Schema

/-- A field of an object. A field that refers to other objects may have a relationship name, by
which paths go through it. -/
structure Field where
  name : Text
  fieldType : FieldType
  nillable : Bool
  referenceTo : List Text
  relationshipName : Option Text
  deriving DecidableEq

namespace Field

/-- A field that may be null and refers to nothing. -/
def ofType (name : Text) (fieldType : FieldType) : Field :=
  { name, fieldType, nillable := true, referenceTo := [], relationshipName := none }

/-- A field that refers to one more object. -/
def withReference (f : Field) (object : Text) : Field :=
  { f with referenceTo := f.referenceTo ++ [object] }

/-- A field with a relationship name. -/
def withRelationshipName (f : Field) (name : Text) : Field :=
  { f with relationshipName := some name }

/-- A field that may be null, or may not. -/
def withNillable (f : Field) (nillable : Bool) : Field :=
  { f with nillable }

/-- The field refers to some object. -/
def isRelationship (f : Field) : Bool :=
  !f.referenceTo.isEmpty

end Field

/-- What is known of an object. -/
structure Describe where
  name : Text
  label : Text
  fields : NameMap Field
  isDemo : Bool

namespace Describe

/-- An object without fields, labelled by its name. -/
def ofName (name : Text) : Describe :=
  { name, label := name, fields := NameMap.empty, isDemo := false }

/-- A describe with another label. -/
def withLabel (d : Describe) (label : Text) : Describe :=
  { d with label }

/-- A describe that is a sample, or is not. -/
def withDemo (d : Describe) (isDemo : Bool) : Describe :=
  { d with isDemo }

/-- A describe with one more field, in place of one with the same name. -/
def addField (d : Describe) (f : Field) : Describe :=
  { d with fields := d.fields.insert f.name f }

/-- The field with a name. -/
def getField? (d : Describe) (name : Text) : Option Field :=
  d.fields.get? name

/-- Some field has a name. -/
def hasField (d : Describe) (name : Text) : Bool :=
  d.fields.contains name

end Describe

end Soql.Schema
