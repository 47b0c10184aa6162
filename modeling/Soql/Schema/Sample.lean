import Soql.Schema.Describe

/-!
# Sample describes

Describes of some standard objects, for use when no real ones are at hand. They are marked as
samples, so a query on another object is not held against them.
-/

namespace Soql.Schema.Sample

/-- The objects that have a sample. -/
def objects : List Text :=
  ["Account", "Contact", "Opportunity", "Case", "User"].map String.toList

/-- A field that may be null. -/
def plain (name : String) (fieldType : FieldType) : Field :=
  Field.ofType name.toList fieldType

/-- A field that may not be null. -/
def required (name : String) (fieldType : FieldType) : Field :=
  (plain name fieldType).withNillable false

/-- A field that refers to an object, with a relationship name. -/
def lookup (name object relationship : String) : Field :=
  ((plain name .reference).withReference object.toList).withRelationshipName relationship.toList

/-- The fields that every object has. -/
def systemFields : List Field :=
  [ required "Id" .id,
    lookup "CreatedById" "User" "CreatedBy",
    plain "CreatedDate" .dateTime,
    lookup "LastModifiedById" "User" "LastModifiedBy",
    plain "LastModifiedDate" .dateTime,
    plain "SystemModstamp" .dateTime,
    plain "IsDeleted" .boolean ]

/-- The owner of a record. -/
def owner : Field :=
  lookup "OwnerId" "User" "Owner"

/-- Companies and organizations. -/
def account : List Field :=
  [ owner,
    required "Name" .string,
    plain "AccountNumber" .string,
    plain "Type" .picklist,
    plain "Industry" .picklist,
    plain "Rating" .picklist,
    plain "AnnualRevenue" .currency,
    plain "NumberOfEmployees" .int,
    plain "Phone" .phone,
    plain "Website" .url,
    plain "BillingCity" .string,
    plain "BillingCountry" .string,
    lookup "ParentId" "Account" "Parent" ]

/-- People at accounts. -/
def contact : List Field :=
  [ owner,
    lookup "AccountId" "Account" "Account",
    plain "FirstName" .string,
    required "LastName" .string,
    required "Name" .string,
    plain "Email" .email,
    plain "Phone" .phone,
    plain "Title" .string,
    plain "Birthdate" .date,
    plain "HasOptedOutOfEmail" .boolean ]

/-- Deals in progress. -/
def opportunity : List Field :=
  [ owner,
    lookup "AccountId" "Account" "Account",
    required "Name" .string,
    plain "StageName" .picklist,
    plain "Amount" .currency,
    plain "Probability" .percent,
    required "CloseDate" .date,
    plain "IsClosed" .boolean,
    plain "IsWon" .boolean ]

/-- Customer issues. -/
def supportCase : List Field :=
  [ owner,
    lookup "AccountId" "Account" "Account",
    lookup "ContactId" "Contact" "Contact",
    plain "CaseNumber" .string,
    plain "Subject" .string,
    plain "Status" .picklist,
    plain "Priority" .picklist,
    plain "IsEscalated" .boolean,
    plain "ClosedDate" .dateTime ]

/-- Users. -/
def user : List Field :=
  [ required "Username" .string,
    plain "Name" .string,
    plain "Email" .email,
    plain "IsActive" .boolean,
    lookup "ProfileId" "Profile" "Profile" ]

/-- The objects with a sample, each with its own fields. -/
def catalogue : List (Text × List Field) :=
  objects.zip [account, contact, opportunity, supportCase, user]

/-- The sample of an object, by its name in any case. -/
def describe? (name : Text) : Option Describe :=
  (catalogue.find? fun (object, _) => Text.eqIgnoreCase object name).map fun (object, fields) =>
    ((systemFields ++ fields).foldl Describe.addField (Describe.ofName object)).withDemo true

end Soql.Schema.Sample
