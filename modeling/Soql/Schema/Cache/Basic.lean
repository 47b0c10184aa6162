import Soql.Schema.Describe

/-!
# A cache of describes

The cache remembers describes by the name of their object, for a time. It has no clock: each
operation is told the time, in milliseconds from any fixed moment, and a moment before an entry
was stored counts as no time passed. An entry is expired once its age has reached the lifetime.
-/

namespace Soql.Schema

/-- A describe and when it was stored. -/
structure CacheEntry where
  describe : Describe
  storedAt : Nat

/-- Describes with a common lifetime. -/
structure Cache where
  lifetime : Nat
  entries : NameMap CacheEntry

namespace Cache

/-- A cache without entries. -/
def ofLifetime (lifetime : Nat) : Cache :=
  { lifetime, entries := NameMap.empty }

/-- The age of an entry has reached the lifetime. -/
def isExpired (c : Cache) (now : Nat) (e : CacheEntry) : Bool :=
  c.lifetime ≤ now - e.storedAt

/-- Stores a describe, in place of an earlier one of the same object. -/
def insert (c : Cache) (describe : Describe) (now : Nat) : Cache :=
  { c with entries := c.entries.insert describe.name ⟨describe, now⟩ }

/-- The describe of an object, unless it has expired. -/
def get? (c : Cache) (name : Text) (now : Nat) : Option Describe :=
  match c.entries.get? name with
  | some e => if c.isExpired now e then none else some e.describe
  | none => none

/-- Some entry, expired or not, is there for an object. -/
def contains (c : Cache) (name : Text) : Bool :=
  c.entries.contains name

/-- Drops the entry of an object. -/
def invalidate (c : Cache) (name : Text) : Cache :=
  { c with entries := c.entries.erase name }

/-- Drops all entries. -/
def invalidateAll (c : Cache) : Cache :=
  { c with entries := NameMap.empty }

/-- Drops the expired entries. -/
def purge (c : Cache) (now : Nat) : Cache :=
  { c with entries := c.entries.keep (!c.isExpired now ·) }

/-- How many entries have expired. -/
def expiredCount (c : Cache) (now : Nat) : Nat :=
  c.entries.size - (c.purge now).entries.size

/-- The number of entries. -/
def size (c : Cache) : Nat :=
  c.entries.size

end Cache

end Soql.Schema
