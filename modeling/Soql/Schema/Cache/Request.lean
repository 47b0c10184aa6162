import Soql.Schema.Cache.Basic

/-!
# Requests to a cache

What can be asked of a cache, as data, so that a whole session is a list of requests. A request
has an answer, read before it takes effect, and leaves a cache behind; `Cache.run` answers a
session in order. The times of a session need not increase.
-/

namespace Soql.Schema.Cache

/-- Something asked of a cache. -/
inductive Request
  | insert (describe : Describe) (now : Nat)
  | get (name : Text) (now : Nat)
  | invalidate (name : Text)
  | invalidateAll
  | purge (now : Nat)

/-- What a cache answers. -/
inductive Answer
  | done
  | describe (found : Option Describe)
  /-- An entry was there and has been dropped. -/
  | dropped (b : Bool)
  /-- So many entries have been dropped. -/
  | purged (n : Nat)

/-- The answer to a request. -/
def answer (c : Cache) : Request → Answer
  | .insert .. | .invalidateAll => .done
  | .get name now => .describe (c.get? name now)
  | .invalidate name => .dropped (c.contains name)
  | .purge now => .purged (c.expiredCount now)

/-- The cache after a request. -/
def after (c : Cache) : Request → Cache
  | .insert describe now => c.insert describe now
  | .get .. => c
  | .invalidate name => c.invalidate name
  | .invalidateAll => c.invalidateAll
  | .purge now => c.purge now

/-- The answers to requests in order, each with the cache behind it. -/
def run (c : Cache) : List Request → List (Answer × Cache)
  | [] => []
  | r :: rs => (c.answer r, c.after r) :: (c.after r).run rs

end Soql.Schema.Cache
