import CachingResolver.IpAddress
import CachingResolver.ResourceRecord

/-!
# Resolutions

What a question is answered with: the aliases that lead from its name to another and then the
records of the type asked for.
-/

namespace CachingResolver

/-- The answer to a question. -/
structure Resolution where
  -- The records, aliases first.
  records : List ResourceRecord
  -- Whether no server was asked.
  isCacheHit : Bool
  -- The names that aliases lead to, in order.
  aliases : List String := []
  server : Option Endpoint := none
  deriving DecidableEq, Repr

namespace Resolution

def isEmpty (r : Resolution) : Bool :=
  r.records.isEmpty

/-- The least time to live of the records. -/
def minTtl? (r : Resolution) : Option UInt32 :=
  (r.records.map (·.ttl)).min?

/-- The values of the records that are no aliases. -/
def values (r : Resolution) : List String :=
  (r.records.filter (·.type != .cname)).map (·.value)

end Resolution

end CachingResolver
