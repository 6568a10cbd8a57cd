import CachingResolver.Rounding

/-!
# Cache counters

How often reads of the cache hit, missed or found an expired entry, and how many entries were
stored.
-/

namespace CachingResolver

open CachingResolver.Text

structure Metrics where
  hits : Nat := 0
  negativeHits : Nat := 0
  -- Reads that found nothing of use.
  misses : Nat := 0
  insertions : Nat := 0
  -- Keys removed because a read found them expired.
  expired : Nat := 0
  deriving DecidableEq, Repr, Inhabited

namespace Metrics

/-- The reads that found something, in percent of all reads. -/
def hitRate (m : Metrics) : String :=
  let found := m.hits + m.negativeHits
  Rounding.percentage found (found + m.misses)

def text (m : Metrics) : String :=
  "hits " ++ decimal m.hits ++ " negative_hits " ++ decimal m.negativeHits ++
    " misses " ++ decimal m.misses ++ " insertions " ++ decimal m.insertions ++
    " expired " ++ decimal m.expired ++ " hit_rate " ++ m.hitRate ++ "%"

end Metrics

end CachingResolver
