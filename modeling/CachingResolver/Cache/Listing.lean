import CachingResolver.Cache.Basic

/-!
# Listing the cache

A readable listing of the cache: its counters, then the record sets and the known failures by key,
as records with what is left of their time to live.
-/

namespace CachingResolver.Cache

open CachingResolver.Text

def entryLines (now : Int64) (key : String) (e : Entry) : List String :=
  match splitKey? key with
  | some (name, type) => (e.records name type now).map ResourceRecord.text
  | none => ["; unreadable key " ++ key]

def sectionLines (now : Int64) (label : String) (t : Table Entry) : List String :=
  ("; " ++ label ++ " (" ++ decimal t.size ++ " entries)") ::
    t.entries.flatMap fun (key, e) => entryLines now key e

def listingLines (c : Cache) : List String :=
  ("; " ++ c.metrics.text) ::
    (sectionLines c.now "positive" c.positive ++ sectionLines c.now "negative" c.negative)

/-- The listing, every line ended. -/
def listing (c : Cache) : String :=
  c.listingLines.foldr (fun line rest => line ++ "\n" ++ rest) ""

end CachingResolver.Cache
