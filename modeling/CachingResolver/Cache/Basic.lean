import CachingResolver.Cache.Entry
import CachingResolver.Cache.Key
import CachingResolver.Cache.Metrics
import CachingResolver.Table

/-!
# The cache

Record sets and known failures under the key of an owner and a type, in two tables.  A read looks
into the table of failures first.  The first entry that it meets decides: a live one is the answer,
and an expired one removes the key from both tables and makes the read a miss.  `read` says what a
read finds without changing anything; `lookup` is the read itself, with its effect on the tables and
the counters.
-/

namespace CachingResolver

/-- What a read of the cache finds: an entry, and whether it tells of a failure. -/
structure CachedAnswer where
  entry : Entry
  isNegative : Bool
  deriving DecidableEq, Repr, Inhabited

/-- The cache with its settings, its clock and its counters. -/
structure Cache where
  positive : Table Entry := ∅
  negative : Table Entry := ∅
  -- The longest time to live of a stored record set.
  positiveTtl : UInt32 := 3600
  -- The time to live of a known failure.
  negativeTtl : UInt32 := 60
  now : Int64 := 0
  metrics : Metrics := {}

namespace Cache

instance : Inhabited Cache := ⟨{}⟩

/-- What one table has to say about a key at a time. -/
inductive Slot where
  | live (entry : Entry)
  | expired
  -- No entry, or the vacant one.
  | absent
  deriving DecidableEq, Repr

/-- Judge what a table stores under a key. -/
def Slot.of (now : Int64) : Option Entry → Slot
  | none => .absent
  | some e =>
    if e.isVacant then .absent
    else if e.isExpired now then .expired
    else .live e

/-- What a read of a key finds. -/
inductive Reading where
  | negative (entry : Entry)
  | positive (entry : Entry)
  | expired
  | absent
  deriving DecidableEq, Repr

/-- What the two tables say about a key, failures first. -/
def read (c : Cache) (key : String) : Reading :=
  match Slot.of c.now (c.negative.get? key) with
  | .live e => .negative e
  | .expired => .expired
  | .absent =>
    match Slot.of c.now (c.positive.get? key) with
    | .live e => .positive e
    | .expired => .expired
    | .absent => .absent

/-- Remove a key from both tables. -/
def remove (c : Cache) (key : String) : Cache :=
  { c with negative := c.negative.erase key, positive := c.positive.erase key }

def count (c : Cache) (f : Metrics → Metrics) : Cache :=
  { c with metrics := f c.metrics }

/-- Read an owner and a type.  An expired entry is removed and the read is a miss. -/
def lookup (c : Cache) (name : String) (type : RecordType) : Option CachedAnswer × Cache :=
  let key := makeKey name type
  match c.read key with
  | .negative e =>
    (some ⟨e, true⟩, c.count fun m => { m with negativeHits := m.negativeHits + 1 })
  | .positive e => (some ⟨e, false⟩, c.count fun m => { m with hits := m.hits + 1 })
  | .expired =>
    (none, (c.remove key).count fun m =>
      { m with expired := m.expired + 1, misses := m.misses + 1 })
  | .absent => (none, c.count fun m => { m with misses := m.misses + 1 })

/-- Read the entry of an owner and a type, of either kind. -/
def get? (c : Cache) (name : String) (type : RecordType) : Option Entry × Cache :=
  let (answer, c) := c.lookup name type
  (answer.map (·.entry), c)

/-- Read the record set of an owner and a type. -/
def getPositive? (c : Cache) (name : String) (type : RecordType) : Option Entry × Cache :=
  let (answer, c) := c.lookup name type
  ((answer.filter fun a => !a.isNegative).map (·.entry), c)

/-- Read whether an owner and a type are known to fail. -/
def isNegative (c : Cache) (name : String) (type : RecordType) : Bool × Cache :=
  let (answer, c) := c.lookup name type
  (answer.any (·.isNegative), c)

/-- The time to live under which a record set is stored. -/
def clampTtl (c : Cache) (ttl : UInt32) : UInt32 :=
  if ttl ≤ c.positiveTtl then ttl else c.positiveTtl

/-- Count one more stored record set. -/
def countInsertion (c : Cache) : Cache :=
  c.count fun m => { m with insertions := m.insertions + 1 }

/-- Store an entry as it is, uncounted. -/
def put (c : Cache) (name : String) (type : RecordType) (e : Entry) : Cache :=
  { c with positive := c.positive.insert (makeKey name type) e }

/-- Store the values of an owner and a type in place of what was there. -/
def set (c : Cache) (name : String) (type : RecordType) (values : List String)
    (ttl rttMs : UInt32) :
    Cache :=
  let e : Entry := { values, ttl := c.clampTtl ttl, rttMs, storedAt := c.now }
  (c.put name type e).countInsertion

/-- Add one value to the record set of an owner and a type and renew its stamp.  The values of an
expired entry are dropped first. -/
def addValue (c : Cache) (name : String) (type : RecordType) (ttl : UInt32) (value : String) :
    Cache :=
  let old := (c.positive.get? (makeKey name type)).getD .vacant
  let kept := if old.isExpired c.now then { old with values := [] } else old
  let e := { kept.addValue value with ttl := c.clampTtl ttl, storedAt := c.now }
  (c.put name type e).countInsertion

def store (c : Cache) (rttMs : UInt32) (s : RecordSet) : Cache :=
  c.set s.name s.type s.values s.ttl rttMs

def storeAll (c : Cache) (rttMs : UInt32) (sets : List RecordSet) : Cache :=
  sets.foldl (fun c s => c.store rttMs s) c

/-- The glue for a set of name servers: the address records whose owner is one of them. -/
def glue (servers : RecordSet) (additionals : List ResourceRecord) : List RecordSet :=
  RecordSet.groups (additionals.filter fun r => r.type.isAddress && servers.values.contains r.name)

/-- Store the record set of the first record of `records`, and with a set of name servers its glue.
The result counts the sets of glue. -/
def storeWithGlue (c : Cache) (records additionals : List ResourceRecord) (rttMs : UInt32) :
    Nat × Cache :=
  match records with
  | [] => (0, c)
  | first :: _ =>
    let s := RecordSet.gather first.name first.type records
    let c := c.store rttMs s
    if s.type = .ns then
      let sets := glue s additionals
      (sets.length, c.storeAll rttMs sets)
    else (0, c)

/-- Remember that an owner and a type failed, and why. -/
def setNegative (c : Cache) (name : String) (type : RecordType) (reason : String) : Cache :=
  let e : Entry := { values := [reason], ttl := c.negativeTtl, storedAt := c.now }
  { c with negative := c.negative.insert (makeKey name type) e }

/-- Forget an owner and a type. -/
def delete (c : Cache) (name : String) (type : RecordType) : Cache :=
  c.remove (makeKey name type)

/-- The number of record sets. -/
def size (c : Cache) : Nat :=
  c.positive.size

/-- The number of known failures. -/
def negativeSize (c : Cache) : Nat :=
  c.negative.size

/-- Let time pass. -/
def advance (c : Cache) (seconds : Int64) : Cache :=
  { c with now := c.now + seconds }

end Cache

end CachingResolver
