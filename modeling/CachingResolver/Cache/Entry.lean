import CachingResolver.ResourceRecord

/-!
# Cache entries and their age

One record set as the cache holds it, stamped with the time at which it was stored.  Times are
seconds as 64-bit words with a sign, and their arithmetic is that of such words.  An entry is
expired once strictly more seconds have passed since its stamp than its time to live allows, and
what is left of its time to live never falls below zero.

A difference may not fit in a word.  Where arithmetic is checked this is the end of the program, and
what is read off an entry has no result (`isExpired?`, `remainingTtl?`, `records?`).  Where it is
not checked the difference wraps around (`isExpired`, `remainingTtl`, `records`), and so it does in
the cache.
-/

namespace CachingResolver

/-- A cached record set, or the reason of a cached failure. -/
structure Entry where
  -- The values, without repetitions.
  values : List String := []
  -- The time to live in seconds.
  ttl : UInt32 := 0
  -- The round trip of the exchange that brought the entry, in milliseconds.
  rttMs : UInt32 := 0
  storedAt : Int64 := 0
  deriving DecidableEq, Repr, Inhabited

namespace Entry

/-- The entry without values, time or stamp; it counts as no entry. -/
def vacant : Entry := {}

/-- Whether an entry counts as none. -/
def isVacant (e : Entry) : Bool :=
  e.ttl == 0 && e.rttMs == 0 && e.storedAt == 0 && e.values.isEmpty

/-- A time to live as a time difference. -/
def lifetime (e : Entry) : Int64 :=
  e.ttl.toUInt64.toInt64

/-- The seconds from the stamp to `now`; negative for a stamp in the future. -/
def age (e : Entry) (now : Int64) : Int64 :=
  now - e.storedAt

/-- Whether the entry is older than its time to live. -/
def isExpired (e : Entry) (now : Int64) : Bool :=
  e.lifetime < e.age now

/-- The seconds left of the time to live, where a stamp in the future counts as the present. -/
def remainingTtl (e : Entry) (now : Int64) : UInt32 :=
  let elapsed := if e.age now < 0 then 0 else e.age now
  let left := e.lifetime - elapsed
  if left < 0 then 0 else left.toUInt64.toUInt32

/-- The difference of two words, if it fits in one. -/
def difference? (a b : Int64) : Option Int64 :=
  if BitVec.ssubOverflow a.toBitVec b.toBitVec then none else some (a - b)

/-- The seconds from the stamp to `now`, if they fit in a word. -/
def age? (e : Entry) (now : Int64) : Option Int64 :=
  difference? now e.storedAt

/-- Whether the entry is older than its time to live, under checked arithmetic. -/
def isExpired? (e : Entry) (now : Int64) : Option Bool :=
  (e.age? now).map fun age => decide (e.lifetime < age)

/-- The seconds left of the time to live, under checked arithmetic. -/
def remainingTtl? (e : Entry) (now : Int64) : Option UInt32 := do
  let age ← e.age? now
  let left ← difference? e.lifetime (if age < 0 then 0 else age)
  return if left < 0 then 0 else left.toUInt64.toUInt32

/-- Add a value unless it is there. -/
def addValue (e : Entry) (value : String) : Entry :=
  if e.values.contains value then e else { e with values := e.values ++ [value] }

/-- The records of an entry under an owner and a type, with the time to live left at `now`. -/
def records (e : Entry) (name : String) (type : RecordType) (now : Int64) :
    List ResourceRecord :=
  e.values.map fun value => .make name (e.remainingTtl now) type value

/-- The records of an entry under an owner and a type, under checked arithmetic. -/
def records? (e : Entry) (name : String) (type : RecordType) (now : Int64) :
    Option (List ResourceRecord) :=
  (e.remainingTtl? now).map fun left => e.values.map fun value => .make name left type value

end Entry

end CachingResolver
