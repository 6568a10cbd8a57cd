import CachingResolver.Cache.Basic
import CachingResolver.Cbor
import CachingResolver.Failure

/-!
# Checkpoints of the cache

Both tables of a cache as one CBOR item: a map with the entries `positive` and `negative`, each a
map from keys to entries, sorted by key.  Loading a checkpoint lays its tables over those of the
cache; octets that are no checkpoint leave the cache as it is.
-/

namespace CachingResolver

open CachingResolver.Cbor

/-- The tables of a cache as a checkpoint holds them. -/
structure Snapshot where
  positive : Table Entry
  negative : Table Entry

namespace Snapshot

instance : Inhabited Snapshot := ⟨⟨∅, ∅⟩⟩

def encodeEntry (e : Entry) : List UInt8 :=
  encodeMap
    [("values", encodeArray (e.values.map encodeText)),
     ("ttl", encodeInt e.ttl.toNat),
     ("rtt_ms", encodeInt e.rttMs.toNat),
     ("stored_at", encodeInt e.storedAt.toInt)]

def encodeTable (t : Table Entry) : List UInt8 :=
  encodeMap (t.entries.map fun (key, e) => (key, encodeEntry e))

def encode (s : Snapshot) : List UInt8 :=
  encodeMap [("positive", encodeTable s.positive), ("negative", encodeTable s.negative)]

/-- The unsigned 32-bit number of an item. -/
def word32? (item : Item) : Option UInt32 :=
  item.asInt?.bind fun n => if 0 ≤ n ∧ n < UInt32.size then some (UInt32.ofNat n.toNat) else none

/-- The signed 64-bit number of an item. -/
def signed64? (item : Item) : Option Int64 :=
  item.asInt?.bind fun n =>
    if Int64.minValue.toInt ≤ n ∧ n ≤ Int64.maxValue.toInt then some (Int64.ofInt n) else none

/-- The number of maps around the fields of an entry: those of the entry, its table and the
checkpoint. -/
def entryDepth : Nat := 3

def entry? (item : Item) : Option Entry := do
  let fields ←
    item.asRecord? ["values", "ttl", "rtt_ms", "stored_at"] (maxDepth - entryDepth)
  let values ← (← (← theField? fields "values").asArray?).mapM Item.asText?
  let ttl ← word32? (← theField? fields "ttl")
  let rttMs ← word32? (← theField? fields "rtt_ms")
  let storedAt ← signed64? (← theField? fields "stored_at")
  return { values, ttl, rttMs, storedAt }

/-- The table that an item describes; of equal keys the last wins. -/
def table? (item : Item) : Option (Table Entry) := do
  let pairs ← (← item.asMap?).mapM fun (key, value) => do
    return ((← key.asText?), (← entry? value))
  return (∅ : Table Entry).insertAll pairs

/-- The checkpoint at the beginning of some octets; what follows is ignored. -/
def decode? (octets : List UInt8) : Option Snapshot := do
  let (item, _) ← Cbor.read octets
  let fields ← item.asRecord? ["positive", "negative"] (maxDepth - 1)
  let positive ← table? (← theField? fields "positive")
  let negative ← table? (← theField? fields "negative")
  return { positive, negative }

/-- The number of entries in both tables. -/
def size (s : Snapshot) : Nat :=
  s.positive.size + s.negative.size

end Snapshot

namespace Cache

def snapshot (c : Cache) : Snapshot where
  positive := c.positive
  negative := c.negative

def dump (c : Cache) : List UInt8 :=
  c.snapshot.encode

/-- Lay a checkpoint over a cache. -/
def restore (c : Cache) (s : Snapshot) : Cache :=
  { c with positive := c.positive.overlay s.positive, negative := c.negative.overlay s.negative }

/-- Load a checkpoint from octets.  The result counts its entries. -/
def load (c : Cache) (octets : List UInt8) : Except Failure Nat × Cache :=
  match Snapshot.decode? octets with
  | some s => (.ok s.size, c.restore s)
  | none => (.error (.checkpoint "decode failed: not a checkpoint"), c)

/-- Why a file of a checkpoint cannot be used. -/
def fileFailure (path reason : String) : Failure :=
  .checkpoint (path ++ ": " ++ reason)

/-- Load a checkpoint from a file, given as its octets or as the reason why it cannot be read. -/
def loadFile (c : Cache) (path : String) (file : Except String (List UInt8)) :
    Except Failure Nat × Cache :=
  match file with
  | .error reason => (.error (fileFailure path reason), c)
  | .ok octets => c.load octets

end Cache

end CachingResolver
