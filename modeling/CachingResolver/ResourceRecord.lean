import CachingResolver.Name
import CachingResolver.RecordType
import CachingResolver.Text.Decimal

/-!
# Resource records and record sets

A resource record in its form inside the resolver: a canonical owner name, a time to live, a class,
a type and a value as text.  The records that share an owner and a type form a record set, whose
time to live is the least of theirs and whose values are theirs without repetitions.
-/

namespace CachingResolver

open CachingResolver.Text

/-- A resource record, independent of its form on the wire. -/
structure ResourceRecord where
  -- The owner, in canonical form.
  name : String
  ttl : UInt32
  -- The class, in upper case.
  recordClass : String
  type : RecordType
  -- The value, as its type writes it.
  value : String
  deriving DecidableEq, Repr, Inhabited

namespace ResourceRecord

/-- The form in which a value is kept: names are canonical, all else stays as it is. -/
def canonicalValue (type : RecordType) (value : String) : String :=
  if type.isNameTarget then Name.canonical value else value

def ofClass (recordClass name : String) (ttl : UInt32) (type : RecordType) (value : String) :
    ResourceRecord where
  name := Name.canonical name
  ttl := ttl
  recordClass := String.ofList (recordClass.toList.map Char.toUpper)
  type := type
  value := canonicalValue type value

/-- A record of class `IN`. -/
def make (name : String) (ttl : UInt32) (type : RecordType) (value : String) : ResourceRecord :=
  ofClass "IN" name ttl type value

/-- The record on one line, its fields separated by tabs. -/
def text (r : ResourceRecord) : String :=
  join "\t" [r.name, decimal r.ttl.toNat, r.recordClass, r.type.mnemonic, r.value]

end ResourceRecord

/-- The records of `rs` that a name owns under a type. -/
def recordsFor (name : String) (type : RecordType) (rs : List ResourceRecord) :
    List ResourceRecord :=
  rs.filter fun r => r.name == name && r.type == type

/-- The records of one owner and one type, as the cache keeps them. -/
structure RecordSet where
  name : String
  type : RecordType
  -- The distinct values, in order of first appearance.
  values : List String
  -- The least time to live.
  ttl : UInt32
  deriving DecidableEq, Repr, Inhabited

namespace RecordSet

/-- The record set of a given owner and type among `rs`. -/
def gather (name : String) (type : RecordType) (rs : List ResourceRecord) : RecordSet where
  name := name
  type := type
  values := ((recordsFor name type rs).map (·.value)).eraseDups
  ttl := ((recordsFor name type rs).map (·.ttl)).min?.getD 0

/-- The record sets of `rs`, in order of first appearance. -/
def groups (rs : List ResourceRecord) : List RecordSet :=
  (rs.map fun r => (r.name, r.type)).eraseDups.map fun (name, type) => gather name type rs

end RecordSet

/-- A question: which records of a type does a name own? -/
structure Question where
  name : String
  type : RecordType
  deriving DecidableEq, Repr, Inhabited

namespace Question

/-- The question for the canonical form of a name. -/
def make (name : String) (type : RecordType) : Question where
  name := Name.canonical name
  type := type

/-- The question as `name/TYPE`. -/
def text (q : Question) : String :=
  q.name ++ "/" ++ q.type.mnemonic

end Question

end CachingResolver
