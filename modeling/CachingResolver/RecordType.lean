/-!
# Record types

The record types that the resolver understands from end to end, with their mnemonics and their
numbers on the wire.  A mnemonic may be written in any case, where letters are compared by their
Unicode upper case.
-/

namespace CachingResolver

/-- A record type that the resolver understands. -/
inductive RecordType where
  | a
  | aaaa
  | cname
  | ns
  | mx
  | txt
  | ptr
  | soa
  | srv
  deriving DecidableEq, Repr, Inhabited

namespace RecordType

/-- Every record type, in the order in which types are sorted. -/
def all : List RecordType :=
  [a, aaaa, cname, ns, mx, txt, ptr, soa, srv]

def mnemonic : RecordType → String
  | a => "A"
  | aaaa => "AAAA"
  | cname => "CNAME"
  | ns => "NS"
  | mx => "MX"
  | txt => "TXT"
  | ptr => "PTR"
  | soa => "SOA"
  | srv => "SRV"

def number : RecordType → UInt16
  | a => 1
  | ns => 2
  | cname => 5
  | soa => 6
  | ptr => 12
  | mx => 15
  | txt => 16
  | aaaa => 28
  | srv => 33

def ofNumber? (n : UInt16) : Option RecordType :=
  all.find? fun t => t.number == n

/-- Whether records of the type hold an address; only these serve as glue. -/
def isAddress : RecordType → Bool
  | a | aaaa => true
  | _ => false

/-- Whether the value of a record of the type is a domain name. -/
def isNameTarget : RecordType → Bool
  | cname | ns | ptr => true
  | _ => false

/-- The upper-case form of a character when it consists of ASCII characters. -/
def asciiUpper? (c : Char) : Option (List Char) :=
  if c.toNat < 128 then some [c.toUpper]
  else
    match c with
    | 'ß' => some ['S', 'S']
    | 'ı' => some ['I']
    | 'ſ' => some ['S']
    | 'ﬀ' => some ['F', 'F']
    | 'ﬁ' => some ['F', 'I']
    | 'ﬂ' => some ['F', 'L']
    | 'ﬃ' => some ['F', 'F', 'I']
    | 'ﬄ' => some ['F', 'F', 'L']
    | 'ﬅ' => some ['S', 'T']
    | 'ﬆ' => some ['S', 'T']
    | _ => none

/-- The upper-case form of a text when it consists of ASCII characters. -/
def asciiUpperText? (cs : List Char) : Option (List Char) :=
  (cs.mapM asciiUpper?).map List.flatten

/-- The type whose mnemonic has the same upper-case form as `text`. -/
def ofText? (text : String) : Option RecordType :=
  (asciiUpperText? text.toList).bind fun upper => all.find? fun t => t.mnemonic.toList == upper

/-- What a reader is told about a text that is no mnemonic. -/
def unknownMessage (text : String) : String :=
  "Invalid record type: " ++ text

theorem ofNumber?_number (t : RecordType) : ofNumber? t.number = some t := by
  cases t <;> rfl

theorem mem_all (t : RecordType) : t ∈ all := by
  cases t <;> simp [all]

theorem number_injective {s t : RecordType} (h : s.number = t.number) : s = t := by
  have := congrArg ofNumber? h
  simpa [ofNumber?_number] using this

end RecordType

end CachingResolver
