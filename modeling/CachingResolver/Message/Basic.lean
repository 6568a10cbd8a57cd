import CachingResolver.DomainName
import CachingResolver.IpAddress
import CachingResolver.RecordType

/-!
# Messages

A message as two hosts exchange it: the fields of its header, the questions, and three sections of
records.  Records here are in wire form, their owner a sequence of labels and their type and class
plain numbers, because a message may hold types that the resolver does not understand.
-/

namespace CachingResolver

namespace WireType

/-- A signature of a transaction by a public key. -/
def sig : UInt16 := 24

def opt : UInt16 := 41

/-- A signature of a transaction by a shared secret. -/
def tsig : UInt16 := 250

/-- The types of which a message cannot hold data: nothing, and those only to be asked for. -/
def isDataless (type : UInt16) : Bool :=
  type == 0 || type == 251 || type == 252 || type == 255

end WireType

def internetClass : UInt16 := 1

def classText (recordClass : UInt16) : String :=
  if recordClass = internetClass then "IN"
  else if recordClass = 3 then "CH"
  else if recordClass = 4 then "HS"
  else if recordClass = 254 then "NONE"
  else if recordClass = 255 then "ANY"
  else "UNKNOWN"

/-- A question in wire form. -/
structure WireQuestion where
  name : DomainName
  -- The number of the type asked for.
  type : UInt16
  recordClass : UInt16 := internetClass
  deriving DecidableEq, Repr

inductive RecordData where
  | a (address : Ipv4)
  | aaaa (address : Ipv6)
  | cname (target : DomainName)
  | ns (server : DomainName)
  | ptr (target : DomainName)
  | mx (preference : UInt16) (exchange : DomainName)
  | txt (strings : List (List UInt8))
  -- The start of a zone of authority: its first server, the mailbox of its keeper, its version and
  -- its times.
  | soa (server mailbox : DomainName) (serial : UInt32) (refresh retry expire : Int32)
      (minimum : UInt32)
  | srv (priority weight port : UInt16) (target : DomainName)
  -- A type without data.
  | absent (type : UInt16)
  -- Octets of a type that is not understood.
  | other (type : UInt16) (octets : List UInt8)
  deriving DecidableEq, Repr

/-- The number of the type that data belong to. -/
def RecordData.type : RecordData → UInt16
  | .a _ => RecordType.a.number
  | .aaaa _ => RecordType.aaaa.number
  | .cname _ => RecordType.cname.number
  | .ns _ => RecordType.ns.number
  | .ptr _ => RecordType.ptr.number
  | .mx _ _ => RecordType.mx.number
  | .txt _ => RecordType.txt.number
  | .soa .. => RecordType.soa.number
  | .srv .. => RecordType.srv.number
  | .absent type => type
  | .other type _ => type

/-- A record in wire form. -/
structure WireRecord where
  owner : DomainName
  recordClass : UInt16 := internetClass
  ttl : UInt32
  data : RecordData
  deriving DecidableEq, Repr

def WireRecord.type (r : WireRecord) : UInt16 :=
  r.data.type

/-- The options that a message carries besides its records. -/
structure MessageOptions where
  -- The largest datagram that the sender takes.
  datagramSize : UInt16
  -- The octets of version and flags.
  flags : UInt32
  octets : List UInt8
  deriving DecidableEq, Repr

/-- How an answer went, as far as a message tells by number. -/
abbrev ResponseCode := Fin 4096

namespace ResponseCode

/-- The code of a number; higher bits are dropped. -/
def ofNat (n : Nat) : ResponseCode := Fin.ofNat 4096 n

def noError : ResponseCode := 0

def formatError : ResponseCode := 1

def serverFailure : ResponseCode := 2

def noSuchName : ResponseCode := 3

/-- The kind of query is not supported. -/
def notImplemented : ResponseCode := 4

/-- The server will not answer. -/
def refused : ResponseCode := 5

def status (code : ResponseCode) : String :=
  if code = noError then "NOERROR"
  else if code = formatError then "FORMERR"
  else if code = serverFailure then "SERVFAIL"
  else if code = noSuchName then "NXDOMAIN"
  else if code = notImplemented then "NOTIMP"
  else if code = refused then "REFUSED"
  else "UNKNOWN"

end ResponseCode

/-- The kind of a message, by number. -/
abbrev Opcode := Fin 16

namespace Opcode

/-- The kind of a number; higher bits are dropped. -/
def ofNat (n : Nat) : Opcode := Fin.ofNat 16 n

def query : Opcode := 0

end Opcode

structure Message where
  -- What a response has in common with its query.
  id : UInt16 := 0
  isResponse : Bool := false
  opcode : Opcode := .query
  isAuthoritative : Bool := false
  isTruncated : Bool := false
  recursionDesired : Bool := false
  recursionAvailable : Bool := false
  authenticData : Bool := false
  checkingDisabled : Bool := false
  code : ResponseCode := .noError
  questions : List WireQuestion := []
  answers : List WireRecord := []
  authorities : List WireRecord := []
  additionals : List WireRecord := []
  options : Option MessageOptions := none
  deriving DecidableEq, Repr

instance : Inhabited Message := ⟨{}⟩

end CachingResolver
