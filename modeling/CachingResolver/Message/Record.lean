import CachingResolver.DomainName.International
import CachingResolver.Failure
import CachingResolver.Message.Basic
import CachingResolver.ResourceRecord
import CachingResolver.Text.Utf8

/-!
# Records between messages and the resolver

A record in wire form as a record inside the resolver, whose value is text, and back.  Records of a
type that the resolver does not understand, and records without data, have no form inside it.  The
way back refuses values that no record of the type can have; the class is always that of the
Internet.
-/

namespace CachingResolver

open CachingResolver.Text

def signedText (n : Int32) : String :=
  signedDecimal n.toInt

/-- The type and the value of data that the resolver understands. -/
def RecordData.value? : RecordData → Option (RecordType × String)
  | .a address => some (.a, address.text)
  | .aaaa address => some (.aaaa, address.text)
  | .cname target => some (.cname, target.text)
  | .ns server => some (.ns, server.text)
  | .ptr target => some (.ptr, target.text)
  | .mx preference exchange =>
    some (.mx, join " " [decimal preference.toNat, exchange.text])
  | .txt strings => some (.txt, String.ofList (strings.flatMap Utf8.decodeLossy))
  | .soa server mailbox serial refresh retry expire minimum =>
    some (.soa, join " " [server.display, mailbox.display, decimal serial.toNat,
      signedText refresh, signedText retry, signedText expire, decimal minimum.toNat])
  | .srv priority weight port target =>
    some (.srv, join " " [decimal priority.toNat, decimal weight.toNat, decimal port.toNat,
      target.display])
  | .absent _ => none
  | .other _ _ => none

/-- The record inside the resolver that a record of a message is. -/
def WireRecord.toRecord? (r : WireRecord) : Option ResourceRecord :=
  r.data.value?.map fun (type, value) =>
    .ofClass (classText r.recordClass) r.owner.text r.ttl type value

def DomainName.parse (text : String) : Except Failure DomainName :=
  match DomainName.ofText? text with
  | some name => .ok name
  | none => .error (.invalidName ("Invalid domain '" ++ text ++ "': malformed name"))

namespace RecordData

/-- What is wrong with a value that no record of the type can have. -/
def badValue (type : RecordType) (value : String) : Failure :=
  .malformedMessage ("cannot encode " ++ type.mnemonic ++ " value '" ++ value ++ "'")

/-- A part of a value that has to be there. -/
def require {α : Type} (type : RecordType) (value : String) : Option α → Except Failure α
  | some x => .ok x
  | none => .error (badValue type value)

def ofValue (type : RecordType) (value : String) : Except Failure RecordData :=
  let need {α : Type} (x : Option α) : Except Failure α := require type value x
  let name (cs : List Char) : Except Failure DomainName := DomainName.parse (String.ofList cs)
  match type with
  | .a => (need (Ipv4.ofText? value)).map .a
  | .aaaa => (need (Ipv6.ofText? value)).map .aaaa
  | .cname => (DomainName.parse value).map .cname
  | .ns => (DomainName.parse value).map .ns
  | .ptr => (DomainName.parse value).map .ptr
  | .mx => do
    let (preference, exchange) ← need (splitOnce ' ' value.toList)
    let preference ← need (word16? preference)
    return .mx preference (← name exchange)
  | .txt => .ok (.txt [Utf8.encode value])
  | .soa =>
    match words value.toList with
    | [server, mailbox, serial, refresh, retry, expire, minimum] => do
      let server ← name server
      let mailbox ← name mailbox
      let serial ← need (signed64? serial)
      let refresh ← need (signed64? refresh)
      let retry ← need (signed64? retry)
      let expire ← need (signed64? expire)
      let minimum ← need (signed64? minimum)
      return .soa server mailbox (Int32.ofInt serial).toUInt32 (.ofInt refresh) (.ofInt retry)
        (.ofInt expire) (Int32.ofInt minimum).toUInt32
    | _ => .error (badValue type value)
  | .srv =>
    match words value.toList with
    | [priority, weight, port, target] => do
      let priority ← need (word16? priority)
      let weight ← need (word16? weight)
      let port ← need (word16? port)
      return .srv priority weight port (← name target)
    | _ => .error (badValue type value)

end RecordData

/-- The record in wire form that stands for a record inside the resolver. -/
def ResourceRecord.toWire (r : ResourceRecord) : Except Failure WireRecord := do
  let data ← RecordData.ofValue r.type r.value
  let owner ← DomainName.parse r.name
  return { owner, ttl := r.ttl, data }

end CachingResolver
