import CachingResolver.DomainName.Wire
import CachingResolver.Failure
import CachingResolver.Message.Basic

/-!
# Reading messages

A message is a header of twelve octets and then as many questions and records as it announces; what
follows is ignored.  The data of a record must take exactly the octets that the record announces,
and without octets a record has a type and no data.  Options stand among the further records, once
at most and under the root; they are kept apart from the records.
-/

namespace CachingResolver

open CachingResolver.Octets

def WireQuestion.read (message : List UInt8) (cursor : Cursor) :
    Option (WireQuestion × Cursor) := do
  let (name, cursor) ← DomainName.read message cursor
  let (type, cursor) ← cursor.word16?
  let (recordClass, cursor) ← cursor.word16?
  return ({ name, type, recordClass }, cursor)

/-- Read text strings, each after its length. -/
def readTextStrings (octets : List UInt8) : Option (List (List UInt8)) :=
  match octets with
  | [] => some []
  | size :: rest =>
    match _ : take? size.toNat rest with
    | none => none
    | some (string, rest') => (readTextStrings rest').map (string :: ·)
termination_by octets.length
decreasing_by
  have := length_le_of_take? ‹take? _ _ = some _›
  simp only [List.length_cons]
  omega

/-- Whether octets describe a client subnet: a family, two lengths of a network part, and as many
octets of an address as the first length needs. -/
def isClientSubnet : List UInt8 → Bool
  | 0 :: family :: size :: _ :: address =>
    let needed := (size.toNat + 7) / 8
    (family == 1 && min needed 4 ≤ address.length) ||
      (family == 2 && min needed 16 ≤ address.length)
  | _ => false

/-- Whether octets are options that can be read: each a code, a length and data, where a client
subnet must be well-formed and an option that is cut off after its code or its length does no
harm.  No length exceeds that of all options. -/
def areOptions (size : Nat) (octets : List UInt8) : Bool :=
  match octets with
  | [] => true
  | [_] => false
  | [_, _] => true
  | [_, _, _] => false
  | c :: d :: high :: low :: rest =>
    let length := toNat [high, low]
    if size < length then false
    else
      match _ : take? length rest with
      | none => true
      | some (data, rest') =>
        (toNat [c, d] != 8 || isClientSubnet data) && areOptions size rest'
termination_by octets.length
decreasing_by
  have := length_le_of_take? ‹take? _ _ = some _›
  simp only [List.length_cons]
  omega

def readSigned (cursor : Cursor) : Option (Int32 × Cursor) :=
  cursor.word32?.map fun (n, cursor) => (n.toInt32, cursor)

def Ipv4.readOctets (cursor : Cursor) : Option (Ipv4 × Cursor) :=
  match cursor.take? 4 with
  | some ([a, b, c, d], cursor) => some (⟨a, b, c, d⟩, cursor)
  | _ => none

def Ipv6.readOctets (cursor : Cursor) : Option (Ipv6 × Cursor) := do
  let (g0, cursor) ← cursor.word16?
  let (g1, cursor) ← cursor.word16?
  let (g2, cursor) ← cursor.word16?
  let (g3, cursor) ← cursor.word16?
  let (g4, cursor) ← cursor.word16?
  let (g5, cursor) ← cursor.word16?
  let (g6, cursor) ← cursor.word16?
  let (g7, cursor) ← cursor.word16?
  return (⟨[g0, g1, g2, g3, g4, g5, g6, g7], rfl⟩, cursor)

/-- Read the data of a record of a type that the resolver understands. -/
def RecordData.readTyped (message : List UInt8) (type : RecordType) (size : Nat) (cursor : Cursor) :
    Option (RecordData × Cursor) :=
  match type with
  | .a => (Ipv4.readOctets cursor).map fun (address, cursor) => (.a address, cursor)
  | .aaaa => (Ipv6.readOctets cursor).map fun (address, cursor) => (.aaaa address, cursor)
  | .cname => (DomainName.read message cursor).map fun (name, cursor) => (.cname name, cursor)
  | .ns => (DomainName.read message cursor).map fun (name, cursor) => (.ns name, cursor)
  | .ptr => (DomainName.read message cursor).map fun (name, cursor) => (.ptr name, cursor)
  | .mx => do
    let (preference, cursor) ← cursor.word16?
    let (exchange, cursor) ← DomainName.read message cursor
    return (.mx preference exchange, cursor)
  | .txt => do
    let (octets, cursor) ← cursor.take? size
    return (.txt (← readTextStrings octets), cursor)
  | .soa => do
    let (server, cursor) ← DomainName.read message cursor
    let (mailbox, cursor) ← DomainName.read message cursor
    let (serial, cursor) ← cursor.word32?
    let (refresh, cursor) ← readSigned cursor
    let (retry, cursor) ← readSigned cursor
    let (expire, cursor) ← readSigned cursor
    let (minimum, cursor) ← cursor.word32?
    return (.soa server mailbox serial refresh retry expire minimum, cursor)
  | .srv => do
    let (priority, cursor) ← cursor.word16?
    let (weight, cursor) ← cursor.word16?
    let (port, cursor) ← cursor.word16?
    let (target, cursor) ← DomainName.read message cursor
    return (.srv priority weight port target, cursor)

def RecordData.read (message : List UInt8) (type : UInt16) (size : Nat) (cursor : Cursor) :
    Option (RecordData × Cursor) :=
  if size = 0 then some (.absent type, cursor)
  else if WireType.isDataless type then none
  else
    match RecordType.ofNumber? type with
    | some known => do
      let (data, after) ← RecordData.readTyped message known size cursor
      if after.pos = cursor.pos + size then return (data, after) else none
    | none => do
      let (octets, after) ← cursor.take? size
      if type = WireType.opt ∧ !areOptions size octets then none
      else return (.other type octets, after)

def WireRecord.read (message : List UInt8) (cursor : Cursor) : Option (WireRecord × Cursor) := do
  let (owner, cursor) ← DomainName.read message cursor
  let (type, cursor) ← cursor.word16?
  let (recordClass, cursor) ← cursor.word16?
  let (ttl, cursor) ← cursor.word32?
  let (size, cursor) ← cursor.nat? 2
  let (data, cursor) ← RecordData.read message type size cursor
  return ({ owner, recordClass, ttl, data }, cursor)

/-- Read a given number of things one after the other. -/
def readMany {α : Type} (read : Cursor → Option (α × Cursor)) :
    (count : Nat) → Cursor → Option (List α × Cursor)
  | 0, cursor => some ([], cursor)
  | count + 1, cursor => do
    let (x, cursor) ← read cursor
    let (xs, cursor) ← readMany read count cursor
    return (x :: xs, cursor)

/-- Whether a record may stand in any section. -/
def WireRecord.isOrdinary (r : WireRecord) : Bool :=
  r.type != WireType.opt && r.type != WireType.sig && r.type != WireType.tsig

/-- The options that a record of the type of options holds. -/
def MessageOptions.ofRecord (r : WireRecord) : MessageOptions where
  datagramSize := r.recordClass
  flags := r.ttl
  octets :=
    match r.data with
    | .other _ octets => octets
    | _ => []

namespace Message

/-- The options among the further records: `none` when there are more than one or they do not
belong to the root. -/
def findOptions? (additionals : List WireRecord) : Option (Option MessageOptions) :=
  match additionals.filter fun r => r.type == WireType.opt with
  | [] => some none
  | [r] => if r.owner.labels.isEmpty then some (some (.ofRecord r)) else none
  | _ => none

/-- The response code from its low bits and from options. -/
def responseCode (low : Nat) (options : Option MessageOptions) : ResponseCode :=
  let high := (options.map fun o => o.flags.toNat >>> 24).getD 0
  .ofNat (16 * high + low)

def decode? (message : List UInt8) : Option Message := do
  let cursor : Cursor := .seek message 0
  let (id, cursor) ← cursor.word16?
  let (flags, cursor) ← cursor.nat? 2
  let (questions, cursor) ← cursor.nat? 2
  let (answers, cursor) ← cursor.nat? 2
  let (authorities, cursor) ← cursor.nat? 2
  let (additionals, cursor) ← cursor.nat? 2
  let (questions, cursor) ← readMany (WireQuestion.read message) questions cursor
  let (answers, cursor) ← readMany (WireRecord.read message) answers cursor
  let (authorities, cursor) ← readMany (WireRecord.read message) authorities cursor
  let (additionals, _) ← readMany (WireRecord.read message) additionals cursor
  let options ← findOptions? additionals
  if (answers ++ authorities).all WireRecord.isOrdinary then
    return {
      id, questions, answers, authorities, options
      isResponse := flags.testBit 15
      opcode := .ofNat (flags >>> 11)
      isAuthoritative := flags.testBit 10
      isTruncated := flags.testBit 9
      recursionDesired := flags.testBit 8
      recursionAvailable := flags.testBit 7
      authenticData := flags.testBit 5
      checkingDisabled := flags.testBit 4
      code := responseCode (flags % 16) options
      additionals := additionals.filter fun r => r.type != WireType.opt }
  else none

def decode (octets : List UInt8) : Except Failure Message :=
  match decode? octets with
  | some m => .ok m
  | none => .error (.malformedMessage "Failed to parse DNS response: malformed message")

end Message

end CachingResolver
