import CachingResolver.Failure
import CachingResolver.Message.Basic
import CachingResolver.Message.Writer

/-!
# Writing messages

The octets of a message, which takes at most 65535 of them.  Of each section the longest beginning
that stays within this size is written, and a message that loses records is marked as truncated; the
questions must all be written.  Names point to endings that are known from before, except those that
a service points to.  A text string of more than 255 octets cannot be written.
-/

namespace CachingResolver

open CachingResolver.Octets

def RecordData.write : RecordData → Writer
  | .a address => .octets address.octets
  | .aaaa address => .octets address.octets
  | .cname target => .name target
  | .ns server => .name server
  | .ptr target => .name target
  | .mx preference exchange => .all [.word16 preference, .name exchange]
  | .txt strings => .all (strings.map .text)
  | .soa server mailbox serial refresh retry expire minimum =>
    .all [.name server, .name mailbox, .word32 serial, .word32 refresh.toUInt32,
      .word32 retry.toUInt32, .word32 expire.toUInt32, .word32 minimum]
  | .srv priority weight port target =>
    .all [.word16 priority, .word16 weight, .word16 port, .octets target.encode]
  | .absent _ => .octets []
  | .other _ octets => .octets octets

def WireRecord.write (r : WireRecord) : Writer :=
  .all [.name r.owner, .word16 r.type, .word16 r.recordClass, .word32 r.ttl,
    .measured r.data.write]

def WireQuestion.write (q : WireQuestion) : Writer :=
  .all [.name q.name, .word16 q.type, .word16 q.recordClass]

def WireQuestion.writeAll (qs : List WireQuestion) : Writer :=
  .all (qs.map WireQuestion.write)

/-- Options as a record of the root.  The high bits of the response code are part of them. -/
def MessageOptions.toRecord (code : ResponseCode) (o : MessageOptions) : WireRecord where
  owner := .root
  recordClass := o.datagramSize
  ttl := UInt32.ofNat ((code.val / 16) <<< 24 + o.flags.toNat % (1 <<< 24))
  data := .other WireType.opt o.octets

structure EncodedSection where
  count : Nat := 0
  octets : List UInt8 := []
  -- The endings of names that are known after it.
  endings : DomainName.Endings
  -- Whether records were left out.
  isCut : Bool := false

namespace Message

def maxSize : Nat := 65535

/-- Write records from a position on; `none` when a record that stays within the size cannot be
written. -/
def encodeSection? (pos : Nat) (known : DomainName.Endings) :
    List WireRecord → Option EncodedSection
  | [] => some { endings := known }
  | r :: rs => do
    let passage := r.write pos known
    if maxSize < passage.reach then return { endings := known, isCut := true }
    else if passage.isFlawed then none
    else
      let rest ← encodeSection? (pos + passage.octets.length) passage.endings rs
      return { rest with count := rest.count + 1, octets := passage.octets ++ rest.octets }

def flag (bit : Nat) (isSet : Bool) : Nat :=
  if isSet then 1 <<< bit else 0

/-- The flags of the header, with the opcode and the low bits of the response code. -/
def flags (m : Message) : Nat :=
  flag 15 m.isResponse + m.opcode.val <<< 11 + flag 10 m.isAuthoritative +
    flag 9 m.isTruncated + flag 8 m.recursionDesired + flag 7 m.recursionAvailable +
    flag 5 m.authenticData + flag 4 m.checkingDisabled + m.code.val % 16

/-- The octets of a header that announces the given numbers of questions and records. -/
def encodeHeader (m : Message) (questions answers authorities additionals : Nat) : List UInt8 :=
  ofWord16 m.id ++ ofNat 2 m.flags ++ ofNat 2 questions ++ ofNat 2 answers ++
    ofNat 2 authorities ++ ofNat 2 additionals

/-- The octets of a message; `none` when a question or some record cannot be written. -/
def encode? (m : Message) : Option (List UInt8) := do
  let pos := 12
  let questions := WireQuestion.writeAll m.questions pos []
  if maxSize < questions.reach then none
  else
    let pos := pos + questions.octets.length
    let answers ← encodeSection? pos questions.endings m.answers
    let pos := pos + answers.octets.length
    let authorities ← encodeSection? pos answers.endings m.authorities
    let pos := pos + authorities.octets.length
    let additionals ← encodeSection? pos authorities.endings m.additionals
    let pos := pos + additionals.octets.length
    let options ← encodeSection? pos additionals.endings
      (m.options.toList.map (MessageOptions.toRecord m.code))
    let isCut := answers.isCut || authorities.isCut || additionals.isCut || options.isCut
    let header := { m with isTruncated := m.isTruncated || isCut }.encodeHeader m.questions.length
      answers.count authorities.count (additionals.count + options.count)
    return header ++ (questions.octets ++ (answers.octets ++ (authorities.octets ++
      (additionals.octets ++ options.octets))))

def encode (m : Message) : Except Failure (List UInt8) :=
  match m.encode? with
  | some octets => .ok octets
  | none =>
    .error (.malformedMessage
      "Failed to serialize DNS message: a text string or the questions are too long")

end Message

end CachingResolver
