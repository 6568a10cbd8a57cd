import CachingResolver.Message.Record

/-!
# Queries and replies

The messages that the resolver makes itself: a query with one question, and the replies to a request
of a client.
-/

namespace CachingResolver.Message

def query (id : UInt16) (name : String) (type : RecordType) (recursionDesired : Bool) :
    Except Failure Message := do
  let name ← DomainName.parse (Name.canonical name)
  return { id, recursionDesired, questions := [{ name, type := type.number }] }

/-- A reply without records, to the questions of a request. -/
def replyFrame (request : Message) (code : ResponseCode) : Message where
  id := request.id
  isResponse := true
  opcode := request.opcode
  recursionDesired := request.recursionDesired
  recursionAvailable := true
  code := code
  questions := request.questions

def reply (request : Message) (answers : List ResourceRecord) : Except Failure Message := do
  return { request.replyFrame .noError with answers := ← answers.mapM ResourceRecord.toWire }

def failureReply (request : Message) : Message :=
  request.replyFrame .serverFailure

/-- A reply that repeats no question and only tells why the request cannot be answered. -/
def rejection (request : Message) (code : ResponseCode) : Message where
  id := request.id
  isResponse := true
  opcode := request.opcode
  code := code

end CachingResolver.Message
