import CachingResolver.Lookup.Forwarding
import CachingResolver.Lookup.Iterative

/-!
# Resolvers

A resolver works iteratively or forwards.  It looks questions up and answers the requests of
clients.
-/

namespace CachingResolver

inductive Resolver where
  | iterative (settings : Iterative)
  | forwarding (forwarder : Forwarder)
  deriving Repr

namespace Resolver

/-- The name of the way a resolver works. -/
def mode : Resolver → String
  | iterative _ => "iterative"
  | forwarding _ => "stub"

/-- The servers that questions are handed to. -/
def forwarders : Resolver → List Endpoint
  | iterative _ => []
  | forwarding f => f.servers

variable {σ : Type}

def lookup (r : Resolver) (env : Environment σ) (q : Question) (w : World σ) :
    Except Failure Resolution × World σ :=
  match r with
  | iterative r => r.lookup env q w
  | forwarding f => f.lookup env q w

/-- Answer a request from an iterative lookup: with the records found, all of them or none. -/
def reply (r : Iterative) (env : Environment σ) (request : Message) (w : World σ) :
    Message × World σ :=
  match request.questions with
  | [] => (request.rejection .formatError, w)
  | question :: _ =>
    match RecordType.ofNumber? question.type with
    | none => (request.rejection .notImplemented, w)
    | some type =>
      let (result, w) := r.lookup env (Question.make question.name.text type) w
      match result.bind fun resolution => request.reply resolution.records with
      | .ok message => (message, w)
      | .error _ => (request.failureReply, w)

/-- Answer a request of a client. -/
def handle (r : Resolver) (env : Environment σ) (request : Message) (w : World σ) :
    Message × World σ :=
  match r with
  | iterative r => reply r env request w
  | forwarding f =>
    match f.relay env request w with
    | (.ok message, w) => (message, w)
    | (.error _, w) => (request.failureReply, w)

end Resolver

end CachingResolver
