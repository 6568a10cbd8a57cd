import CachingResolver.Lookup.Environment
import CachingResolver.Lookup.Resolution
import CachingResolver.Message.Reply
import CachingResolver.Message.Response

/-!
# Forwarding

A forwarder hands every question to one of its servers, which does the work, and stores the answer.
A failed exchange is not tried again elsewhere.
-/

namespace CachingResolver

/-- The servers that questions are handed to. -/
structure Forwarder where
  servers : List Endpoint
  servers_ne_nil : servers ≠ []
  deriving DecidableEq, Repr

namespace Forwarder

def make (servers : List Endpoint) : Except Failure Forwarder :=
  if h : servers ≠ [] then .ok ⟨servers, h⟩ else .error .noForwarders

def choose (f : Forwarder) (draw : Draw) : Endpoint :=
  match f.servers, f.servers_ne_nil with
  | first :: rest, _ => pick draw.server first rest

/-- The query for a question, and the server to send it to. -/
def ask (f : Forwarder) (draw : Draw) (q : Question) : Except Failure (Endpoint × Message) := do
  return (f.choose draw, ← Message.query draw.id q.name q.type true)

def answers (server : Endpoint) (q : Question) (m : Message) :
    Except Failure (List ResourceRecord) :=
  if m.code ≠ .noError then
    .error (.unresolved (server.text ++ " answered " ++ m.code.status ++ " for " ++ q.text))
  else
    match m.answerChain q.name q.type Name.root with
    | [] => .error (.unresolved (server.text ++ " returned no answer for " ++ q.text))
    | r :: rs => .ok (r :: rs)

def resolution (server : Endpoint) (records : List ResourceRecord) : Resolution where
  records := records
  isCacheHit := false
  aliases := (recordsOf .cname).map (·.value)
  server := some server
where
  recordsOf (type : RecordType) : List ResourceRecord :=
    records.filter (·.type == type)

/-- Take what came back from a server, time having passed, and store the answer. -/
def conclude (server : Endpoint) (q : Question) (arrival : Arrival) (c : Cache) :
    Except Failure Resolution × Cache :=
  let c := c.advance arrival.elapsed
  match arrival.outcome.bind (answers server q) with
  | .ok records =>
    (.ok (resolution server records), c.storeAll arrival.rttMs (RecordSet.groups records))
  | .error failure => (.error failure, c)

variable {σ : Type}

def lookup (f : Forwarder) (env : Environment σ) (q : Question) (w : World σ) :
    Except Failure Resolution × World σ :=
  let (draw, outside) := env.draw w.outside
  match f.ask draw q with
  | .error failure => (.error failure, { w with outside })
  | .ok (server, query) =>
    let (arrival, outside) := env.exchange outside server query
    let (result, cache) := conclude server q arrival w.cache
    (result, { cache, outside })

/-- Hand a request on as it is.  The response goes back as it comes. -/
def relay (f : Forwarder) (env : Environment σ) (request : Message) (w : World σ) :
    Except Failure Message × World σ :=
  let (draw, outside) := env.draw w.outside
  let (arrival, outside) := env.exchange outside (f.choose draw) request
  (arrival.outcome, { cache := w.cache.advance arrival.elapsed, outside })

end Forwarder

end CachingResolver
