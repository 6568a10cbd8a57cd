import CachingResolver.Cache.EnclosingZone
import CachingResolver.Lookup.Compose
import CachingResolver.Lookup.Environment
import CachingResolver.Lookup.PendingStack
import CachingResolver.Message.Reply
import CachingResolver.Message.Response

/-!
# One step of an iterative lookup

A search works on a stack of pending questions: whatever must be known before a question can be
asked (the address of a name server, the target of an alias) stands above it.  A step settles the
question on top in two parts.  `prepare` looks into the cache: it settles the question there, puts
other work first, or chooses a server of the nearest enclosing zone to ask.  `conclude` takes the
response: it stores answers and referrals that stay inside the zone asked, remembers refusals, and
changes the stack accordingly.
-/

namespace CachingResolver

structure Search where
  pending : PendingStack
  failed : List Question := []
  -- The questions that aliases have led to.
  chased : List Question := []
  exchanges : Nat := 0
  lastServer : Option Endpoint := none
  deriving DecidableEq, Repr

/-- What the first part of a step comes to. -/
inductive Preparation where
  | settled (search : Search)
  | impossible (failure : Failure)
  | ask (zone : Zone) (server : Endpoint) (query : Message)

namespace Search

def start (q : Question) : Search where
  pending := .single q

def fail (s : Search) (q : Question) : Search :=
  { s with pending := s.pending.remove q, failed := q :: s.failed }

def settle (s : Search) (q : Question) : Search :=
  { s with pending := s.pending.remove q }

/-- Put the target of an alias in place of a question.  A target that has been put before closes a
loop, and the question fails. -/
def chase (s : Search) (current : Question) (target : String) : Search :=
  let next := Question.make target current.type
  if s.chased.contains next then s.fail current
  else
    { s with
      chased := next :: s.chased
      pending := (s.pending.remove current).push next }

/-- The address to ask among the addresses of a server: of IPv4 if there is one. -/
def chooseAddress (draw : Draw) (ips : List IpAddress) : Option IpAddress :=
  match ips.filter IpAddress.isV4, ips with
  | first :: rest, _ => some (pick draw.address first rest)
  | [], first :: rest => some (pick draw.address first rest)
  | [], [] => none

/-- The address to ask among the servers of a zone for which an address is known. -/
def chooseServer (draw : Draw) (zone : Zone) : Option IpAddress :=
  match zone.reachable with
  | [] => none
  | first :: rest => chooseAddress draw (pick draw.server first rest).2

/-- The questions for an address of a server of a zone that may still be settled. -/
def addressQuestions (s : Search) (current : Question) (zone : Zone) : List Question :=
  (zone.serverNames.map fun name => Question.make name .a).filter fun q =>
    q != current && !s.pending.contains q && !s.failed.contains q

/-- Put the question for an address of some server first; without one the question fails. -/
def defer (s : Search) (draw : Draw) (current : Question) (zone : Zone) : Search :=
  match s.addressQuestions current zone with
  | [] => s.fail current
  | first :: rest =>
    { s with pending := (s.pending.push current).push (pick draw.server first rest) }

/-- Decide whom to ask a question that the cache cannot settle. -/
def prepareQuery (draw : Draw) (port : UInt16) (current : Question) (s : Search) (c : Cache) :
    Preparation × Cache :=
  let (zone, c) := c.zoneFor current.name
  if zone.isUnknown then (.impossible (.rootHints "root zone is not cached"), c)
  else
    match chooseServer draw zone with
    | none => (.settled (s.defer draw current zone), c)
    | some ip =>
      match Message.query draw.id current.name current.type false with
      | .ok query => (.ask zone ⟨ip, port, 0⟩ query, c)
      | .error failure => (.impossible failure, c)

/-- The first part of a step. -/
def prepare (draw : Draw) (port : UInt16) (current : Question) (s : Search) (c : Cache) :
    Preparation × Cache :=
  let (found, c) := c.lookup current.name current.type
  match found with
  | some a => (.settled (if a.isNegative then s.fail current else s.settle current), c)
  | none =>
    if current.type = .cname then prepareQuery draw port current s c
    else
      let (link, c) := c.readAlias? current.name
      match link with
      | some (target, _) => (.settled (s.chase current target), c)
      | none => prepareQuery draw port current s c

/-- Store the answers that belong to a question and lie inside the zone asked. -/
def storeAnswers (current : Question) (zone : Zone) (m : Message) (rttMs : UInt32) (c : Cache) :
    Cache :=
  c.storeAll rttMs (RecordSet.groups (m.answerChain current.name current.type zone.name))

/-- Whether a referral leads from a zone down towards a name. -/
def descends (zone : Zone) (name target : String) : Bool :=
  target != zone.name && Name.isSubdomain target zone.name && Name.isSubdomain name target

/-- Follow a referral.  The question stays pending; without addresses in the response, the questions
for those of the servers are put above it. -/
def followReferral (current : Question) (zone : Zone) (m : Message) (kind : ResponseKind)
    (rttMs : UInt32) (s : Search) (c : Cache) : Search × Cache :=
  match m.referralServers with
  | [] => (s.fail current, c)
  | first :: rest =>
    let target := first.name
    if !descends zone current.name target then (s.fail current, c)
    else
      let (_, c) := c.storeWithGlue (first :: rest) m.additionalRecords rttMs
      let pending := s.pending.push current
      if kind = .bareDelegation then
        let servers := (first :: rest).filter fun r => r.name == target
        let questions := servers.map fun r => Question.make r.value .a
        let fresh := questions.filter fun q => q != current && !s.failed.contains q
        ({ s with pending := pending.pushAll fresh }, c)
      else ({ s with pending }, c)

/-- The kind of a response to a question.  To a question for an alias, the alias is the answer. -/
def kindFor (current : Question) (m : Message) : ResponseKind :=
  match ResponseKind.of (some m) with
  | .cname => if current.type = .cname then .answer else .cname
  | kind => kind

def take (current : Question) (zone : Zone) (server : Endpoint) (m : Message) (rttMs : UInt32)
    (s : Search) (c : Cache) : Search × Cache :=
  let s := { s with lastServer := some server }
  let refuse (reason : String) : Search × Cache :=
    (s.fail current, c.setNegative current.name current.type reason)
  match kindFor current m with
  | .answer => (s.settle current, storeAnswers current zone m rttMs c)
  | .cname =>
    let s := s.settle current
    let (link, c) := (storeAnswers current zone m rttMs c).readAlias? current.name
    match link with
    | some (target, _) => (s.chase current target, c)
    | none => (s.fail current, c)
  | .delegation => followReferral current zone m .delegation rttMs s c
  | .bareDelegation => followReferral current zone m .bareDelegation rttMs s c
  | .unknown => refuse m.code.status
  | .refused => refuse ResponseKind.refused.text
  | .notUnderstood => refuse ResponseKind.notUnderstood.text
  | .none => (s.fail current, c)

/-- The second part of a step: time has passed, and a response has arrived or not. -/
def conclude (current : Question) (zone : Zone) (server : Endpoint) (arrival : Arrival) (s : Search)
    (c : Cache) : Search × Cache :=
  let s := { s with exchanges := s.exchanges + 1 }
  let c := c.advance arrival.elapsed
  match arrival.outcome with
  | .ok m => take current zone server m arrival.rttMs s c
  | .error _ => (s.fail current, c)

end Search

end CachingResolver
