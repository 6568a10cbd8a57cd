import CachingResolver.Lookup.Environment
import CachingResolver.Message.Decode
import CachingResolver.Message.Encode

/-!
# Talking to a server

An exchange sends a query in a datagram and takes the first datagram that comes back with the id of
the query; all others are passed over.  A response that was cut short is asked for again over a
stream.  What the network does is a value: the datagrams that arrive before the deadline, and the
octets that a stream yields before its end.  `exchangeBy` is the order in which an exchange asks,
whatever else may go with the asking.
-/

namespace CachingResolver

open CachingResolver.Octets

/-- What can go wrong with a socket. -/
inductive SocketFailure where
  | refused
  | other (reason : String)
  deriving DecidableEq, Repr

structure Datagram where
  source : Endpoint
  octets : List UInt8
  deriving DecidableEq, Repr

/-- The most octets that are kept of a datagram. -/
def Datagram.maxSize : Nat := 4096

/-- A datagram as far as it is kept. -/
def Datagram.kept (d : Datagram) : Datagram :=
  { d with octets := d.octets.take maxSize }

/-- What comes of sending a datagram. -/
inductive DatagramExchange where
  | unsent (reason : String)
  -- It is sent, and these datagrams and errors arrive in order before the deadline.
  | arrivals (events : List (Except SocketFailure Datagram))

/-- What comes of sending octets over a stream. -/
inductive StreamExchange where
  | failed (failure : SocketFailure)
  -- These octets arrive before the other end closes the stream or, unless `isClosed`, before the
  -- deadline.
  | octets (octets : List UInt8) (isClosed : Bool)

/-- The ways in which octets go to a server. -/
inductive Leg where
  | datagram
  | stream
  deriving DecidableEq, Repr

/-- A network: what comes of sending octets to a server. -/
structure Network where
  datagram : Endpoint → List UInt8 → DatagramExchange
  stream : Endpoint → List UInt8 → StreamExchange

namespace Network

def socketFailure (server : Endpoint) : SocketFailure → Failure
  | .refused => .connectionRefused server.text
  | .other reason => .connectionFailed server.text reason

/-- The id at the start of a message. -/
def messageId? : List UInt8 → Option UInt16
  | high :: low :: _ => some (UInt16.ofNat (toNat [high, low]))
  | _ => none

/-- Whether a datagram answers a query: it starts with the id of the query, if that has one. -/
def answers (query response : List UInt8) : Bool :=
  (messageId? query).isNone || messageId? response == messageId? query

/-- Wait for the datagram that answers a query. -/
def awaitDatagram (server : Endpoint) (query : List UInt8) :
    List (Except SocketFailure Datagram) → Except Failure Datagram
  | [] => .error (.timeout server.text)
  | .error failure :: _ => .error (socketFailure server failure)
  | .ok datagram :: rest =>
    if answers query datagram.kept.octets then .ok datagram.kept
    else awaitDatagram server query rest

/-- Send a query in a datagram and wait for the answer. -/
def askByDatagram (net : Network) (server : Endpoint) (query : List UInt8) :
    Except Failure (List UInt8) :=
  match net.datagram server query with
  | .unsent reason => .error (.connectionFailed server.text reason)
  | .arrivals events => (awaitDatagram server query events).map (·.octets)

/-- The message that a stream yields, after its length in two octets. -/
def readStream (server : Endpoint) (octets : List UInt8) (isClosed : Bool) :
    Except Failure (List UInt8) :=
  let message := do
    let (size, rest) ← readNat 2 octets
    let (message, _) ← take? size rest
    return message
  match message with
  | some message => .ok message
  | none =>
    .error (if isClosed then .connectionFailed server.text "early eof" else .timeout server.text)

/-- Send a query over a stream, after its length in two octets, and wait for the answer. -/
def askByStream (net : Network) (server : Endpoint) (query : List UInt8) :
    Except Failure (List UInt8) :=
  if Message.maxSize < query.length then .error (.connectionFailed server.text "message too large")
  else
    match net.stream server (ofNat 2 query.length ++ query) with
    | .failed failure => .error (socketFailure server failure)
    | .octets octets isClosed => readStream server octets isClosed

/-- The message in some octets, which has to have the id of the query. -/
def correlate (server : Endpoint) (id : UInt16) (octets : List UInt8) : Except Failure Message := do
  let message ← Message.decode octets
  if message.id = id then return message
  else
    throw (.malformedMessage (server.text ++ " answered id " ++ Text.decimal message.id.toNat ++
      " to query id " ++ Text.decimal id.toNat))

/-- Send a query in one of the ways and wait for the answer. -/
def ask (net : Network) (leg : Leg) (server : Endpoint) (query : List UInt8) :
    Except Failure (List UInt8) :=
  match leg with
  | .datagram => net.askByDatagram server query
  | .stream => net.askByStream server query

/-- Send a query to a server and wait for its response: in datagrams, and over a stream if the
response that comes that way is cut short. -/
def exchangeBy {m : Type → Type} [Monad m] [MonadLiftT (Except Failure) m]
    (ask : Leg → List UInt8 → m (List UInt8)) (server : Endpoint) (query : Message) :
    m Message := do
  let octets ← query.encode
  let response ← correlate server query.id (← ask .datagram octets)
  if response.isTruncated then correlate server query.id (← ask .stream octets)
  else return response

/-- The exchange of a query and its response over a network. -/
def exchange (net : Network) (server : Endpoint) (query : Message) : Except Failure Message :=
  exchangeBy (fun leg octets => net.ask leg server octets) server query

/-- What a host without a network says. -/
def unreachable : String := "Network is unreachable (os error 101)"

/-- The network of a host that is not connected to any. -/
def none : Network where
  datagram _ _ := .unsent unreachable
  stream _ _ := .failed (.other unreachable)

/-- The surroundings of a lookup on a network that does not change, where numbers are drawn from a
generator. -/
def environment (net : Network) : Environment StdGen where
  draw generator :=
    let (server, generator) := stdNext generator
    let (address, generator) := stdNext generator
    let (id, generator) := stdNext generator
    ({ server, address, id := UInt16.ofNat id }, generator)
  exchange generator server query := ({ outcome := net.exchange server query }, generator)

end Network

end CachingResolver
