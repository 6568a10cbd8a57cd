import CachingResolver.Network
import CachingResolver.Proofs.Except
import CachingResolver.Proofs.Octets

/-!
# What an exchange takes for the answer

An exchange waits for the first datagram with the id of its query and passes over all others
(`awaitDatagram_eq`).  `transcript` is an exchange with a record of the ways in which it asks, and
is the same with the record as without.  A stream is used exactly when the response that came in a
datagram was cut short, and from then on the exchange comes to what the stream comes to, never to
the response that was cut short (`exchange_correlated`).

Where datagrams come from plays no part (`awaitDatagram_readdressed`): one that has the id is taken
whoever sent it, so the answer comes from the server that was asked exactly when the first datagram
with the id does (`answered_by_server_iff`).
-/

namespace CachingResolver

open CachingResolver.Octets

namespace Network

/-! ### The id of a message -/

theorem messageId?_append (id : UInt16) (rest : List UInt8) :
    messageId? (ofWord16 id ++ rest) = some id := by
  have hread : toNat (ofNat 2 id.toNat) = id.toNat := by
    rw [toNat_ofNat]
    exact Nat.mod_eq_of_lt id.toNat_lt
  show some (UInt16.ofNat (toNat (ofNat 2 id.toNat))) = some id
  rw [hread, UInt16.ofNat_toNat]

/-- What is written of a message starts with its id. -/
theorem messageId?_of_encode {m : Message} {octets : List UInt8} (h : m.encode = .ok octets) :
    messageId? octets = some m.id := by
  unfold Message.encode at h
  split at h
  · rename_i written hwritten
    cases h
    unfold Message.encode? at hwritten
    simp only at hwritten
    split at hwritten
    · cases hwritten
    · simp only [Option.bind_eq_bind, Option.bind_eq_some_iff] at hwritten
      obtain ⟨answers, -, authorities, -, additionals, -, options, -, heq⟩ := hwritten
      cases heq
      unfold Message.encodeHeader
      simp only [List.append_assoc]
      exact messageId?_append m.id _
  · cases h

theorem messageId?_kept (d : Datagram) : messageId? d.kept.octets = messageId? d.octets := by
  obtain ⟨source, octets⟩ := d
  match octets with
  | [] => rfl
  | [_] => rfl
  | _ :: _ :: _ => rfl

/-! ### Waiting for a datagram -/

/-- The first datagram that has an id. -/
def correlated? (id : UInt16) (arrivals : List Datagram) : Option Datagram :=
  arrivals.find? fun d => messageId? d.octets == some id

section Datagrams

variable {server : Endpoint} {query : List UInt8} {id : UInt16} {arrivals : List Datagram}

theorem answers_kept (hid : messageId? query = some id) (d : Datagram) :
    answers query d.kept.octets = (messageId? d.octets == some id) := by
  unfold answers
  rw [hid, messageId?_kept, Option.isNone_some, Bool.false_or]

/-- The first datagram with the id of the query is taken, and without one the time runs out. -/
theorem awaitDatagram_eq (hid : messageId? query = some id) :
    awaitDatagram server query (arrivals.map .ok) =
      match correlated? id arrivals with
      | some d => .ok d.kept
      | .none => .error (.timeout server.text) := by
  induction arrivals with
  | nil => rfl
  | cons d arrivals ih =>
      rw [List.map_cons, awaitDatagram, answers_kept hid]
      unfold correlated?
      rw [List.find?_cons]
      cases messageId? d.octets == some id with
      | true => rfl
      | false => exact ih

/-- A datagram may come from anywhere: what is taken stays the same. -/
theorem awaitDatagram_readdressed (source : Datagram → Endpoint)
    (events : List (Except SocketFailure Datagram)) :
    (awaitDatagram server query
        (events.map (·.map fun d => { d with source := source d }))).map (·.octets) =
      (awaitDatagram server query events).map (·.octets) := by
  induction events with
  | nil => rfl
  | cons event events ih =>
      cases event with
      | error failure => rfl
      | ok d =>
          have hkept : ({ d with source := source d } : Datagram).kept.octets = d.kept.octets := rfl
          rw [List.map_cons, Except.map, awaitDatagram, awaitDatagram, hkept]
          split
          · rfl
          · exact ih

/-- The answer comes from the server that was asked exactly when the first datagram with the id
does: no other is preferred to it. -/
theorem answered_by_server_iff (hid : messageId? query = some id) :
    (∀ d, awaitDatagram server query (arrivals.map .ok) = .ok d → d.source = server) ↔
      ∀ d, correlated? id arrivals = some d → d.source = server := by
  rw [awaitDatagram_eq hid]
  cases correlated? id arrivals with
  | none => exact ⟨fun _ d h => (nomatch h), fun _ d h => (nomatch h)⟩
  | some first =>
      constructor
      · rintro hserver d ⟨⟩
        exact hserver first.kept rfl
      · rintro hserver d ⟨⟩
        exact hserver first rfl

end Datagrams

/-- A datagram of a third party with the id of the query is taken for the answer of the server. -/
theorem forged_datagram_taken :
    ¬ ∀ (server : Endpoint) (query : List UInt8) (id : UInt16) (arrivals : List Datagram),
        messageId? query = some id →
          ∀ d, awaitDatagram server query (arrivals.map .ok) = .ok d → d.source = server := by
  intro hclaim
  let server : Endpoint := { ip := .v4 ⟨192, 0, 2, 53⟩, port := 53 }
  let forged : Datagram :=
    { source := { ip := .v4 ⟨203, 0, 113, 66⟩, port := 53 }, octets := [0, 7] }
  have htaken : awaitDatagram server [0, 7] ([forged].map .ok) = .ok forged := by decide
  exact absurd (hclaim server [0, 7] 7 [forged] rfl forged htaken) (by decide)

/-! ### The legs of an exchange -/

/-- Ask in one of the ways and record it. -/
def askRecorded (net : Network) (server : Endpoint) (leg : Leg) (query : List UInt8) :
    ExceptT Failure (StateM (List Leg)) (List UInt8) := do
  modify fun legs => legs ++ [leg]
  net.ask leg server query

/-- An exchange with a record of the ways in which it asks. -/
def transcript (net : Network) (server : Endpoint) (query : Message) :
    Except Failure Message × List Leg :=
  (exchangeBy (net.askRecorded server) server query).run.run []

/-- What one leg of an exchange comes to. -/
def roundTrip (net : Network) (server : Endpoint) (query : Message) (leg : Leg) :
    Except Failure Message := do
  correlate server query.id (← net.ask leg server (← query.encode))

/-- What comes back on a leg can be read as a message. -/
def Brings (net : Network) (server : Endpoint) (query : Message) (leg : Leg) (m : Message) : Prop :=
  ∃ octets reply, query.encode = .ok octets ∧ net.ask leg server octets = .ok reply ∧
    Message.decode reply = .ok m

section Legs

variable {net : Network} {server : Endpoint} {query m : Message} {leg : Leg}

theorem correlate_eq_ok_iff {id : UInt16} {octets : List UInt8} :
    correlate server id octets = .ok m ↔ Message.decode octets = .ok m ∧ m.id = id := by
  unfold correlate
  rw [bind_eq_ok_iff]
  constructor
  · rintro ⟨read, hread, hid⟩
    split at hid
    · rename_i heq
      obtain rfl : read = m := Except.ok.inj hid
      exact ⟨hread, heq⟩
    · cases hid
  · rintro ⟨hread, rfl⟩
    exact ⟨m, hread, if_pos rfl⟩

theorem roundTrip_of_encode {octets : List UInt8} (h : query.encode = .ok octets) :
    net.roundTrip server query leg =
      net.ask leg server octets >>= correlate server query.id := by
  unfold roundTrip
  rw [h]
  rfl

theorem roundTrip_of_encode_eq_error {failure : Failure} (h : query.encode = .error failure) :
    net.roundTrip server query leg = .error failure := by
  unfold roundTrip
  rw [h]
  rfl

theorem roundTrip_eq_ok_iff :
    net.roundTrip server query leg = .ok m ↔ net.Brings server query leg m ∧ m.id = query.id := by
  unfold roundTrip Brings
  simp only [bind_eq_ok_iff, correlate_eq_ok_iff]
  constructor
  · rintro ⟨octets, hencode, reply, hreply, hread, hid⟩
    exact ⟨⟨octets, reply, hencode, hreply, hread⟩, hid⟩
  · rintro ⟨⟨octets, reply, hencode, hreply, hread⟩, hid⟩
    exact ⟨octets, hencode, reply, hreply, hread, hid⟩

/-! A computation on the record goes part by part. -/

section Record

variable {α β : Type} (legs : List Leg)

theorem run_lift (x : Except Failure α) :
    (liftM x : ExceptT Failure (StateM (List Leg)) α).run.run legs = (x, legs) := rfl

theorem run_askRecorded (octets : List UInt8) :
    (net.askRecorded server leg octets).run.run legs =
      (net.ask leg server octets, legs ++ [leg]) := rfl

theorem run_bind (x : ExceptT Failure (StateM (List Leg)) α)
    (f : α → ExceptT Failure (StateM (List Leg)) β) :
    (x >>= f).run.run legs =
      match x.run.run legs with
      | (.ok a, legs) => (f a).run.run legs
      | (.error failure, legs) => (.error failure, legs) := by
  rw [ExceptT.run_bind, StateT.run_bind]
  show (match x.run.run legs with | (result, legs) => _) = _
  cases x.run.run legs with
  | mk result legs => cases result <;> rfl

end Record

/-- An exchange comes to its first leg, and to the stream if that leg brings a response that was cut
short. -/
theorem transcript_eq : net.transcript server query =
    match query.encode with
    | .error failure => (.error failure, [])
    | .ok _ =>
      match net.roundTrip server query .datagram with
      | .error failure => (.error failure, [.datagram])
      | .ok response =>
        if response.isTruncated then (net.roundTrip server query .stream, [.datagram, .stream])
        else (.ok response, [.datagram]) := by
  unfold transcript exchangeBy
  rw [run_bind, run_lift]
  cases hencode : query.encode with
  | error failure => rfl
  | ok octets =>
      dsimp only
      rw [run_bind, run_askRecorded, roundTrip_of_encode hencode, roundTrip_of_encode hencode]
      cases net.ask .datagram server octets with
      | error failure => rfl
      | ok reply =>
          dsimp only
          rw [run_bind, run_lift, ok_bind]
          cases correlate server query.id reply with
          | error failure => rfl
          | ok response =>
              dsimp only
              cases response.isTruncated with
              | false => rfl
              | true =>
                  rw [if_pos rfl, if_pos rfl, run_bind, run_askRecorded]
                  cases net.ask .stream server octets <;> rfl

/-- Without the record an exchange does the same. -/
theorem exchange_eq : net.exchange server query =
    match net.roundTrip server query .datagram with
    | .error failure => .error failure
    | .ok response =>
      if response.isTruncated then net.roundTrip server query .stream else .ok response := by
  have hexchange : net.exchange server query = (query.encode >>= fun octets =>
      net.ask .datagram server octets >>= fun reply =>
        correlate server query.id reply >>= fun response =>
          if response.isTruncated then
            net.ask .stream server octets >>= correlate server query.id
          else .ok response) := rfl
  rw [hexchange]
  cases hencode : query.encode with
  | error failure => rw [roundTrip_of_encode_eq_error hencode]; rfl
  | ok octets =>
      rw [ok_bind, roundTrip_of_encode hencode, roundTrip_of_encode hencode]
      cases net.ask .datagram server octets with
      | error failure => rfl
      | ok reply =>
          rw [ok_bind, ok_bind]
          cases correlate server query.id reply <;> rfl

theorem transcript_fst : (net.transcript server query).1 = net.exchange server query := by
  rw [transcript_eq, exchange_eq]
  cases hencode : query.encode with
  | error failure => rw [roundTrip_of_encode_eq_error hencode]
  | ok octets =>
      cases net.roundTrip server query .datagram with
      | error failure => rfl
      | ok response =>
          dsimp only
          cases response.isTruncated <;> rfl

theorem exchange_eq_ok_iff : net.exchange server query = .ok m ↔
    net.roundTrip server query .datagram = .ok m ∧ m.isTruncated = false ∨
      ∃ cut, net.roundTrip server query .datagram = .ok cut ∧ cut.isTruncated = true ∧
        net.roundTrip server query .stream = .ok m := by
  rw [exchange_eq]
  cases net.roundTrip server query .datagram with
  | error failure => simp
  | ok response =>
      dsimp only
      by_cases htruncated : response.isTruncated = true
      · rw [if_pos htruncated]
        refine ⟨fun h => .inr ⟨response, rfl, htruncated, h⟩, ?_⟩
        rintro (⟨⟨⟩, hwhole⟩ | ⟨cut, -, -, h⟩)
        · rw [htruncated] at hwhole
          cases hwhole
        · exact h
      · rw [if_neg htruncated]
        refine ⟨fun h => .inl ⟨h, ?_⟩, ?_⟩
        · cases h
          simpa using htruncated
        · rintro (⟨h, -⟩ | ⟨cut, ⟨⟩, hcut, -⟩)
          · exact h
          · exact absurd hcut htruncated

theorem stream_mem_transcript_iff : .stream ∈ (net.transcript server query).2 ↔
    ∃ cut, net.roundTrip server query .datagram = .ok cut ∧ cut.isTruncated = true := by
  rw [transcript_eq]
  cases hencode : query.encode with
  | error failure => simp [roundTrip_of_encode_eq_error hencode]
  | ok octets =>
      cases net.roundTrip server query .datagram with
      | error failure => simp
      | ok response => cases htruncated : response.isTruncated <;> simp [htruncated]

/-- A leg that fails takes the exchange with it. -/
theorem exchange_eq_error {failure : Failure} (hleg : leg ∈ (net.transcript server query).2)
    (h : net.roundTrip server query leg = .error failure) :
    net.exchange server query = .error failure := by
  cases leg with
  | datagram => rw [exchange_eq, h]
  | stream =>
      obtain ⟨cut, hcut, htruncated⟩ := stream_mem_transcript_iff.1 hleg
      rw [exchange_eq, hcut]
      dsimp only
      rw [if_pos htruncated, h]

end Legs

/-- For any network, and as long as its sockets report no failures of their own: of the datagrams
that arrive, the first one with the id of the query is taken, and the time runs out without one.  A
message starts with its id, so this is the id of the query.  A stream is used exactly when a
response with that id came in a datagram and was cut short.  The exchange returns a message exactly
when it has the id and either came whole in a datagram or came over the stream that was used; if a
leg fails, the exchange fails with it. -/
theorem exchange_correlated (net : Network) (server : Endpoint) :
    (∀ (query : List UInt8) (id : UInt16) (arrivals : List Datagram),
      messageId? query = some id → net.datagram server query = .arrivals (arrivals.map .ok) →
        net.ask .datagram server query =
          match correlated? id arrivals with
          | some d => .ok (d.octets.take 4096)
          | .none => .error (.timeout server.text)) ∧
    ∀ query : Message,
      (∀ octets, query.encode = .ok octets → messageId? octets = some query.id) ∧
      (net.transcript server query).1 = net.exchange server query ∧
      (.stream ∈ (net.transcript server query).2 ↔
        ∃ cut, net.Brings server query .datagram cut ∧ cut.id = query.id ∧
          cut.isTruncated = true) ∧
      (∀ m, net.exchange server query = .ok m ↔ m.id = query.id ∧
        (net.Brings server query .datagram m ∧ m.isTruncated = false ∨
          .stream ∈ (net.transcript server query).2 ∧ net.Brings server query .stream m)) ∧
      ∀ leg ∈ (net.transcript server query).2, ∀ failure,
        net.roundTrip server query leg = .error failure →
          net.exchange server query = .error failure := by
  refine ⟨fun query id arrivals hid harrivals => ?_, fun query =>
    ⟨fun octets => messageId?_of_encode, transcript_fst, ?_, fun m => ?_,
      fun leg hleg failure => exchange_eq_error hleg⟩⟩
  · have hasked : net.ask .datagram server query =
        (awaitDatagram server query (arrivals.map .ok)).map (·.octets) := by
      unfold ask askByDatagram
      dsimp only
      rw [harrivals]
    rw [hasked, awaitDatagram_eq hid]
    cases correlated? id arrivals <;> rfl
  · simp only [stream_mem_transcript_iff, roundTrip_eq_ok_iff, and_assoc]
  · simp only [exchange_eq_ok_iff, stream_mem_transcript_iff, roundTrip_eq_ok_iff]
    constructor
    · rintro (⟨⟨hbrings, hid⟩, hwhole⟩ | ⟨cut, hcut, htruncated, hbrings, hid⟩)
      · exact ⟨hid, .inl ⟨hbrings, hwhole⟩⟩
      · exact ⟨hid, .inr ⟨⟨cut, hcut, htruncated⟩, hbrings⟩⟩
    · rintro ⟨hid, ⟨hbrings, hwhole⟩ | ⟨⟨cut, hcut, htruncated⟩, hbrings⟩⟩
      · exact .inl ⟨⟨hbrings, hid⟩, hwhole⟩
      · exact .inr ⟨cut, hcut, htruncated, hbrings, hid⟩

/-- The server that is asked below. -/
def exampleServer : Endpoint := { ip := .v4 ⟨192, 0, 2, 53⟩, port := 53 }

/-- A response with id 7 that is cut short. -/
def cutOctets : List UInt8 := [0, 7, 130, 0, 0, 0, 0, 0, 0, 0, 0, 0]

/-- The datagrams that a query with id 7 meets: a stray octet, the response to another query and a
response that is cut short. -/
def strayDatagrams : List Datagram :=
  [⟨exampleServer, [7]⟩, ⟨exampleServer, [0, 8, 128, 0]⟩, ⟨exampleServer, cutOctets⟩]

/-- A network on which they arrive, and on which a stream gives the whole response. -/
def cutShort : Network where
  datagram _ _ := .arrivals (strayDatagrams.map .ok)
  stream _ _ := .octets [0, 12, 0, 7, 128, 0, 0, 0, 0, 0, 0, 0, 0, 0] true

/-- The theorem at work: two datagrams are passed over, and the answer comes over the stream. -/
theorem exchange_correlated_cutShort :
    messageId? [0, 7] = some 7 ∧
      cutShort.datagram exampleServer [0, 7] = .arrivals (strayDatagrams.map .ok) ∧
      cutShort.ask .datagram exampleServer [0, 7] = .ok cutOctets ∧
      .stream ∈ (cutShort.transcript exampleServer { id := 7 }).2 ∧
      cutShort.exchange exampleServer { id := 7 } = .ok { id := 7, isResponse := true } := by
  have hid : messageId? [0, 7] = some 7 := rfl
  have hencode : ({ id := 7 } : Message).encode = .ok [0, 7, 0, 0, 0, 0, 0, 0, 0, 0, 0, 0] := by
    decide +kernel
  have hdatagram : cutShort.Brings exampleServer { id := 7 } .datagram
      { id := 7, isResponse := true, isTruncated := true } :=
    ⟨_, cutOctets, hencode, by decide +kernel, by decide +kernel⟩
  have hwhole : cutShort.Brings exampleServer { id := 7 } .stream { id := 7, isResponse := true } :=
    ⟨_, [0, 7, 128, 0, 0, 0, 0, 0, 0, 0, 0, 0], hencode, by decide +kernel, by decide +kernel⟩
  obtain ⟨hasked, hexchange⟩ := exchange_correlated cutShort exampleServer
  obtain ⟨-, -, hstream, hok, -⟩ := hexchange { id := 7 }
  have hused : .stream ∈ (cutShort.transcript exampleServer { id := 7 }).2 :=
    hstream.2 ⟨_, hdatagram, rfl, rfl⟩
  exact ⟨hid, rfl, hasked [0, 7] 7 strayDatagrams hid rfl, hused,
    (hok _).2 ⟨rfl, .inr ⟨hused, hwhole⟩⟩⟩

end Network

end CachingResolver
