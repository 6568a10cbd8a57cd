import CachingResolver.Lookup.Resolver
import CachingResolver.Proofs.Except
import CachingResolver.Proofs.Lookup.AnswerScope

/-!
# Replies to requests

A resolver makes replies of its own: the reply with the records of a lookup, the reply that tells of
a failure, and the rejection of a request that it cannot look up.  All of them belong to their
request (`BelongsTo`).  The rejection alone does not repeat the questions, so a reply repeats them
unless an iterative resolver is asked for a type that it does not understand
(`Resolver.belongs_and_repeats_iff`).

When it does understand the type, the reply of an iterative resolver has all records of the lookup
or none: `Resolver.reply_all_or_nothing`.
-/

namespace CachingResolver

/-- A record inside the resolver has a wire form. -/
def ResourceRecord.IsEncodable (r : ResourceRecord) : Prop :=
  ∃ wire, r.toWire = .ok wire

instance (r : ResourceRecord) : Decidable r.IsEncodable :=
  match h : r.toWire with
  | .ok wire => isTrue ⟨wire, h⟩
  | .error _ => isFalse fun ⟨_, hwire⟩ => nomatch h.symm.trans hwire

theorem exists_forall₂_toWire_iff {rs : List ResourceRecord} :
    (∃ wires, List.Forall₂ (fun r wire => r.toWire = .ok wire) rs wires) ↔
      ∀ r ∈ rs, r.IsEncodable := by
  constructor
  · rintro ⟨wires, h⟩
    induction h with
    | nil => exact fun r hr => absurd hr List.not_mem_nil
    | cons hr _ ih => exact List.forall_mem_cons.2 ⟨⟨_, hr⟩, ih⟩
  · intro h
    induction rs with
    | nil => exact ⟨[], .nil⟩
    | cons r rs ih =>
        obtain ⟨⟨wire, hwire⟩, hrs⟩ := List.forall_mem_cons.1 h
        obtain ⟨wires, hwires⟩ := ih hrs
        exact ⟨wire :: wires, .cons hwire hwires⟩

namespace Message

/-- What a client recognises a reply by, the questions apart. -/
structure BelongsTo (reply request : Message) : Prop where
  id_eq : reply.id = request.id
  opcode_eq : reply.opcode = request.opcode
  isResponse : reply.isResponse = true

/-- The first question of a request is for a type that the resolver understands. -/
def AsksKnownType (request : Message) : Prop :=
  ∃ question ∈ request.questions.head?, (RecordType.ofNumber? question.type).isSome = true

/-- A reply in full: the records in wire form, each and in order. -/
def AnswersWith (reply : Message) (records : List ResourceRecord) : Prop :=
  reply.code = .noError ∧ List.Forall₂ (fun r wire => r.toWire = .ok wire) records reply.answers

/-- A reply that tells of a failure and holds no records. -/
def TellsFailure (reply : Message) : Prop :=
  reply.code = .serverFailure ∧ reply.answers = []

/-- The reply to a request whose question had an outcome. -/
def replyTo (request : Message) (outcome : Except Failure Resolution) : Message :=
  match outcome.bind fun resolution => request.reply resolution.records with
  | .ok message => message
  | .error _ => request.failureReply

section Replies

variable {request message : Message} {code : ResponseCode} {records : List ResourceRecord}
  {outcome : Except Failure Resolution}

theorem reply_eq_ok_iff : request.reply records = .ok message ↔
    ∃ answers, List.Forall₂ (fun r wire => r.toWire = .ok wire) records answers ∧
      message = { request.replyFrame .noError with answers } := by
  unfold reply
  simp only [bind_eq_ok_iff, pure_eq_ok_iff, mapM_eq_ok_iff]
  exact exists_congr fun answers => and_congr_right fun _ => eq_comm

/-- A reply to an outcome is the frame of a reply around records in wire form. -/
theorem exists_replyTo_eq (request : Message) (outcome : Except Failure Resolution) :
    ∃ code answers, request.replyTo outcome = { request.replyFrame code with answers } := by
  unfold replyTo
  split
  · rename_i message hmessage
    cases outcome with
    | error failure => cases hmessage
    | ok resolution =>
        obtain ⟨answers, -, rfl⟩ := reply_eq_ok_iff.1 hmessage
        exact ⟨_, answers, rfl⟩
  · exact ⟨.serverFailure, [], rfl⟩

theorem answersWith_replyTo {resolution : Resolution}
    (h : ∀ r ∈ resolution.records, r.IsEncodable) :
    (request.replyTo (.ok resolution)).AnswersWith resolution.records := by
  obtain ⟨answers, hanswers⟩ := exists_forall₂_toWire_iff.2 h
  have hreply : (Except.ok resolution : Except Failure Resolution).bind
      (fun resolution => request.reply resolution.records) = .ok _ :=
    reply_eq_ok_iff.2 ⟨answers, hanswers, rfl⟩
  unfold replyTo
  rw [hreply]
  exact ⟨rfl, hanswers⟩

theorem tellsFailure_replyTo (h : ∀ resolution, outcome = .ok resolution →
    ¬ ∀ r ∈ resolution.records, r.IsEncodable) : (request.replyTo outcome).TellsFailure := by
  unfold replyTo
  split
  · rename_i message hmessage
    cases outcome with
    | error failure => cases hmessage
    | ok resolution =>
        obtain ⟨answers, hanswers, -⟩ := reply_eq_ok_iff.1 hmessage
        exact absurd (exists_forall₂_toWire_iff.1 ⟨answers, hanswers⟩) (h resolution rfl)
  · exact ⟨rfl, rfl⟩

end Replies

end Message

namespace Resolver

section

variable {σ : Type}

/-- The reply is not one that came back from a server. -/
def RepliesItself (r : Resolver) (env : Environment σ) (request : Message) (w : World σ) : Prop :=
  ∀ f, r = .forwarding f → ∃ failure, (f.relay env request w).1 = .error failure

/-- The request is one that the resolver would have to look up by a type it does not understand. -/
def Rejects (r : Resolver) (request : Message) : Prop :=
  (∃ settings, r = .iterative settings) ∧ ¬ request.AsksKnownType

variable {r : Resolver} {env : Environment σ} {request : Message} {w : World σ}

theorem reply_of_known {settings : Iterative} {question : WireQuestion} {rest : List WireQuestion}
    {type : RecordType} (hquestions : request.questions = question :: rest)
    (htype : RecordType.ofNumber? question.type = some type) :
    reply settings env request w =
      (request.replyTo (settings.lookup env (.make question.name.text type) w).1,
        (settings.lookup env (.make question.name.text type) w).2) := by
  unfold reply Message.replyTo
  rw [hquestions]
  dsimp only
  rw [htype]
  dsimp only
  cases (settings.lookup env (.make question.name.text type) w).1.bind fun resolution =>
      request.reply resolution.records with
  | error failure => rfl
  | ok message => rfl

theorem reply_of_not_known {settings : Iterative} (hquestions : request.questions ≠ [])
    (htype : ¬ request.AsksKnownType) :
    reply settings env request w = (request.rejection .notImplemented, w) := by
  obtain ⟨question, rest, heq⟩ := List.exists_cons_of_ne_nil hquestions
  have hnone : RecordType.ofNumber? question.type = none := by
    by_contra hsome
    exact htype ⟨question, by rw [heq]; rfl, Option.isSome_iff_ne_none.2 hsome⟩
  unfold reply
  rw [heq]
  dsimp only
  rw [hnone]

/-- A reply of a resolver itself is a rejection, or a frame around records. -/
theorem handle_cases (hquestions : request.questions ≠ [])
    (hself : r.RepliesItself env request w) :
    (r.Rejects request ∧ (r.handle env request w).1 = request.rejection .notImplemented) ∨
      ¬ r.Rejects request ∧ ∃ code answers,
        (r.handle env request w).1 = { request.replyFrame code with answers } := by
  cases r with
  | forwarding f =>
      obtain ⟨failure, hfailure⟩ := hself f rfl
      have hrejects : ¬ (forwarding f).Rejects request := by
        rintro ⟨⟨settings, ⟨⟩⟩, -⟩
      refine .inr ⟨hrejects, .serverFailure, [], ?_⟩
      have hrelay : f.relay env request w = (.error failure, (f.relay env request w).2) :=
        Prod.ext hfailure rfl
      unfold handle
      dsimp only
      rw [hrelay]
      rfl
  | iterative settings =>
      by_cases hknown : request.AsksKnownType
      · obtain ⟨question, hquestion, hsome⟩ := hknown
        obtain ⟨type, htype⟩ := Option.isSome_iff_exists.1 hsome
        obtain ⟨rest, hrest⟩ := List.head?_eq_some_iff.1 hquestion
        refine .inr ⟨fun hrejects => hrejects.2 ⟨question, hquestion, hsome⟩, ?_⟩
        have hreply : reply settings env request w = _ := reply_of_known hrest htype
        unfold handle
        dsimp only
        rw [hreply]
        exact Message.exists_replyTo_eq request _
      · exact .inl ⟨⟨⟨settings, rfl⟩, hknown⟩,
          congrArg Prod.fst (reply_of_not_known hquestions hknown)⟩

/-- Every reply that a resolver makes itself belongs to its request, and it repeats the questions
unless the resolver rejects the request, whatever the cache holds and the servers do. -/
theorem belongs_and_repeats_iff (r : Resolver) (env : Environment σ) (request : Message)
    (w : World σ) (hquestions : request.questions ≠ []) (hself : r.RepliesItself env request w) :
    (r.handle env request w).1.BelongsTo request ∧
      ((r.handle env request w).1.questions = request.questions ↔ ¬ r.Rejects request) := by
  rcases handle_cases hquestions hself with ⟨hrejects, hreply⟩ | ⟨hrejects, code, answers, hreply⟩
  · rw [hreply]
    exact ⟨⟨rfl, rfl, rfl⟩, iff_of_false (Ne.symm hquestions) (not_not.2 hrejects)⟩
  · rw [hreply]
    exact ⟨⟨rfl, rfl, rfl⟩, iff_of_true rfl hrejects⟩

end

/-- A request for the addresses of `www.sub.example.com.`. -/
def addressRequest : Message :=
  { id := 7, recursionDesired := true
    questions :=
      [{ name := .ofTexts ["www", "sub", "example", "com"], type := RecordType.a.number }] }

/-- The theorem at work: a reply to a request for addresses. -/
theorem repeats_addressRequest :
    let r : Resolver := .iterative {}
    let env := Environment.responding Inquiry.mixedAnswer
    let w : World Unit := ⟨Referral.bankCache, ()⟩
    addressRequest.questions ≠ [] ∧ r.RepliesItself env addressRequest w ∧
      ¬ r.Rejects addressRequest ∧
      (r.handle env addressRequest w).1.BelongsTo addressRequest ∧
      (r.handle env addressRequest w).1.questions = addressRequest.questions := by
  intro r env w
  have hne : addressRequest.questions ≠ [] := List.cons_ne_nil _ _
  have hself : r.RepliesItself env addressRequest w := nofun
  have hknown : ¬ r.Rejects addressRequest := fun ⟨_, hunknown⟩ => hunknown ⟨_, rfl, rfl⟩
  obtain ⟨hbelongs, hiff⟩ := belongs_and_repeats_iff r env addressRequest w hne hself
  exact ⟨hne, hself, hknown, hbelongs, hiff.2 hknown⟩

/-- A request for the certification authorities of `www.example.com.`, a type that is not
understood. -/
def authorityRequest : Message :=
  { id := 7, recursionDesired := true
    questions := [{ name := .ofTexts ["www", "example", "com"], type := 257 }] }

/-- The rejection of a request does not repeat its question. -/
theorem not_repeats_authorityRequest :
    ¬ ∀ (r : Resolver) (env : Environment Unit) (request : Message) (w : World Unit),
        request.questions ≠ [] → r.RepliesItself env request w →
        (r.handle env request w).1.BelongsTo request ∧
          (r.handle env request w).1.questions = request.questions := by
  intro hclaim
  have hrepeats := (hclaim (.iterative {}) (.responding {}) authorityRequest ⟨{}, ()⟩
    (List.cons_ne_nil _ _) nofun).2
  exact absurd hrepeats (by decide)

section

variable {σ : Type}

/-- The reply of an iterative resolver to a question of a type that it understands has all records
of the lookup or none. -/
theorem reply_all_or_nothing (settings : Iterative) (env : Environment σ) (request : Message)
    (w : World σ) {question : WireQuestion} {rest : List WireQuestion} {type : RecordType}
    (hquestions : request.questions = question :: rest)
    (htype : RecordType.ofNumber? question.type = some type) :
    let looked := settings.lookup env (.make question.name.text type) w
    let handled := (iterative settings).handle env request w
    (∀ resolution, looked.1 = .ok resolution → (∀ r ∈ resolution.records, r.IsEncodable) →
      handled.1.AnswersWith resolution.records) ∧
    ((∀ resolution, looked.1 = .ok resolution → ¬ ∀ r ∈ resolution.records, r.IsEncodable) →
      handled.1.TellsFailure) ∧
    handled.1.recursionDesired = request.recursionDesired ∧
    handled.1.recursionAvailable = true ∧
    handled.1.authorities = [] ∧ handled.1.additionals = [] ∧
    handled.2 = looked.2 := by
  intro looked handled
  have hhandled : handled = (request.replyTo looked.1, looked.2) := reply_of_known hquestions htype
  obtain ⟨code, answers, hframe⟩ := request.exists_replyTo_eq looked.1
  rw [hhandled]
  refine ⟨fun resolution hok hall => ?_, Message.tellsFailure_replyTo, ?_⟩
  · rw [hok]
    exact Message.answersWith_replyTo hall
  · rw [hframe]
    exact ⟨rfl, rfl, rfl, rfl, rfl⟩

end

/-- The records that answer the request for addresses. -/
def addressRecords : List ResourceRecord :=
  [.make "www.sub.example.com." 300 .cname "web.example.com.",
   .make "web.example.com." 300 .a "203.0.113.50"]

/-- The theorem at work: an alias and an address are found, and both are in the reply. -/
theorem answersWith_addressRecords :
    (∃ resolution, (({} : Iterative).lookup (.responding Inquiry.mixedAnswer)
        (.make (DomainName.ofTexts ["www", "sub", "example", "com"]).text .a)
        ⟨Referral.bankCache, ()⟩).1 = .ok resolution ∧ resolution.records = addressRecords) ∧
      ((Resolver.iterative {}).handle (.responding Inquiry.mixedAnswer) addressRequest
        ⟨Referral.bankCache, ()⟩).1.AnswersWith addressRecords := by
  have hok : (({} : Iterative).lookup (.responding Inquiry.mixedAnswer)
      (.make (DomainName.ofTexts ["www", "sub", "example", "com"]).text .a)
      ⟨Referral.bankCache, ()⟩).1 =
      .ok
        { records := addressRecords
          isCacheHit := false
          aliases := ["web.example.com."]
          server := some ⟨.v4 ⟨203, 0, 113, 10⟩, 53, 0⟩ } := by decide +kernel
  have hall : ∀ r ∈ addressRecords, r.IsEncodable := by decide +kernel
  obtain ⟨hfull, -⟩ := reply_all_or_nothing {} (.responding Inquiry.mixedAnswer) addressRequest
    ⟨Referral.bankCache, ()⟩ rfl rfl
  exact ⟨⟨_, hok, rfl⟩, hfull _ hok hall⟩

end Resolver

end CachingResolver
