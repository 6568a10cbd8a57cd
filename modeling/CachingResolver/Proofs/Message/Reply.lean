import CachingResolver.Proofs.Lookup.Reply
import CachingResolver.Proofs.Message.Record

/-!
# Replies as octets

A reply is made of records that came out of messages, and it has to be written as a message again.
Its records keep everything on the way but the division of text into strings: all text of a record
is in one string, and a string has at most 255 octets.  So a reply arrives as it was meant exactly
when nothing of it has to be left out and its texts are that short (`Message.arrives_iff`); no other
data can stand in the way (`ResourceRecord.arrives_of_toWire`).  The names of its questions must be
complete as well, as those of a received request are (`Message.isComplete_of_decode`).
-/

namespace CachingResolver

open CachingResolver.Text

theorem DomainName.canonical_text_completed (n : DomainName) :
    Name.canonical n.completed.text = Name.canonical n.text := by
  rw [← String.toList_inj, toList_canonical_text, toList_canonical_text]
  rfl

/-! ### Records -/

/-- Data keep their value when it is read back and their names are then taken up to the root. -/
theorem RecordData.exists_value?_completed {data : RecordData} {type : RecordType} {value : String}
    (hread : data.IsRead) (hvalue : data.value? = some (type, value)) :
    ∃ value', data.rewritten.completed.value? = some (type, value') ∧
      ResourceRecord.canonicalValue type value' = ResourceRecord.canonicalValue type value := by
  have hcomplete : ∀ n ∈ data.names, n.completed = n :=
    fun n hn => DomainName.completed_eq_self (hread.names_complete n hn)
  have hkept : data.rewritten = data → data.completed = data → ∃ value',
      data.rewritten.completed.value? = some (type, value') ∧
        ResourceRecord.canonicalValue type value' = ResourceRecord.canonicalValue type value := by
    intro hrewritten hcompleted
    exact ⟨value, by rw [hrewritten, hcompleted, hvalue], rfl⟩
  cases data with
  | cname name | ns name | ptr name =>
      cases hvalue
      exact ⟨_, rfl, (DomainName.canonical_text_completed _).trans name.canonical_text_lowered⟩
  | txt strings => exact exists_value?_rewritten hvalue
  | mx _ name | srv _ _ _ name =>
      exact hkept rfl (by rw [completed, hcomplete name (by simp [names])])
  | soa server mailbox =>
      refine hkept rfl ?_
      rw [completed, hcomplete server (by simp [names]), hcomplete mailbox (by simp [names])]
  | a _ | aaaa _ | absent _ | other _ _ => exact hkept rfl rfl

namespace ResourceRecord

/-- The resolver made the record of one that it received, of the class of the Internet. -/
def IsFromMessage (r : ResourceRecord) : Prop :=
  ∃ w : WireRecord, w.IsReceived ∧ w.recordClass = internetClass ∧ w.toRecord? = some r

/-- If the record is a text, it fits in one text string. -/
def HasShortText (r : ResourceRecord) : Prop :=
  r.type = .txt → (Utf8.encode r.value).length < 256

/-- A record in wire form arrives as a record inside the resolver, if that is short enough. -/
structure ArrivesAs (w : WireRecord) (r : ResourceRecord) : Prop where
  isFull : w.data.IsFull
  isShort_iff : w.data.IsShort ↔ r.HasShortText
  toRecord?_completed : w.completed.toRecord? = some r

variable {r : ResourceRecord} {w : WireRecord}

theorem arrives_of_toWire (hr : r.IsFromMessage) (hw : r.toWire = .ok w) : ArrivesAs w r := by
  obtain ⟨source, hreceived, hclass, hsource⟩ := hr
  have hread := hreceived.isRead
  obtain ⟨-, rfl⟩ := (WireRecord.toWire_eq_ok_iff hread hsource).1 hw
  obtain ⟨⟨type, value⟩, hvalue, rfl⟩ := Option.map_eq_some_iff.1 hsource
  constructor
  · obtain ⟨value', hvalue', -⟩ := RecordData.exists_value?_rewritten hvalue
    refine ⟨Option.isSome_iff_exists.2 ⟨_, hvalue'⟩, fun hempty => ?_⟩
    obtain ⟨owner, recordClass, ttl, data⟩ := source
    cases data <;> cases hempty
  · obtain ⟨owner, recordClass, ttl, data⟩ := source
    cases data with
    | txt strings =>
        cases hvalue
        constructor
        · exact fun hall _ => hall _ rfl _ (List.mem_singleton_self _)
        · rintro hshort _ ⟨⟩ string hstring
          rw [List.mem_singleton.1 hstring]
          exact hshort rfl
    | absent _ | other _ _ => cases hvalue
    | a _ | aaaa _ | cname _ | ns _ | ptr _ | mx _ _ | soa _ _ _ _ _ _ _ | srv _ _ _ _ =>
        cases hvalue
        exact iff_of_true nofun nofun
  · obtain ⟨value', hvalue', heq⟩ := RecordData.exists_value?_completed hread.data_isRead hvalue
    refine Option.map_eq_some_iff.2 ⟨(type, value'), hvalue', ?_⟩
    simp only [ofClass, heq, hclass, WireRecord.completed, WireRecord.rewritten,
      DomainName.canonical_text_completed, DomainName.canonical_text_lowered]

end ResourceRecord

/-! ### Replies -/

namespace Message

variable {request reply : Message} {records : List ResourceRecord} {octets : List UInt8}

theorem map_completed_eq_self_iff {qs : List WireQuestion} :
    qs.map WireQuestion.completed = qs ↔ ∀ q ∈ qs, q.name.isComplete = true := by
  have hquestion : ∀ q : WireQuestion, q.completed = q ↔ q.name.isComplete = true := by
    intro q
    refine ⟨fun h => by rw [← h]; rfl, fun h => ?_⟩
    rw [WireQuestion.completed, DomainName.completed_eq_self h]
  induction qs with
  | nil => simp
  | cons q qs ih =>
      rw [List.map_cons, List.cons_eq_cons, List.forall_mem_cons]
      exact and_congr (hquestion q) ih

section Answers

variable {answers : List WireRecord} (h : List.Forall₂ ResourceRecord.ArrivesAs answers records)
include h

theorem isFull_of_arrives : ∀ w ∈ answers, w.data.IsFull := by
  induction h with
  | nil => exact fun w hw => absurd hw List.not_mem_nil
  | cons hw _ ih => exact List.forall_mem_cons.2 ⟨hw.isFull, ih⟩

/-- Records that arrive can be written when they are short enough. -/
theorem isShort_iff_of_arrives :
    (∀ w ∈ answers, w.data.IsShort) ↔ ∀ r ∈ records, r.HasShortText := by
  induction h with
  | nil => simp
  | cons hw _ ih => rw [List.forall_mem_cons, List.forall_mem_cons, ih, hw.isShort_iff]

theorem map_toRecord?_of_arrives :
    (answers.map WireRecord.completed).map WireRecord.toRecord? = records.map some := by
  induction h with
  | nil => rfl
  | cons hw _ ih => rw [List.map_cons, List.map_cons, List.map_cons, ih, hw.toRecord?_completed]

end Answers

theorem exists_arrives_of_reply (hrecords : ∀ r ∈ records, r.IsFromMessage)
    (hreply : request.reply records = .ok reply) :
    ∃ answers, List.Forall₂ ResourceRecord.ArrivesAs answers records ∧
      reply = { request.replyFrame .noError with answers } := by
  obtain ⟨answers, hanswers, rfl⟩ := reply_eq_ok_iff.1 hreply
  refine ⟨answers, ?_, rfl⟩
  exact ((List.forall₂_and_left records answers).2 ⟨hrecords, hanswers⟩).flip.imp
    fun w r hw => ResourceRecord.arrives_of_toWire hw.1 hw.2

/-- A client gets the reply to its request: its questions, and the records in order. -/
def Arrives (reply request : Message) (records : List ResourceRecord) : Prop :=
  ∃ octets received, reply.encode = .ok octets ∧ decode octets = .ok received ∧
    received.id = request.id ∧ received.questions = request.questions ∧
    received.answers.map WireRecord.toRecord? = records.map some

/-- A reply with records of messages arrives exactly when writing it never comes past the size of a
message and all its texts fit in one text string, given that the names of the questions are
complete. -/
theorem arrives_iff (hrecords : ∀ r ∈ records, r.IsFromMessage)
    (hreply : request.reply records = .ok reply) :
    reply.Arrives request records ↔
      (∀ q ∈ request.questions, q.name.isComplete = true) ∧ (∀ r ∈ records, r.HasShortText) ∧
        reply.reach ≤ maxSize := by
  obtain ⟨answers, harrives, rfl⟩ := exists_arrives_of_reply hrecords hreply
  set reply : Message := { request.replyFrame .noError with answers }
  have hplain : reply.IsPlain :=
    { options_eq := rfl
      code_lt := show 0 < 16 by decide
      isFull := by
        show ∀ w ∈ answers ++ [] ++ [], w.data.IsFull
        simpa using isFull_of_arrives harrives }
  have hwhole : (reply.body 12 []).isFlawed = false ↔ ∀ r ∈ records, r.HasShortText := by
    rw [isFlawed_body, ← isShort_iff_of_arrives harrives]
    show (∀ w ∈ answers ++ [] ++ [], w.data.IsShort) ↔ _
    rw [List.append_nil, List.append_nil]
  constructor
  · rintro ⟨octets, received, hencode, hdecode, -, hquestions, hanswers⟩
    have hlength : received.answers.length = answers.length := by
      have heq := congrArg List.length hanswers
      rw [List.length_map, List.length_map] at heq
      exact heq.trans harrives.length_eq.symm
    have hfits := fits_of_length_answers (encode_eq_ok_iff.1 hencode)
      (decode_eq_ok_iff.1 hdecode) hlength
    have hbody : reply.body.Fits 12 [] := fits_body_of_answers rfl rfl rfl hfits.1 hfits.2
    obtain rfl := Except.ok.inj (hdecode.symm.trans (decode_of_encode hplain hbody hencode))
    exact ⟨map_completed_eq_self_iff.1 hquestions, hwhole.1 hbody.isWhole, hbody.reach_le⟩
  · rintro ⟨hcomplete, hshort, hreach⟩
    have hbody : reply.body.Fits 12 [] := ⟨hwhole.2 hshort, hreach⟩
    have hencode := encode_eq_ok_iff.2 (encode?_of_fits hbody)
    exact ⟨_, reply.completed, hencode, decode_of_encode hplain hbody hencode, rfl,
      map_completed_eq_self_iff.2 hcomplete, map_toRecord?_of_arrives harrives⟩

/-- A request for the mail exchanges of `example.com.`. -/
def mailRequest : Message :=
  { id := 7, recursionDesired := true
    questions := [{ name := .ofTexts ["example", "com"], type := RecordType.mx.number }] }

def mailReply : Message :=
  { mailRequest.replyFrame .noError with answers := [WireRecord.mailRecord.rewritten] }

/-- The theorem at work: a reply with a mail exchange arrives. -/
theorem arrives_mailReply :
    ∃ r, (∀ r' ∈ [r], r'.IsFromMessage) ∧ mailRequest.reply [r] = .ok mailReply ∧
      mailReply.Arrives mailRequest [r] := by
  let r : ResourceRecord := .make "example.com." 300 .mx "10 Mail.example.com."
  have hr : WireRecord.mailRecord.toRecord? = some r := by decide +kernel
  have hreceived := WireRecord.isReceived_mailRecord
  have hfrom : ∀ r' ∈ [r], r'.IsFromMessage :=
    List.forall_mem_singleton.2 ⟨WireRecord.mailRecord, hreceived, rfl, hr⟩
  have hwire : r.toWire = .ok WireRecord.mailRecord.rewritten :=
    (WireRecord.toWire_eq_ok_iff hreceived.isRead hr).2 ⟨by decide, rfl⟩
  have hreply : mailRequest.reply [r] = .ok mailReply :=
    reply_eq_ok_iff.2 ⟨_, .cons hwire .nil, rfl⟩
  refine ⟨r, hfrom, hreply, (arrives_iff hfrom hreply).2 ⟨by decide, ?_, by decide +kernel⟩⟩
  exact List.forall_mem_singleton.2 nofun

/-- A text of 300 octets, in two strings. -/
def longText : WireRecord where
  owner := .ofTexts ["txt", "example", "com"]
  ttl := 300
  data := .txt (List.replicate 2 (List.replicate 150 0x61))

theorem isReceived_longText : longText.IsReceived := by
  refine WireRecord.isReceived_of_isFull ⟨rfl, nofun⟩ ?_ (by decide +kernel) (by decide +kernel)
  intro strings h string hstring
  have hstrings : List.replicate 2 (List.replicate 150 0x61) = strings := RecordData.txt.inj h
  rw [← hstrings] at hstring
  rw [List.eq_of_mem_replicate hstring, List.length_replicate]
  decide

/-- A request for the texts of `txt.example.com.`. -/
def textRequest : Message :=
  { id := 7, recursionDesired := true
    questions := [{ name := .ofTexts ["txt", "example", "com"], type := RecordType.txt.number }] }

def longReply : Message :=
  { textRequest.replyFrame .noError with answers := [longText.rewritten] }

/-- Not every reply arrives for which there is room. -/
theorem not_arrives_longReply :
    ¬ ∀ (request reply : Message) (records : List ResourceRecord),
        (∀ q ∈ request.questions, q.name.isComplete = true) →
        (∀ r ∈ records, r.IsFromMessage) → request.reply records = .ok reply →
        reply.size ≤ maxSize → reply.Arrives request records := by
  intro hclaim
  obtain ⟨r, hr⟩ : ∃ r, longText.toRecord? = some r := ⟨_, rfl⟩
  have hwire : r.toWire = .ok longText.rewritten :=
    (WireRecord.toWire_eq_ok_iff isReceived_longText.isRead hr).2 ⟨by decide, rfl⟩
  have hreply : textRequest.reply [r] = .ok longReply :=
    reply_eq_ok_iff.2 ⟨_, .cons hwire .nil, rfl⟩
  obtain ⟨octets, -, hencode, -⟩ := hclaim textRequest longReply [r] (by decide)
    (List.forall_mem_singleton.2 ⟨longText, isReceived_longText, rfl, hr⟩) hreply
    (by decide +kernel)
  have hnone : longReply.encode? = none := by decide +kernel
  rw [encode_eq_ok_iff, hnone] at hencode
  cases hencode

end Message

end CachingResolver
