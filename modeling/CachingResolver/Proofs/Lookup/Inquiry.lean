import CachingResolver.Proofs.AnswerChain
import CachingResolver.Proofs.Cache.Storing
import CachingResolver.Proofs.Lookup.Step
import CachingResolver.Proofs.Message

/-!
# What a response does to the cache

A response either makes the question a known failure (`refusal?`) or gives the cache some record
sets (`setsOf`), each of them all that one section has of an owner and a type
(`isOf_of_mem_setsOf`), and nothing else is written (`written`, `sweeps_take`).  An `Inquiry` is a
step that asks a server and receives a message; `sweeps_after` puts its reads and its writes
together.  A step that is no inquiry only reads, or lets time pass (`Iterative.step_cases`).
-/

namespace CachingResolver

/-! ### Record sets of a response -/

/-- The records in the sections of a message. -/
def Message.sections (m : Message) : List (List ResourceRecord) :=
  [m.answerRecords, m.authorityRecords, m.additionalRecords]

namespace RecordSet

/-- All that one section of a message has of an owner and a type. -/
def IsOf (s : RecordSet) (m : Message) : Prop :=
  ∃ rs ∈ m.sections, recordsFor s.name s.type rs ≠ [] ∧ s = gather s.name s.type rs

variable {m : Message} {s : RecordSet}

theorem isOf_of_mem {rs : List ResourceRecord} (hsection : rs ∈ m.sections) {r : ResourceRecord}
    (hr : r ∈ rs) : (gather r.name r.type rs).IsOf m :=
  ⟨rs, hsection, List.ne_nil_of_mem (mem_recordsFor.2 ⟨hr, rfl, rfl⟩), rfl⟩

theorem isOf_of_mem_filter {rs : List ResourceRecord} (hsection : rs ∈ m.sections)
    {p : ResourceRecord → Bool} {r : ResourceRecord} (hr : r ∈ rs.filter p)
    (hall : ∀ t ∈ rs, t.name = r.name → t.type = r.type → p t = true) :
    (gather r.name r.type (rs.filter p)).IsOf m := by
  unfold gather
  rw [recordsFor_filter hall]
  exact isOf_of_mem hsection (List.mem_filter.1 hr).1

theorem isOf_of_mem_answerChain {name zone : String} {type : RecordType}
    (h : s ∈ groups (m.answerChain name type zone)) : s.IsOf m := by
  obtain ⟨r, hr, rfl⟩ := eq_gather_of_mem_groups_chainFrom h
  exact isOf_of_mem List.mem_cons_self (mem_chainFrom hr).1

theorem isOf_of_mem_glue {servers : RecordSet} (h : s ∈ Cache.glue servers m.additionalRecords) :
    s.IsOf m := by
  have hsection : m.additionalRecords ∈ m.sections := by simp [Message.sections]
  obtain ⟨r, hr, haddress, hserver, rfl⟩ := Cache.mem_glue.1 h
  have hgood : r.type.isAddress = true ∧ r.name ∈ servers.values := ⟨haddress, hserver⟩
  refine isOf_of_mem_filter hsection (List.mem_filter.2 ⟨hr, by simpa using hgood⟩) ?_
  intro t _ hname htype
  simpa [hname, htype] using hgood

end RecordSet

namespace Search

open CachingResolver.Cache

variable {current : Question} {zone : Zone} {server : Endpoint} {m : Message} {rttMs : UInt32}
  {s : Search} {c : Cache}

/-- The record sets that a referral gives to the cache, when a server of a zone was asked. -/
def referralSets (current : Question) (zone : Zone) (m : Message) : List RecordSet :=
  match m.referralServers with
  | [] => []
  | first :: rest =>
    if descends zone current.name first.name then
      setsWithGlue (first :: rest) m.additionalRecords
    else []

/-- The record sets that a response to a question gives to the cache, when a server of a zone was
asked. -/
def setsOf (current : Question) (zone : Zone) (m : Message) : List RecordSet :=
  match kindFor current m with
  | .answer | .cname => RecordSet.groups (m.answerChain current.name current.type zone.name)
  | .delegation | .bareDelegation => referralSets current zone m
  | _ => []

/-- Why a response makes its question a known failure, if it does. -/
def refusal? (current : Question) (m : Message) : Option String :=
  match kindFor current m with
  | .unknown => some m.code.status
  | .refused => some ResponseKind.refused.text
  | .notUnderstood => some ResponseKind.notUnderstood.text
  | _ => none

/-- A cache after all that a response writes. -/
def written (current : Question) (zone : Zone) (m : Message) (rttMs : UInt32) (c : Cache) : Cache :=
  match refusal? current m with
  | some reason => c.setNegative current.name current.type reason
  | none => c.storeAll rttMs (setsOf current zone m)

theorem written_of_refusal? {reason : String} (h : refusal? current m = some reason) :
    written current zone m rttMs c = c.setNegative current.name current.type reason := by
  unfold written
  rw [h]

theorem written_of_refusal?_eq_none (h : refusal? current m = none) :
    written current zone m rttMs c = c.storeAll rttMs (setsOf current zone m) := by
  unfold written
  rw [h]

/-- A refusal stores no record sets. -/
theorem setsOf_of_refusal? {reason : String} (h : refusal? current m = some reason) :
    setsOf current zone m = [] := by
  unfold refusal? at h
  unfold setsOf
  cases hkind : kindFor current m with
  | unknown | refused | notUnderstood | none => rfl
  | answer | cname | delegation | bareDelegation =>
      rw [hkind] at h
      cases h

theorem nodup_keys_referralSets : ((referralSets current zone m).map RecordSet.key).Nodup := by
  unfold referralSets
  split
  · exact List.nodup_nil
  · split
    · exact nodup_keys_setsWithGlue fun r hr => Message.isCanonical_of_mem_filterMap hr
    · exact List.nodup_nil

/-- The record sets of a response have distinct keys. -/
theorem nodup_keys_setsOf : ((setsOf current zone m).map RecordSet.key).Nodup := by
  unfold setsOf
  split
  · refine RecordSet.nodup_keys_groups fun r hr => ?_
    exact Message.isCanonical_of_mem_filterMap (mem_chainFrom hr).1
  · refine RecordSet.nodup_keys_groups fun r hr => ?_
    exact Message.isCanonical_of_mem_filterMap (mem_chainFrom hr).1
  · exact nodup_keys_referralSets
  · exact nodup_keys_referralSets
  · exact List.nodup_nil

theorem isOf_of_mem_referralSets {g : RecordSet} (h : g ∈ referralSets current zone m) :
    g.IsOf m := by
  have hsection : m.authorityRecords ∈ m.sections := by simp [Message.sections]
  unfold referralSets at h
  cases hservers : m.referralServers with
  | nil =>
      rw [hservers] at h
      cases h
  | cons first rest =>
      have hfirst : first ∈ m.referralServers := hservers ▸ List.mem_cons_self
      have htype := Message.type_of_mem_referralServers hfirst
      rw [hservers] at h
      dsimp only at h
      split at h
      · unfold setsWithGlue at h
        dsimp only at h
        rw [if_pos htype] at h
        rcases List.mem_cons.1 h with rfl | h
        · rw [← hservers]
          exact RecordSet.isOf_of_mem_filter hsection hfirst fun t _ _ ht => by simp [ht, htype]
        · exact RecordSet.isOf_of_mem_glue h
      · cases h

/-- The record sets of a response are whole record sets of its sections. -/
theorem isOf_of_mem_setsOf {g : RecordSet} (h : g ∈ setsOf current zone m) : g.IsOf m := by
  unfold setsOf at h
  split at h
  · exact RecordSet.isOf_of_mem_answerChain h
  · exact RecordSet.isOf_of_mem_answerChain h
  · exact isOf_of_mem_referralSets h
  · exact isOf_of_mem_referralSets h
  · cases h

theorem written_positive :
    (written current zone m rttMs c).positive =
      (c.storeAll rttMs (setsOf current zone m)).positive := by
  cases h : refusal? current m with
  | none => rw [written_of_refusal?_eq_none h]
  | some reason =>
      rw [written_of_refusal? h, setsOf_of_refusal? h]
      rfl

theorem written_now : (written current zone m rttMs c).now = c.now := by
  cases h : refusal? current m with
  | none => rw [written_of_refusal?_eq_none h, storeAll_now]
  | some reason =>
      rw [written_of_refusal? h]
      rfl

theorem followReferral_snd_eq (kind : ResponseKind) :
    (followReferral current zone m kind rttMs s c).2 =
      c.storeAll rttMs (referralSets current zone m) := by
  unfold followReferral referralSets
  cases m.referralServers with
  | nil => rfl
  | cons first rest =>
      dsimp only
      cases descends zone current.name first.name with
      | false => rfl
      | true =>
          rw [if_pos rfl, ← storeWithGlue_snd]
          by_cases hkind : kind = .bareDelegation
          · rw [if_pos hkind]
            rfl
          · rw [if_neg hkind]
            rfl

/-- Besides what it writes, taking a response only reads the cache. -/
theorem sweeps_take :
    Sweeps (written current zone m rttMs c) (take current zone server m rttMs s c).2 := by
  unfold written refusal? setsOf take
  cases hkind : kindFor current m with
  | answer => exact Sweeps.refl _
  | cname =>
      have halias := sweeps_readAlias? (storeAnswers current zone m rttMs c) current.name
      dsimp only
      split <;> exact halias
  | delegation =>
      dsimp only
      rw [followReferral_snd_eq]
      exact Sweeps.refl _
  | bareDelegation =>
      dsimp only
      rw [followReferral_snd_eq]
      exact Sweeps.refl _
  | unknown | refused | notUnderstood | none => exact Sweeps.refl _

end Search

/-- A step on a question that asks a server of a zone and receives a message. -/
structure Inquiry {σ : Type} (env : Environment σ) (port : UInt16) (current : Question) (s : Search)
    (w : World σ) where
  -- The zone of which a server is asked.
  zone : Zone
  server : Endpoint
  query : Message
  -- The cache as the query is sent.
  cache : Cache
  message : Message
  asks : Search.prepare (env.draw w.outside).1 port current s w.cache =
    (.ask zone server query, cache)
  responds : (env.exchange (env.draw w.outside).2 server query).1.outcome = .ok message

namespace Inquiry

open CachingResolver.Cache

variable {σ : Type} {env : Environment σ} {port : UInt16} {current : Question} {s : Search}
  {w : World σ} (x : Inquiry env port current s w)

/-- How the exchange ended. -/
def arrival : Arrival :=
  (env.exchange (env.draw w.outside).2 x.server x.query).1

/-- What the message means. -/
def kind : ResponseKind :=
  Search.kindFor current x.message

/-- The cache as the message arrives. -/
def received : Cache :=
  x.cache.advance x.arrival.elapsed

/-- The search and the cache after the message has been taken. -/
def taken : Search × Cache :=
  Search.take current x.zone x.server x.message x.arrival.rttMs
    { s with exchanges := s.exchanges + 1 } x.received

def after (_ : Inquiry env port current s w) : Cache :=
  (Iterative.step env port current s w).2.cache

theorem conclude_eq : Search.conclude current x.zone x.server x.arrival s x.cache = x.taken := by
  have hresponds : x.arrival.outcome = .ok x.message := x.responds
  unfold Search.conclude
  rw [hresponds]
  rfl

theorem step_eq : Iterative.step env port current s w =
    (.ok x.taken.1, ⟨x.taken.2, (env.exchange (env.draw w.outside).2 x.server x.query).2⟩) := by
  rw [← x.conclude_eq]
  unfold Iterative.step
  dsimp only
  rw [x.asks]
  rfl

theorem after_eq : x.after = x.taken.2 := by
  unfold after
  rw [x.step_eq]

theorem sweeps_cache : Sweeps w.cache x.cache := by
  have h := Search.sweeps_prepare (env.draw w.outside).1 port current s w.cache
  rw [x.asks] at h
  exact h

/-- After the reads before the query, time passes, the message is written, and the rest is reads
again. -/
theorem sweeps_after :
    Sweeps (Search.written current x.zone x.message x.arrival.rttMs x.received) x.after := by
  rw [x.after_eq]
  exact Search.sweeps_take

/-- The zone asked is the enclosing zone of the name. -/
theorem zone_eq : x.zone = (w.cache.zoneFor current.name).1 := by
  obtain ⟨b, hb, hzone, -⟩ := Search.zoneFor_of_prepare_eq_ask x.asks
  rw [← hb.zoneFor_fst_eq, hzone]

/-- The record sets that the message gives to the cache. -/
def stored : List RecordSet :=
  Search.setsOf current x.zone x.message

theorem nodup_keys_stored : (x.stored.map RecordSet.key).Nodup :=
  Search.nodup_keys_setsOf

theorem isOf_of_mem_stored {g : RecordSet} (hg : g ∈ x.stored) : g.IsOf x.message :=
  Search.isOf_of_mem_setsOf hg

theorem values_ne_nil_of_mem_stored {g : RecordSet} (hg : g ∈ x.stored) : g.values ≠ [] := by
  obtain ⟨rs, -, hne, hgather⟩ := x.isOf_of_mem_stored hg
  rw [hgather]
  exact RecordSet.values_gather_ne_nil hne

theorem refusal?_eq_none_of_mem_stored {g : RecordSet} (hg : g ∈ x.stored) :
    Search.refusal? current x.message = none := by
  cases hrefusal : Search.refusal? current x.message with
  | none => rfl
  | some reason =>
      have hnil : x.stored = [] := Search.setsOf_of_refusal? hrefusal
      rw [hnil] at hg
      cases hg

/-- The entry under which a record set of the message is stored. -/
def entryOf (s : RecordSet) : Entry :=
  x.received.freshEntry x.arrival.rttMs s

/-- The message gives the cache something under a key. -/
def Writes (key : String) : Prop :=
  (∃ s ∈ x.stored, s.key = key) ∨
    (Search.refusal? current x.message ≠ none ∧ makeKey current.name current.type = key)

/-- A record set that is there afterwards was there before, or comes from the message. -/
theorem positive_get?_after {key : String} {e : Entry} (h : x.after.positive.get? key = some e) :
    w.cache.positive.get? key = some e ∨ ∃ s ∈ x.stored, s.key = key ∧ e = x.entryOf s := by
  have h := x.sweeps_after.positive_get? h
  rw [Search.written_positive] at h
  by_cases hkey : ∃ s ∈ x.stored, s.key = key
  · obtain ⟨s, hs, hskey, hfresh⟩ := x.received.exists_get?_storeAll x.arrival.rttMs hkey
    exact .inr ⟨s, hs, hskey, Option.some.inj (h.symm.trans hfresh)⟩
  · push Not at hkey
    have hsame := x.received.get?_storeAll_of_forall_ne x.arrival.rttMs hkey
    exact .inl (x.sweeps_cache.positive_get? (hsame.symm.trans h))

/-- A record set of the message can be read exactly when no failure is on record for its key. -/
theorem found?_after_of_mem_stored {g : RecordSet} (hg : g ∈ x.stored) {e : Entry} :
    x.after.found? g.key = some e ↔ x.cache.NoFailure g.key ∧ x.entryOf g = e := by
  have hstored := x.received.get?_storeAll_of_mem x.arrival.rttMs x.nodup_keys_stored hg
  rw [x.sweeps_after.found?_eq,
    Search.written_of_refusal?_eq_none (x.refusal?_eq_none_of_mem_stored hg)]
  constructor
  · intro hfound
    obtain ⟨hnone, hpositive, -, -⟩ := found?_eq_some_iff.1 hfound
    have hnone : x.received.NoFailure g.key := (noFailure_storeAll _ _ _).1 hnone
    exact ⟨hnone, Option.some.inj (hstored.symm.trans hpositive)⟩
  · rintro ⟨hnone, rfl⟩
    refine found?_of_stored ((noFailure_storeAll _ _ _).2 hnone) hstored
      (x.values_ne_nil_of_mem_stored hg) ?_ ?_
    · rw [storeAll_now]
      exact Int.le_refl _
    · rw [storeAll_now]
      exact Int.le_add_of_nonneg_right (Int.natCast_nonneg _)

/-- Failures come from refusals only. -/
theorem negative_get?_after {key : String} {e : Entry}
    (hrefusal : Search.refusal? current x.message = none)
    (h : x.after.negative.get? key = some e) : w.cache.negative.get? key = some e := by
  have h := x.sweeps_after.negative_get? h
  rw [Search.written_of_refusal?_eq_none hrefusal, storeAll_negative] at h
  exact x.sweeps_cache.negative_get? h

theorem get?_written_of_not_writes {key : String} (h : ¬ x.Writes key) :
    (Search.written current x.zone x.message x.arrival.rttMs x.received).positive.get? key =
        x.cache.positive.get? key ∧
      (Search.written current x.zone x.message x.arrival.rttMs x.received).negative.get? key =
        x.cache.negative.get? key := by
  obtain ⟨hstored, hfailed⟩ := not_or.1 h
  push Not at hstored
  constructor
  · rw [Search.written_positive]
    exact get?_storeAll_of_forall_ne _ _ hstored
  · cases hrefusal : Search.refusal? current x.message with
    | none =>
        rw [Search.written_of_refusal?_eq_none hrefusal, storeAll_negative]
        rfl
    | some reason =>
        have hne : makeKey current.name current.type ≠ key :=
          fun hkey => hfailed ⟨by simp [hrefusal], hkey⟩
        rw [Search.written_of_refusal? hrefusal]
        show (x.received.negative.insert _ _).get? key = _
        rw [Table.get?_insert, if_neg hne]
        rfl

/-- A key under which the message gives nothing stays as it was, unless a read finds it expired,
before the exchange or after it. -/
theorem keeps_after {key : String} (h : ¬ x.Writes key) :
    Keeps w.cache x.after key ∨ Keeps (w.cache.advance x.arrival.elapsed) x.after key := by
  obtain ⟨hpos, hneg⟩ := x.get?_written_of_not_writes h
  rcases x.sweeps_cache.keeps key with ⟨hp, hn⟩ | ⟨hx, hp, hn⟩
  · rcases x.sweeps_after.keeps key with ⟨hp', hn'⟩ | ⟨hx', hp', hn'⟩
    · exact .inl (.inl ⟨hp'.trans (hpos.trans hp), hn'.trans (hneg.trans hn)⟩)
    · -- The read that removes the key comes after the exchange.
      have hnow : (Search.written current x.zone x.message x.arrival.rttMs x.received).now =
          (w.cache.advance x.arrival.elapsed).now := by
        rw [Search.written_now]
        show x.cache.now + x.arrival.elapsed = w.cache.now + x.arrival.elapsed
        rw [x.sweeps_cache.now_eq]
      rw [read_congr hnow (hpos.trans hp) (hneg.trans hn)] at hx'
      exact .inr (.inr ⟨hx', hp', hn'⟩)
  · rcases x.sweeps_after.keeps key with ⟨hp', hn'⟩ | ⟨-, hp', hn'⟩
    · exact .inl (.inr ⟨hx, hp'.trans (hpos.trans hp), hn'.trans (hneg.trans hn)⟩)
    · exact .inl (.inr ⟨hx, hp', hn'⟩)

/-- When a server is asked, no table says anything about the question. -/
theorem vacant_received : x.received.Vacant (makeKey current.name current.type) :=
  (Search.vacant_of_prepare_eq_ask x.asks).1

/-- When a server is asked, no read can find an alias for the name, now or later. -/
theorem hidden_received (h : current.type ≠ .cname) :
    x.received.Hidden (makeKey current.name .cname) :=
  (Search.vacant_of_prepare_eq_ask x.asks).2 h

theorem isSubdomain_zone : Name.isSubdomain (Name.canonical current.name) x.zone.name = true :=
  Search.isSubdomain_zone_of_prepare_eq_ask x.asks

/-- What could not be read when the message arrived, and is not in the message, cannot be read
afterwards. -/
theorem vacant_after {key : String} (h : ¬ x.Writes key) (hvacant : x.received.Vacant key) :
    x.after.Vacant key := by
  obtain ⟨hpos, hneg⟩ := x.get?_written_of_not_writes h
  refine x.sweeps_after.vacant ⟨fun e he => ?_, fun e he => ?_⟩
  · exact hvacant.1 e (hneg.symm.trans he)
  · exact hvacant.2 e (hpos.symm.trans he)

theorem hidden_after {key : String} (h : ¬ x.Writes key) (hhidden : x.received.Hidden key) :
    x.after.Hidden key := by
  obtain ⟨hpos, hneg⟩ := x.get?_written_of_not_writes h
  refine x.sweeps_after.hidden fun hnone e he => ?_
  exact hhidden (fun f hf => hnone f (hneg.trans hf)) e (hpos.symm.trans he)

end Inquiry

/-! ### Responses -/

/-- A response to a step, with what is needed to take it. -/
structure Response where
  -- The zone of which a server was asked.
  zone : Zone
  message : Message
  rttMs : UInt32
  -- The cache as the response arrives.
  cache : Cache

/-- The response that a step receives. -/
def Iterative.response? {σ : Type} (env : Environment σ) (port : UInt16) (current : Question)
    (s : Search) (w : World σ) : Option Response :=
  let (draw, outside) := env.draw w.outside
  match Search.prepare draw port current s w.cache with
  | (.ask zone server query, cache) =>
    let arrival := (env.exchange outside server query).1
    match arrival.outcome with
    | .ok message =>
      some { zone, message, rttMs := arrival.rttMs, cache := cache.advance arrival.elapsed }
    | .error _ => none
  | _ => none

namespace Inquiry

variable {σ : Type} {env : Environment σ} {port : UInt16} {current : Question} {s : Search}
  {w : World σ}

def response (x : Inquiry env port current s w) : Response where
  zone := x.zone
  message := x.message
  rttMs := x.arrival.rttMs
  cache := x.received

theorem response?_eq (x : Inquiry env port current s w) :
    Iterative.response? env port current s w = some x.response := by
  have hresponds := x.responds
  unfold Iterative.response?
  dsimp only
  rw [x.asks]
  dsimp only
  rw [hresponds]
  rfl

theorem exists_of_response? {r : Response} (h : Iterative.response? env port current s w = some r) :
    ∃ x : Inquiry env port current s w, r = x.response := by
  suffices hx : Nonempty (Inquiry env port current s w) by
    obtain ⟨x⟩ := hx
    exact ⟨x, Option.some.inj (h.symm.trans x.response?_eq)⟩
  unfold Iterative.response? at h
  dsimp only at h
  cases hprepare : Search.prepare (env.draw w.outside).1 port current s w.cache with
  | mk preparation cache =>
      rw [hprepare] at h
      cases preparation with
      | settled t => cases h
      | impossible failure => cases h
      | ask zone server query =>
          dsimp only at h
          cases houtcome : (env.exchange (env.draw w.outside).2 server query).1.outcome with
          | error failure =>
              rw [houtcome] at h
              cases h
          | ok message => exact ⟨⟨zone, server, query, cache, message, hprepare, houtcome⟩⟩

end Inquiry

/-- A step that is no inquiry only reads the cache; when an exchange has failed, time has passed. -/
theorem Iterative.step_cases {σ : Type} (env : Environment σ) (port : UInt16) (current : Question)
    (s : Search) (w : World σ) :
    (∃ d elapsed, Cache.Sweeps w.cache d ∧
      (step env port current s w).2.cache = d.advance elapsed) ∨
    Nonempty (Inquiry env port current s w) := by
  have hreads := Search.sweeps_prepare (env.draw w.outside).1 port current s w.cache
  cases hprepare : Search.prepare (env.draw w.outside).1 port current s w.cache with
  | mk preparation cache =>
      rw [hprepare] at hreads
      have hstay : cache.advance 0 = cache := by
        simp [Cache.advance]
      cases preparation with
      | settled s' =>
          refine .inl ⟨cache, 0, hreads, ?_⟩
          unfold step
          dsimp only
          rw [hprepare, hstay]
      | impossible failure =>
          refine .inl ⟨cache, 0, hreads, ?_⟩
          unfold step
          dsimp only
          rw [hprepare, hstay]
      | ask zone server query =>
          cases houtcome : (env.exchange (env.draw w.outside).2 server query).1.outcome with
          | ok m => exact .inr ⟨⟨zone, server, query, cache, m, hprepare, houtcome⟩⟩
          | error failure =>
              refine .inl ⟨cache, (env.exchange (env.draw w.outside).2 server query).1.elapsed,
                hreads, ?_⟩
              unfold step
              dsimp only
              rw [hprepare]
              dsimp only
              unfold Search.conclude
              rw [houtcome]

end CachingResolver
