import CachingResolver.Lookup.Resolver
import CachingResolver.Proofs.Cache.Trail
import CachingResolver.Proofs.Lookup.AnswerScope
import CachingResolver.Proofs.Lookup.RootFallback

/-!
# Where cached records come from

A session is a sequence of lookups, iterative ones and forwarded ones, with pauses between them.
Whatever the servers respond, each record set in the cache is a root hint or one whole record set of
one section of one response that was received (`Receipt.Gives`), stamped with the time at which it
arrived.  `Sourced` is the invariant: it holds after the root hints have been loaded
(`sourced_loadRoots`), every move and every call keeps it (`sourced_apply`), and so does every
session (`sourced_run`).

The records of an answer come from such entries, one for each value, each with the time to live of
its entry less the age of the entry (`Sourced.agedFrom_of_lookup`).
-/

namespace CachingResolver

/-! ### Receipts -/

/-- A response with the time at which it arrived. -/
structure Receipt where
  message : Message
  time : Int64

/-- An entry is one whole record set of one section of the response: the distinct values of all
records of an owner and a type, in order, with the least of their times to live as far as it is
allowed. -/
def Receipt.Gives (x : Receipt) (positiveTtl : UInt32) (key : String) (e : Entry) : Prop :=
  ∃ rs ∈ x.message.sections, ∃ name type least,
    key = Cache.makeKey name type ∧
    ((recordsFor name type rs).map (·.ttl)).min? = some least ∧
    e.values = ((recordsFor name type rs).map (·.value)).eraseDups ∧
    e.ttl = min least positiveTtl ∧
    e.storedAt = x.time

section

variable {σ : Type} (env : Environment σ)

/-- The response that a forwarder receives. -/
def Forwarder.receipt? (f : Forwarder) (q : Question) (w : World σ) : Option Receipt :=
  let (draw, outside) := env.draw w.outside
  match f.ask draw q with
  | .ok (server, query) =>
    let arrival := (env.exchange outside server query).1
    match arrival.outcome with
    | .ok message => some { message, time := w.cache.now + arrival.elapsed }
    | .error _ => none
  | .error _ => none

namespace Move

def receipt? (w : World σ) : Move → Option Receipt
  | step port current s =>
    (Iterative.response? env port current s w).map fun r =>
      { message := r.message, time := r.cache.now }
  | _ => none

/-- The responses that some moves receive. -/
def receipts (w : World σ) : List Move → List Receipt
  | [] => []
  | m :: ms => (m.receipt? env w).toList ++ receipts (m.apply env w) ms

end Move

end

/-! ### The invariant -/

namespace Cache

/-- Each entry is a given one or comes from a response that was received, and its stamp lies between
the beginning of time and now. -/
structure Sourced (given : String → Entry → Prop) (positiveTtl : UInt32) (seen : List Receipt)
    (c : Cache) : Prop where
  positiveTtl_eq : c.positiveTtl = positiveTtl
  start_le : 0 ≤ c.now.toInt
  source : ∀ key e, c.positive.get? key = some e →
    given key e ∨ ∃ x ∈ seen, x.Gives positiveTtl key e
  stamp : ∀ key e, c.positive.get? key = some e →
    0 ≤ e.storedAt.toInt ∧ e.storedAt.toInt ≤ c.now.toInt

theorem gives_freshEntry {c : Cache} {s : RecordSet} {m : Message} (h : s.IsOf m)
    (rttMs : UInt32) :
    (Receipt.mk m c.now).Gives c.positiveTtl s.key (c.freshEntry rttMs s) := by
  obtain ⟨rs, hrs, hne, hs⟩ := h
  obtain ⟨least, hleast, hentry⟩ := c.exists_freshEntry_gather rttMs hne
  rw [← hs] at hentry
  rw [hentry]
  exact ⟨rs, hrs, s.name, s.type, least, rfl, hleast, rfl, rfl, rfl⟩

namespace Sourced

variable {given : String → Entry → Prop} {positiveTtl : UInt32} {seen : List Receipt}
  {c d : Cache}

theorem mono (h : Sourced given positiveTtl seen c) {more : List Receipt}
    (hsubset : seen ⊆ more) : Sourced given positiveTtl more c where
  positiveTtl_eq := h.positiveTtl_eq
  start_le := h.start_le
  source key e he := (h.source key e he).imp_right fun ⟨x, hx, hgives⟩ => ⟨x, hsubset hx, hgives⟩
  stamp := h.stamp

theorem sweeps (h : Sourced given positiveTtl seen c) (hsweeps : Sweeps c d) :
    Sourced given positiveTtl seen d where
  positiveTtl_eq := hsweeps.positiveTtl_eq.trans h.positiveTtl_eq
  start_le := hsweeps.now_eq ▸ h.start_le
  source key e he := h.source key e (hsweeps.positive_get? he)
  stamp key e he := hsweeps.now_eq ▸ h.stamp key e (hsweeps.positive_get? he)

theorem advance (h : Sourced given positiveTtl seen c) {seconds : Int64}
    (hforward : c.now ≤ (c.advance seconds).now) :
    Sourced given positiveTtl seen (c.advance seconds) where
  positiveTtl_eq := h.positiveTtl_eq
  start_le := Int.le_trans h.start_le (Int64.le_iff_toInt_le.1 hforward)
  source := h.source
  stamp key e he :=
    ⟨(h.stamp key e he).1, Int.le_trans (h.stamp key e he).2 (Int64.le_iff_toInt_le.1 hforward)⟩

theorem setNegative (h : Sourced given positiveTtl seen c) (name : String) (type : RecordType)
    (reason : String) : Sourced given positiveTtl seen (c.setNegative name type reason) :=
  ⟨h.positiveTtl_eq, h.start_le, h.source, h.stamp⟩

/-- Storing record sets of a response keeps the invariant, with the response among those
received. -/
theorem storeAll (h : Sourced given positiveTtl seen c) {m : Message}
    (hmem : Receipt.mk m c.now ∈ seen) {sets : List RecordSet} (hsets : ∀ s ∈ sets, s.IsOf m)
    (rttMs : UInt32) : Sourced given positiveTtl seen (c.storeAll rttMs sets) := by
  have hentry : ∀ key e, (c.storeAll rttMs sets).positive.get? key = some e →
      c.positive.get? key = some e ∨ ∃ s ∈ sets, s.key = key ∧ e = c.freshEntry rttMs s := by
    intro key e he
    by_cases hkey : ∃ s ∈ sets, s.key = key
    · obtain ⟨s, hs, hskey, hfresh⟩ := c.exists_get?_storeAll rttMs hkey
      exact .inr ⟨s, hs, hskey, Option.some.inj (he.symm.trans hfresh)⟩
    · push Not at hkey
      exact .inl ((c.get?_storeAll_of_forall_ne rttMs hkey).symm.trans he)
  refine ⟨?_, ?_, fun key e he => ?_, fun key e he => ?_⟩
  · rw [storeAll_positiveTtl]
    exact h.positiveTtl_eq
  · rw [storeAll_now]
    exact h.start_le
  · rcases hentry key e he with he | ⟨s, hs, rfl, rfl⟩
    · exact h.source key e he
    · rw [← h.positiveTtl_eq]
      exact .inr ⟨_, hmem, gives_freshEntry (hsets s hs) rttMs⟩
  · rw [storeAll_now]
    rcases hentry key e he with he | ⟨s, hs, rfl, rfl⟩
    · exact h.stamp key e he
    · exact ⟨h.start_le, Int.le_refl _⟩

end Sourced

end Cache

/-! ### Moves -/

section

open CachingResolver.Cache

variable {σ : Type} {env : Environment σ} {w : World σ} {given : String → Entry → Prop}
  {positiveTtl : UInt32} {seen : List Receipt}

theorem Inquiry.sourced_after {port : UInt16} {current : Question} {s : Search}
    (x : Inquiry env port current s w) (h : Sourced given positiveTtl seen w.cache)
    (hforward : w.cache.now ≤ x.after.now) (hmem : Receipt.mk x.message x.received.now ∈ seen) :
    Sourced given positiveTtl seen x.after := by
  have hnow : x.cache.now ≤ x.received.now := by
    rw [x.sweeps_cache.now_eq, ← x.now_after]
    exact hforward
  have hreceived : Sourced given positiveTtl seen x.received :=
    (h.sweeps x.sweeps_cache).advance hnow
  refine Sourced.sweeps ?_ x.sweeps_after
  cases hrefusal : Search.refusal? current x.message with
  | some reason =>
      rw [Search.written_of_refusal? hrefusal]
      exact hreceived.setNegative _ _ _
  | none =>
      rw [Search.written_of_refusal?_eq_none hrefusal]
      exact hreceived.storeAll hmem (fun s hs => Search.isOf_of_mem_setsOf hs) _

namespace Move

theorem sourced_apply {m : Move} (h : Sourced given positiveTtl seen w.cache)
    (hforward : w.cache.now ≤ (m.apply env w).cache.now) :
    Sourced given positiveTtl (seen ++ (m.receipt? env w).toList) (m.apply env w).cache := by
  have hmore := h.mono (List.subset_append_left seen (m.receipt? env w).toList)
  cases m with
  | wait seconds => exact hmore.advance hforward
  | compose q exchanges server => exact hmore.sweeps (sweeps_compose _ _ _ _)
  | step port current s =>
      rcases Iterative.step_cases env port current s w with ⟨d, elapsed, hd, hafter⟩ | ⟨⟨x⟩⟩
      · have hcache : ((Move.step port current s).apply env w).cache = d.advance elapsed := hafter
        rw [hcache, ← hd.now_eq] at hforward
        rw [hcache]
        exact (hmore.sweeps hd).advance hforward
      · refine x.sourced_after hmore hforward (List.mem_append_right _ ?_)
        rw [receipt?, x.response?_eq]
        exact List.mem_singleton_self _

theorem sourced_course {ms : List Move} (h : Sourced given positiveTtl seen w.cache)
    (hforward : Forward env w ms) :
    Sourced given positiveTtl (seen ++ receipts env w ms) (course env w ms).cache := by
  induction ms generalizing w seen with
  | nil => exact h.mono (List.subset_append_left _ _)
  | cons m ms ih =>
      have hall := ih (sourced_apply h hforward.1) hforward.2
      rw [List.append_assoc] at hall
      exact hall

end Move

/-! ### Forwarded lookups -/

namespace Forwarder

variable {f : Forwarder} {q : Question} {server : Endpoint} {m : Message}

/-- A response without an error code that has records for a question. -/
def Answers (m : Message) (q : Question) : Prop :=
  m.code = .noError ∧ m.answerChain q.name q.type Name.root ≠ []

theorem answers_eq_ok_iff {records : List ResourceRecord} :
    answers server q m = .ok records ↔
      Answers m q ∧ records = m.answerChain q.name q.type Name.root := by
  unfold answers Answers
  by_cases hcode : m.code = .noError
  · rw [if_neg (not_not_intro hcode)]
    cases m.answerChain q.name q.type Name.root with
    | nil => simp
    | cons r rs => simp [hcode, eq_comm]
  · simp [hcode]

/-- A forwarder gives and stores the records that a response has for the question, or it fails and
stores nothing. -/
theorem conclude_cases (server : Endpoint) (q : Question) (arrival : Arrival) (c : Cache) :
    ((∀ m, arrival.outcome = .ok m → ¬ Answers m q) ∧
      ∃ failure, conclude server q arrival c = (.error failure, c.advance arrival.elapsed)) ∨
    ∃ m, arrival.outcome = .ok m ∧ Answers m q ∧ conclude server q arrival c =
      (.ok (resolution server (m.answerChain q.name q.type Name.root)),
        (c.advance arrival.elapsed).storeAll arrival.rttMs
          (RecordSet.groups (m.answerChain q.name q.type Name.root))) := by
  unfold conclude
  dsimp only
  cases arrival.outcome with
  | error failure => exact .inl ⟨nofun, failure, rfl⟩
  | ok m =>
      have hbind : (Except.ok m : Except Failure Message).bind (answers server q) =
          answers server q m := rfl
      rw [hbind]
      cases hanswers : answers server q m with
      | error failure =>
          refine .inl ⟨?_, failure, rfl⟩
          rintro m ⟨⟩ hm
          rw [answers_eq_ok_iff.2 ⟨hm, rfl⟩] at hanswers
          cases hanswers
      | ok records =>
          obtain ⟨hm, rfl⟩ := answers_eq_ok_iff.1 hanswers
          exact .inr ⟨m, rfl, hm, rfl⟩

/-- When a question has no query, a lookup fails and changes nothing. -/
theorem lookup_of_ask_eq_error {failure : Failure}
    (h : f.ask (env.draw w.outside).1 q = .error failure) :
    f.receipt? env q w = none ∧
      f.lookup env q w = (.error failure, { w with outside := (env.draw w.outside).2 }) := by
  unfold receipt? lookup
  dsimp only
  rw [h]
  exact ⟨rfl, rfl⟩

theorem lookup_of_ask_eq_ok {query : Message}
    (h : f.ask (env.draw w.outside).1 q = .ok (server, query)) :
    ∃ arrival, (env.exchange (env.draw w.outside).2 server query).1 = arrival ∧
      f.receipt? env q w = arrival.outcome.toOption.map
        (fun m => ⟨m, (w.cache.advance arrival.elapsed).now⟩) ∧
      (f.lookup env q w).1 = (conclude server q arrival w.cache).1 ∧
      (f.lookup env q w).2.cache = (conclude server q arrival w.cache).2 := by
  refine ⟨_, rfl, ?_, ?_, ?_⟩
  · unfold receipt?
    dsimp only
    rw [h]
    dsimp only
    cases (env.exchange (env.draw w.outside).2 server query).1.outcome <;> rfl
  · unfold lookup
    dsimp only
    rw [h]
  · unfold lookup
    dsimp only
    rw [h]

theorem sourced_lookup (h : Sourced given positiveTtl seen w.cache)
    (hforward : w.cache.now ≤ (f.lookup env q w).2.cache.now) :
    Sourced given positiveTtl (seen ++ (f.receipt? env q w).toList)
      (f.lookup env q w).2.cache := by
  have hmore := h.mono (List.subset_append_left seen (f.receipt? env q w).toList)
  cases hask : f.ask (env.draw w.outside).1 q with
  | error failure =>
      rw [(lookup_of_ask_eq_error hask).2]
      exact hmore
  | ok sent =>
      obtain ⟨arrival, -, hreceipt, -, hcache⟩ := lookup_of_ask_eq_ok hask
      rw [hcache] at hforward ⊢
      rcases conclude_cases sent.1 q arrival w.cache with
        ⟨-, failure, hidle⟩ | ⟨m, hm, -, hstored⟩
      · rw [hidle] at hforward ⊢
        exact hmore.advance hforward
      · rw [hstored] at hforward ⊢
        dsimp only at hforward ⊢
        rw [storeAll_now] at hforward
        refine (hmore.advance hforward).storeAll (m := m) ?_
          (fun s hs => RecordSet.isOf_of_mem_answerChain hs) _
        rw [hreceipt, hm]
        exact List.mem_append_right _ (List.mem_singleton_self _)

end Forwarder

end

/-! ### Sessions -/

/-- Something that happens to the cache: time passes, or a question is looked up. -/
inductive Call where
  | wait (seconds : Int64)
  | lookup (r : Resolver) (q : Question)

namespace Call

variable {σ : Type} (env : Environment σ)

def apply (w : World σ) : Call → World σ
  | wait seconds => { w with cache := w.cache.advance seconds }
  | lookup r q => (r.lookup env q w).2

/-- The responses that are received. -/
def receipts (w : World σ) : Call → List Receipt
  | wait _ => []
  | lookup (.iterative r) q => Move.receipts env w (r.moves env q w)
  | lookup (.forwarding f) q => (f.receipt? env q w).toList

/-- The clock never goes back, nor does it in the course of a lookup. -/
def Forward (w : World σ) : Call → Prop
  | wait seconds => w.cache.now ≤ (w.cache.advance seconds).now
  | lookup (.iterative r) q => Move.Forward env w (r.moves env q w)
  | lookup (.forwarding f) q => w.cache.now ≤ (f.lookup env q w).2.cache.now

instance Forward.decidable (w : World σ) : (call : Call) → Decidable (Forward env w call)
  | wait _ => inferInstanceAs (Decidable (_ ≤ _))
  | lookup (.iterative r) q => inferInstanceAs (Decidable (Move.Forward env w (r.moves env q w)))
  | lookup (.forwarding _) _ => inferInstanceAs (Decidable (_ ≤ _))

end Call

namespace Session

variable {σ : Type} (env : Environment σ)

/-- The world after a session. -/
def run (w : World σ) (calls : List Call) : World σ :=
  calls.foldl (Call.apply env) w

def receipts (w : World σ) : List Call → List Receipt
  | [] => []
  | call :: calls => call.receipts env w ++ receipts (call.apply env w) calls

def Forward (w : World σ) : List Call → Prop
  | [] => True
  | call :: calls => call.Forward env w ∧ Forward (call.apply env w) calls

instance Forward.decidable : (w : World σ) → (calls : List Call) → Decidable (Forward env w calls)
  | _, [] => .isTrue trivial
  | w, call :: calls =>
    have := Forward.decidable (call.apply env w) calls
    inferInstanceAs (Decidable (_ ∧ _))

end Session

/-- A record for each value of an entry, in order, which carries the time to live of the entry less
its age. -/
def Cache.Filed.aged (p : Cache.Filed) (now : Int64) : List ResourceRecord :=
  p.entry.values.map fun value =>
    .make p.name (UInt32.ofNat (p.entry.ttl.toNat - (p.entry.elapsed now).toNat)) p.type value

/-- The records of an answer are those of entries in the cache, on a trail from the question, one
for each value.  No entry is older than its time to live, and each record carries what the age of
its entry has left of it. -/
def Resolution.AgedFrom (resolution : Resolution) (c : Cache) (q : Question) : Prop :=
  ∃ trail, Cache.Trail c.found? q.type q.name trail ∧
    resolution.records = trail.flatMap (·.aged c.now) ∧
    ∀ p ∈ trail, c.positive.get? p.key = some p.entry ∧
      0 ≤ p.entry.elapsed c.now ∧ p.entry.elapsed c.now ≤ p.entry.ttl.toNat

section

open CachingResolver.Cache

variable {σ : Type} {env : Environment σ} {w : World σ} {given : String → Entry → Prop}
  {positiveTtl : UInt32} {seen : List Receipt} {c : Cache} {octets : List UInt8}

theorem Cache.sourced_loadRoots (hempty : c.positive = ∅) (hstart : 0 ≤ c.now) :
    Sourced (c.IsHint octets) c.positiveTtl [] (c.loadRoots octets).2 := by
  have hstart : 0 ≤ c.now.toInt := Int64.le_iff_toInt_le.1 hstart
  have hloaded : (c.loadRoots octets).2.positive =
      (∅ : Table Entry).insertAll (c.hintsPairs (RootHint.ofFile octets)) := by
    unfold loadRoots
    rw [loadHints_snd, hempty]
  have hhint : ∀ key e, (c.loadRoots octets).2.positive.get? key = some e →
      c.IsHint octets key e := by
    intro key e he
    rw [hloaded] at he
    exact he
  have hnow := c.now_loadRoots octets
  refine ⟨?_, hnow ▸ hstart, fun key e he => .inl (hhint key e he), fun key e he => ?_⟩
  · unfold loadRoots
    rw [loadHints_snd]
  · obtain ⟨values, -, rfl⟩ := eq_hintEntry_of_isHint (hhint key e he)
    rw [hnow]
    exact ⟨hstart, Int.le_refl _⟩

/-- An answer is composed of entries that are in the cache afterwards. -/
theorem Iterative.exists_trail_of_lookup {r : Iterative} {q : Question} {resolution : Resolution}
    (h : (r.lookup env q w).1 = .ok resolution) :
    ∃ trail, Trail (r.lookup env q w).2.cache.found? q.type q.name trail ∧
      resolution.records = trail.flatMap (·.records (r.lookup env q w).2.cache.now) := by
  obtain ⟨s, v, hrun, hcompose⟩ := lookup_eq_ok_iff.1 h
  obtain ⟨records, aliases, hfollow, rfl⟩ := compose_eq_ok_iff.1 hcompose
  have hsweeps := sweeps_compose v.cache q s.exchanges s.lastServer
  obtain ⟨trail, htrail, -, -, hfound⟩ := follow?_eq_some_iff.1 hfollow
  obtain ⟨rfl, -⟩ := Prod.mk.inj hfound
  rw [lookup_snd_of_run hrun]
  refine ⟨trail, htrail.congr fun p hp => ?_, ?_⟩
  · exact (hsweeps.found?_eq _).trans (htrail.filed?_of_mem hp)
  · dsimp only
    rw [hsweeps.now_eq]

/-- The records that a live entry is read as carry its time to live less its age. -/
theorem Cache.Filed.records_eq_aged {p : Filed} {now : Int64} (hfrom : 0 ≤ p.entry.elapsed now)
    (hto : p.entry.elapsed now ≤ p.entry.ttl.toNat) : p.records now = p.aged now := by
  have httl : p.entry.ttl.toNat < 2 ^ 32 := p.entry.ttl.toNat_lt
  have hspans : p.entry.Spans now := ⟨by omega, by omega⟩
  have hremaining := (Entry.ages_of_spans hspans).remainingTtl_eq
  have hword : p.entry.remainingTtl now =
      UInt32.ofNat (p.entry.ttl.toNat - (p.entry.elapsed now).toNat) := by
    rw [← UInt32.toNat_inj, UInt32.toNat_ofNat_of_lt' (by show _ < 2 ^ 32; omega)]
    omega
  simp only [records, Entry.records, aged, hword]

theorem Cache.Sourced.agedFrom_of_lookup {r : Iterative} {q : Question} {resolution : Resolution}
    (h : Sourced given positiveTtl seen (r.lookup env q w).2.cache)
    (hok : (r.lookup env q w).1 = .ok resolution) :
    resolution.AgedFrom (r.lookup env q w).2.cache q := by
  obtain ⟨trail, htrail, hrecords⟩ := Iterative.exists_trail_of_lookup hok
  have hages : ∀ p ∈ trail,
      (r.lookup env q w).2.cache.positive.get? p.key = some p.entry ∧
        0 ≤ p.entry.elapsed (r.lookup env q w).2.cache.now ∧
        p.entry.elapsed (r.lookup env q w).2.cache.now ≤ p.entry.ttl.toNat := by
    intro p hp
    obtain ⟨-, hpositive, -, hlive⟩ := found?_eq_some_iff.1 (htrail.filed?_of_mem hp)
    have hstamp := h.stamp _ _ hpositive
    exact ⟨hpositive, Int.sub_nonneg_of_le hstamp.2, Entry.age_le_of_live hstamp hlive⟩
  refine ⟨trail, htrail, ?_, hages⟩
  rw [hrecords]
  refine List.flatMap_congr fun p hp => ?_
  exact Filed.records_eq_aged (hages p hp).2.1 (hages p hp).2.2

theorem Call.sourced_apply {call : Call} (h : Sourced given positiveTtl seen w.cache)
    (hforward : call.Forward env w) :
    Sourced given positiveTtl (seen ++ call.receipts env w) (call.apply env w).cache := by
  cases call with
  | wait seconds => exact (h.mono (List.subset_append_left _ _)).advance hforward
  | lookup r q =>
      cases r with
      | iterative r =>
          have hcourse : ((Call.lookup (.iterative r) q).apply env w) =
              Move.course env w (r.moves env q w) := r.lookup_snd env q w
          rw [hcourse]
          exact Move.sourced_course h hforward
      | forwarding f =>
          have hlookup : (Call.lookup (.forwarding f) q).apply env w = (f.lookup env q w).2 := rfl
          rw [Call.Forward] at hforward
          rw [Call.receipts, hlookup]
          exact f.sourced_lookup h hforward

namespace Session

variable {calls more : List Call}

theorem forward_append :
    Forward env w (calls ++ more) ↔ Forward env w calls ∧ Forward env (run env w calls) more := by
  induction calls generalizing w with
  | nil => exact ⟨fun h => ⟨trivial, h⟩, fun h => h.2⟩
  | cons call calls ih =>
      show call.Forward env w ∧ Forward env (call.apply env w) (calls ++ more) ↔ _
      rw [ih, ← and_assoc]
      rfl

theorem sourced_run (h : Sourced given positiveTtl seen w.cache) (hforward : Forward env w calls) :
    Sourced given positiveTtl (seen ++ receipts env w calls) (run env w calls).cache := by
  induction calls generalizing w seen with
  | nil => exact h.mono (List.subset_append_left _ _)
  | cons call calls ih =>
      have hall := ih (Call.sourced_apply h hforward.1) hforward.2
      rw [List.append_assoc] at hall
      exact hall

/-- In a session that begins with root hints in the cache, with a clock that never goes back from a
time that is not negative, every record set is a root hint, as it was loaded, or a whole record set
of one response.  The records of every answer of an iterative lookup are those of such record sets
and carry what the age of each has left of its time to live. -/
theorem sourced_and_aged (hempty : c.positive = ∅) (hstart : 0 ≤ c.now)
    (hloaded : w.cache = (c.loadRoots octets).2) (hforward : Forward env w calls) :
    (∀ key e, (run env w calls).cache.positive.get? key = some e →
      c.IsHint octets key e ∨ ∃ x ∈ receipts env w calls, x.Gives c.positiveTtl key e) ∧
    ∀ before after r q resolution, calls = before ++ .lookup (.iterative r) q :: after →
      (r.lookup env q (run env w before)).1 = .ok resolution →
      resolution.AgedFrom (r.lookup env q (run env w before)).2.cache q := by
  have hsourced : Sourced (c.IsHint octets) c.positiveTtl [] w.cache := by
    rw [hloaded]
    exact sourced_loadRoots hempty hstart
  refine ⟨(sourced_run hsourced hforward).source, ?_⟩
  rintro before after r q resolution rfl hok
  obtain ⟨hbefore, hlookup, -⟩ := forward_append.1 hforward
  have hafter := Call.sourced_apply (sourced_run hsourced hbefore) hlookup
  exact Sourced.agedFrom_of_lookup hafter hok

end Session

end

/-! ### A session -/

namespace Session

open CachingResolver.Cache

/-- A question that is looked up from the root, and a minute later handed to a forwarder. -/
def exampleCalls : List Call :=
  [.wait 5, .lookup (.iterative {}) Referral.bankQuestion, .wait 60,
   .lookup (.forwarding ⟨[⟨.v4 ⟨192, 0, 2, 53⟩, 53, 0⟩], by decide⟩) Referral.bankQuestion,
   .wait 100]

/-- The world in which the question is looked up once more, from the cache. -/
def exampleWorld : World Unit :=
  run (.responding Inquiry.mixedAnswer) Move.hintedWorld exampleCalls

/-- The theorem at work: the address of the target comes from the answer to the forwarder, and the
records of the last answer have lost the hundred seconds since then. -/
theorem sourced_exampleCalls :
    (∃ x ∈ receipts (.responding Inquiry.mixedAnswer) Move.hintedWorld
        (exampleCalls ++ [.lookup (.iterative {}) Referral.bankQuestion]),
      x.Gives 3600 (makeKey "web.example.com." .a)
        { values := ["203.0.113.50"], ttl := 300, storedAt := 65 }) ∧
    ∃ resolution : Resolution,
      (({} : Iterative).lookup (.responding Inquiry.mixedAnswer) Referral.bankQuestion
        exampleWorld).1 = .ok resolution ∧
      resolution.records =
        [.make "www.sub.example.com." 200 .cname "web.example.com.",
         .make "web.example.com." 200 .a "203.0.113.50"] ∧
      resolution.AgedFrom (({} : Iterative).lookup (.responding Inquiry.mixedAnswer)
        Referral.bankQuestion exampleWorld).2.cache Referral.bankQuestion := by
  have hforward : Forward (.responding Inquiry.mixedAnswer) Move.hintedWorld
      (exampleCalls ++ [.lookup (.iterative {}) Referral.bankQuestion]) := by decide +kernel
  have hstored :
      (run (.responding Inquiry.mixedAnswer) Move.hintedWorld
        (exampleCalls ++ [.lookup (.iterative {}) Referral.bankQuestion])).cache.positive.get?
          (makeKey "web.example.com." .a) =
        some { values := ["203.0.113.50"], ttl := 300, storedAt := 65 } := by decide +kernel
  have hloaded : Move.hintedWorld.cache = (({} : Cache).loadRoots Move.oneHint).2 := rfl
  have hanswer : (({} : Iterative).lookup (.responding Inquiry.mixedAnswer) Referral.bankQuestion
      exampleWorld).1 =
      .ok
        { records :=
            [.make "www.sub.example.com." 200 .cname "web.example.com.",
             .make "web.example.com." 200 .a "203.0.113.50"]
          isCacheHit := true
          aliases := ["web.example.com."]
          server := none } := by decide +kernel
  obtain ⟨hsourced, haged⟩ := sourced_and_aged rfl (by decide) hloaded hforward
  refine ⟨?_, _, hanswer, rfl, haged _ _ _ _ _ rfl hanswer⟩
  rcases hsourced _ _ hstored with hhint | hgiven
  · have hkey := get?_loadRoots_of_isHint hhint
    exact absurd hkey (by decide +kernel)
  · exact hgiven

end Session

end CachingResolver
