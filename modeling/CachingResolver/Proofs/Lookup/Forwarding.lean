import CachingResolver.Proofs.Lookup.AnswerScope
import CachingResolver.Proofs.Lookup.Asking
import CachingResolver.Proofs.Lookup.Provenance

/-!
# Forwarded lookups, all or nothing

A forwarded lookup asks once at most, and one of its own servers (`exchanges_eq`).  It ends in one
of two ways (`lookup_ending`): it succeeds and stores exactly the record sets of the answer that it
gives, or it fails and leaves both tables of the cache as they were.  It succeeds exactly when it
has received a message without an error code that has an answer for the question (`Answered`), so
whatever goes wrong before that leaves nothing behind (`lookup_all_or_nothing`).
-/

namespace CachingResolver

open CachingResolver.Cache

/-! ### Records that a cache takes in -/

namespace Cache

/-- From `c` to `d` the record sets of some records have taken the places of what was there, and all
else in the tables is as before. -/
structure Adopts (c d : Cache) (records : List ResourceRecord) : Prop where
  negative_eq : d.negative = c.negative
  others : ∀ key, (∀ r ∈ records, makeKey r.name r.type ≠ key) →
    d.positive.get? key = c.positive.get? key
  adopted : ∀ r ∈ records, ∃ least rttMs,
    ((recordsFor r.name r.type records).map (·.ttl)).min? = some least ∧
    d.positive.get? (makeKey r.name r.type) = some
      { values := ((recordsFor r.name r.type records).map (·.value)).eraseDups
        ttl := min least c.positiveTtl
        rttMs
        storedAt := d.now }

/-- Storing the record sets of records with canonical owners stores them all. -/
theorem adopts_storeAll_groups (c : Cache) (rttMs : UInt32) {records : List ResourceRecord}
    (h : ∀ r ∈ records, r.IsCanonical) :
    Adopts c (c.storeAll rttMs (RecordSet.groups records)) records where
  negative_eq := storeAll_negative c rttMs _
  others key hkey := by
    refine c.get?_storeAll_of_forall_ne rttMs fun s hs => ?_
    obtain ⟨r, hr, rfl⟩ := RecordSet.mem_groups.1 hs
    exact hkey r hr
  adopted r hr := by
    have hgroup := RecordSet.mem_groups.2 ⟨r, hr, rfl⟩
    have hne : recordsFor r.name r.type records ≠ [] :=
      List.ne_nil_of_mem (mem_recordsFor.2 ⟨hr, rfl, rfl⟩)
    obtain ⟨least, hleast, hstored⟩ :=
      c.storesRecords_of_mem rttMs (RecordSet.nodup_keys_groups h) hgroup hne
    rw [storeAll_now]
    exact ⟨least, rttMs, hleast, hstored⟩

end Cache

namespace Forwarder

variable {σ : Type}

/-- All exchanges of a lookup. -/
def exchanges (f : Forwarder) (env : Environment σ) (q : Question) (w : World σ) :
    List (Endpoint × Message) :=
  (f.lookup env.recorded q (w.recorded [])).2.outside.2

/-- The query for a question whose name has a given wire form. -/
def queryFor (draw : Draw) (q : Question) (wire : DomainName) : Message where
  id := draw.id
  recursionDesired := true
  questions := [{ name := wire, type := q.type.number }]

/-- The name of the question has a wire form, the exchange brings a response, and the response
answers the question. -/
def Answered (f : Forwarder) (env : Environment σ) (q : Question) (w : World σ) : Prop :=
  ∃ wire, DomainName.ofText? (Name.canonical q.name) = some wire ∧
    ∃ m, (env.exchange (env.draw w.outside).2 (f.choose (env.draw w.outside).1)
        (queryFor (env.draw w.outside).1 q wire)).1.outcome = .ok m ∧ Answers m q

variable {f : Forwarder} {env : Environment σ} {q : Question} {w : World σ} {draw : Draw}

/-! ### Whom a forwarder asks -/

theorem choose_mem : f.choose draw ∈ f.servers := by
  obtain ⟨servers, hne⟩ := f
  cases servers with
  | nil => exact absurd rfl hne
  | cons first rest => exact pick_mem draw.server first rest

theorem ask_of_ofText?_eq_none (h : DomainName.ofText? (Name.canonical q.name) = none) :
    f.ask draw q = .error (Search.noWireForm q.name) := by
  unfold ask
  rw [Search.query_of_ofText?_eq_none h]
  rfl

theorem ask_of_ofText?_eq_some {wire : DomainName}
    (h : DomainName.ofText? (Name.canonical q.name) = some wire) :
    f.ask draw q = .ok (f.choose draw, queryFor draw q wire) := by
  unfold ask
  rw [Search.query_of_ofText?_eq_some h]
  rfl

/-- With the record, a lookup does the same and adds its exchange. -/
theorem lookup_recorded (f : Forwarder) (env : Environment σ) (q : Question) (w : World σ)
    (record : List (Endpoint × Message)) :
    f.lookup env.recorded q (w.recorded record) =
      ((f.lookup env q w).1, (f.lookup env q w).2.recorded
        (record ++ (f.ask (env.draw w.outside).1 q).toOption.toList)) := by
  unfold lookup
  dsimp only [Environment.recorded, World.recorded]
  cases f.ask (env.draw w.outside).1 q with
  | error failure => simp [Except.toOption]
  | ok sent => rfl

/-- There is one exchange, with one of the servers, if the name of the question has a wire form, and
there is none otherwise. -/
theorem exchanges_eq : f.exchanges env q w =
    ((DomainName.ofText? (Name.canonical q.name)).map fun wire =>
      (f.choose (env.draw w.outside).1, queryFor (env.draw w.outside).1 q wire)).toList := by
  unfold exchanges
  rw [lookup_recorded]
  cases hwire : DomainName.ofText? (Name.canonical q.name) with
  | none =>
      rw [ask_of_ofText?_eq_none hwire]
      rfl
  | some wire =>
      rw [ask_of_ofText?_eq_some hwire]
      rfl

/-! ### How a lookup ends -/

/-- The two ways in which a lookup ends, with the cache that it leaves. -/
inductive Ending (f : Forwarder) (env : Environment σ) (q : Question) (w : World σ) :
    Except Failure Resolution → Cache → Prop
  | failed {failure : Failure} {d : Cache} (hunanswered : ¬ f.Answered env q w)
      (hpositive : d.positive = w.cache.positive) (hnegative : d.negative = w.cache.negative) :
      Ending f env q w (.error failure) d
  | answered {server : Endpoint} {records : List ResourceRecord} {d : Cache}
      (hanswered : f.Answered env q w) (hne : records ≠ []) (hadopts : Adopts w.cache d records) :
      Ending f env q w (.ok (resolution server records)) d

theorem lookup_ending (f : Forwarder) (env : Environment σ) (q : Question) (w : World σ) :
    f.Ending env q w (f.lookup env q w).1 (f.lookup env q w).2.cache := by
  cases hwire : DomainName.ofText? (Name.canonical q.name) with
  | none =>
      obtain ⟨-, hlookup⟩ := lookup_of_ask_eq_error (ask_of_ofText?_eq_none hwire)
      rw [hlookup]
      refine .failed ?_ rfl rfl
      rintro ⟨wire, hsome, -⟩
      rw [hwire] at hsome
      cases hsome
  | some wire =>
      obtain ⟨arrival, harrival, -, hresult, hcache⟩ :=
        lookup_of_ask_eq_ok (ask_of_ofText?_eq_some hwire)
      rw [hresult, hcache]
      rcases conclude_cases (f.choose (env.draw w.outside).1) q arrival w.cache with
        ⟨hnot, failure, hfailed⟩ | ⟨m, hm, hanswers, hanswered⟩
      · rw [hfailed]
        refine .failed ?_ rfl rfl
        rintro ⟨other, hother, m, hm, hanswers⟩
        obtain rfl := Option.some.inj (hwire.symm.trans hother)
        exact hnot m (harrival ▸ hm) hanswers
      · have hcanonical : ∀ r ∈ m.answerChain q.name q.type Name.root, r.IsCanonical :=
          fun r hr => Message.isCanonical_of_mem_filterMap (mem_chainFrom hr).1
        have hadopts := adopts_storeAll_groups (w.cache.advance arrival.elapsed) arrival.rttMs
          hcanonical
        rw [hanswered]
        exact .answered ⟨wire, hwire, m, harrival ▸ hm, hanswers⟩ hanswers.2
          ⟨hadopts.negative_eq, hadopts.others, hadopts.adopted⟩

/-- For any cache, question and outside: recording the exchanges of a forwarded lookup changes
nothing else, there is one at most, and it is with one of the forwarder's servers.  The lookup
succeeds exactly when the name of the question has a wire form and a response comes that has no
error code and some records for the question.  If it fails, both tables are as they were.  If it
succeeds, exactly the record sets of the records it gives are stored, and its aliases are the values
of those that are aliases. -/
theorem lookup_all_or_nothing (f : Forwarder) (env : Environment σ) (q : Question) (w : World σ) :
    (f.lookup env.recorded q (w.recorded []) =
        ((f.lookup env q w).1, (f.lookup env q w).2.recorded (f.exchanges env q w)) ∧
      (f.exchanges env q w).length ≤ 1 ∧ ∀ x ∈ f.exchanges env q w, x.1 ∈ f.servers) ∧
    ((∃ resolution, (f.lookup env q w).1 = .ok resolution) ↔ f.Answered env q w) ∧
    (∀ failure, (f.lookup env q w).1 = .error failure →
      (f.lookup env q w).2.cache.positive = w.cache.positive ∧
        (f.lookup env q w).2.cache.negative = w.cache.negative) ∧
    ∀ resolution, (f.lookup env q w).1 = .ok resolution →
      resolution.records ≠ [] ∧
        Adopts w.cache (f.lookup env q w).2.cache resolution.records ∧
        resolution.aliases =
          (resolution.records.filter (·.type == .cname)).map (·.value) := by
  refine ⟨⟨?_, ?_, ?_⟩, ?_⟩
  · have hrecorded := lookup_recorded f env q w []
    unfold exchanges
    rw [hrecorded]
    rfl
  · rw [exchanges_eq]
    cases DomainName.ofText? (Name.canonical q.name) with
    | none => exact Nat.zero_le 1
    | some wire => exact Nat.le_refl 1
  · intro x hx
    rw [exchanges_eq] at hx
    obtain ⟨wire, -, rfl⟩ := Option.map_eq_some_iff.1 (Option.mem_toList.1 hx)
    exact choose_mem
  · have hending := lookup_ending f env q w
    generalize f.lookup env q w = ended at hending
    obtain ⟨result, v⟩ := ended
    dsimp only at hending ⊢
    cases hending with
    | failed hunanswered hpositive hnegative =>
        refine ⟨iff_of_false ?_ hunanswered, fun _ _ => ⟨hpositive, hnegative⟩, nofun⟩
        rintro ⟨resolution, h⟩
        cases h
    | answered hanswered hne hadopts =>
        refine ⟨iff_of_true ⟨_, rfl⟩ hanswered, nofun, ?_⟩
        rintro _ ⟨⟩
        exact ⟨hne, hadopts, rfl⟩

/-- The theorem at work: the alias and the address of its target are stored, and what the same
response says about the address of the bank is not. -/
theorem lookup_all_or_nothing_mixedAnswer :
    ∃ (f : Forwarder) (resolution : Resolution) (v : World Unit),
      f.lookup (.responding Inquiry.mixedAnswer) Referral.bankQuestion ⟨Referral.bankCache, ()⟩ =
        (.ok resolution, v) ∧
      resolution.aliases = ["web.example.com."] ∧
      Adopts Referral.bankCache v.cache resolution.records ∧
      v.cache.positive.get? (makeKey "www.bank.test." .a) =
        Referral.bankCache.positive.get? (makeKey "www.bank.test." .a) := by
  let f : Forwarder := ⟨[{ ip := .v4 ⟨192, 0, 2, 53⟩, port := 53 }], by decide⟩
  have hresult : (f.lookup (.responding Inquiry.mixedAnswer) Referral.bankQuestion
      ⟨Referral.bankCache, ()⟩).1 = .ok
        { records :=
            [.make "www.sub.example.com." 300 .cname "web.example.com.",
             .make "web.example.com." 300 .a "203.0.113.50"]
          isCacheHit := false
          aliases := ["web.example.com."]
          server := some { ip := .v4 ⟨192, 0, 2, 53⟩, port := 53 } } := by decide +kernel
  obtain ⟨-, -, -, hok⟩ := lookup_all_or_nothing f (.responding Inquiry.mixedAnswer)
    Referral.bankQuestion ⟨Referral.bankCache, ()⟩
  obtain ⟨-, hadopts, -⟩ := hok _ hresult
  exact ⟨f, _, _, Prod.ext hresult rfl, rfl, hadopts, hadopts.others _ (by decide +kernel)⟩

end Forwarder

end CachingResolver
