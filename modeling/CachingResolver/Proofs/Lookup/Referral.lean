import CachingResolver.Proofs.Lookup.Inquiry

/-!
# What following a referral stores

A step that follows a referral stores the name servers of the zone below, and as glue the addresses
that the response gives for them (`after_eq`).  The owner of the name servers is tested against the
zone that was asked, the owners of the glue are not: what the step stores stays inside the zone
asked exactly when the glue does.
-/

namespace CachingResolver

/-- A key of a name at or below a zone. -/
def OwnedWithin (zone key : String) : Prop :=
  ∃ name type, key = Cache.makeKey name type ∧ Name.isSubdomain (Name.canonical name) zone = true

theorem ownedWithin_key_iff {s : RecordSet} (hcanonical : Name.canonical s.name = s.name)
    (zone : String) : OwnedWithin zone s.key ↔ Name.isSubdomain s.name zone = true := by
  constructor
  · rintro ⟨name, type, hkey, hwithin⟩
    obtain ⟨hname, -⟩ := Cache.makeKey_inj.1 hkey
    rwa [← hname, hcanonical] at hwithin
  · intro h
    exact ⟨s.name, s.type, rfl, by rwa [hcanonical]⟩

/-- A step on a question that asks a server of a zone, receives a referral and follows it. -/
structure Referral {σ : Type} (env : Environment σ) (port : UInt16) (current : Question) (s : Search)
    (w : World σ) where
  -- The zone of which a server is asked.
  zone : Zone
  server : Endpoint
  query : Message
  -- The cache as the query is sent.
  cache : Cache
  message : Message
  -- The first name server that the response refers to.
  first : ResourceRecord
  rest : List ResourceRecord
  asks : Search.prepare (env.draw w.outside).1 port current s w.cache =
    (.ask zone server query, cache)
  responds : (env.exchange (env.draw w.outside).2 server query).1.outcome = .ok message
  refers : Search.kindFor current message = .delegation ∨
    Search.kindFor current message = .bareDelegation
  servers_eq : message.referralServers = first :: rest
  descends : Search.descends zone current.name first.name = true

namespace Referral

open CachingResolver.Cache

variable {σ : Type} {env : Environment σ} {port : UInt16} {current : Question} {s : Search}
  {w : World σ} (r : Referral env port current s w)

/-- A referral that is followed is a message that is received. -/
def inquiry : Inquiry env port current s w :=
  ⟨r.zone, r.server, r.query, r.cache, r.message, r.asks, r.responds⟩

/-- How the exchange ended. -/
def arrival : Arrival :=
  (env.exchange (env.draw w.outside).2 r.server r.query).1

/-- The zone referred to. -/
def target : String :=
  r.first.name

/-- The name servers of the zone referred to. -/
def servers : RecordSet :=
  RecordSet.gather r.target .ns r.message.referralServers

/-- The glue for these servers in the response. -/
def glue : List RecordSet :=
  Cache.glue r.servers r.message.additionalRecords

def after (_ : Referral env port current s w) : Cache :=
  (Iterative.step env port current s w).2.cache

theorem after_def : r.after = (Iterative.step env port current s w).2.cache := rfl

theorem key_servers : r.servers.key = makeKey r.target .ns := rfl

theorem first_mem : r.first ∈ r.message.referralServers := by
  rw [r.servers_eq]
  exact List.mem_cons_self

theorem canonical_target : Name.canonical r.target = r.target :=
  Message.isCanonical_of_mem_referralServers r.first_mem

/-- The zone referred to lies strictly below the zone asked. -/
theorem target_below : r.target ≠ r.zone.name ∧ Name.isSubdomain r.target r.zone.name = true := by
  have h := r.descends
  unfold Search.descends at h
  simp only [Bool.and_eq_true, bne_iff_ne] at h
  exact h.1

theorem current_within : Name.isSubdomain current.name r.target = true := by
  have h := r.descends
  unfold Search.descends at h
  simp only [Bool.and_eq_true] at h
  exact h.2

theorem setsWithGlue_eq :
    setsWithGlue (r.first :: r.rest) r.message.additionalRecords = r.servers :: r.glue := by
  have htype := Message.type_of_mem_referralServers r.first_mem
  unfold setsWithGlue glue servers target
  rw [r.servers_eq]
  dsimp only
  rw [if_pos htype, htype]

theorem referralSets_eq :
    Search.referralSets current r.zone r.message = r.servers :: r.glue := by
  unfold Search.referralSets
  rw [r.servers_eq]
  dsimp only
  rw [if_pos r.descends, r.setsWithGlue_eq]

theorem taken_snd :
    r.inquiry.taken.2 =
      (r.cache.advance r.arrival.elapsed).storeAll r.arrival.rttMs
        (Search.referralSets current r.zone r.message) := by
  unfold Inquiry.taken Search.take inquiry
  dsimp only
  rcases r.refers with hkind | hkind
  · rw [hkind]
    exact Search.followReferral_snd_eq _
  · rw [hkind]
    exact Search.followReferral_snd_eq _

/-- The step stores the name servers of the zone referred to, and their glue. -/
theorem after_eq :
    r.after =
      (r.cache.advance r.arrival.elapsed).storeAll r.arrival.rttMs (r.servers :: r.glue) := by
  have hafter : r.after = r.inquiry.taken.2 := r.inquiry.after_eq
  rw [hafter, r.taken_snd, r.referralSets_eq]

theorem sweeps_cache : Sweeps w.cache r.cache :=
  r.inquiry.sweeps_cache

theorem isCanonical_of_mem_additionalRecords {g : ResourceRecord}
    (h : g ∈ r.message.additionalRecords) : g.IsCanonical :=
  Message.isCanonical_of_mem_filterMap h

theorem nodup_keys : ((r.servers :: r.glue).map RecordSet.key).Nodup := by
  rw [← r.setsWithGlue_eq]
  exact nodup_keys_setsWithGlue fun g hg => r.isCanonical_of_mem_additionalRecords hg

theorem canonical_of_mem_glue {g : RecordSet} (h : g ∈ r.glue) :
    Name.canonical g.name = g.name := by
  obtain ⟨record, hrecord, -, -, rfl⟩ := mem_glue.1 h
  exact r.isCanonical_of_mem_additionalRecords hrecord

theorem get?_after {g : RecordSet} (h : g ∈ r.servers :: r.glue) :
    r.after.positive.get? g.key =
      some ((r.cache.advance r.arrival.elapsed).freshEntry r.arrival.rttMs g) := by
  rw [r.after_eq]
  exact get?_storeAll_of_mem _ _ r.nodup_keys h

/-- A key that gains an entry is one of those stored, and what it holds has changed. -/
theorem of_gains {key : String} (h : Gains w.cache r.after key) :
    (∃ g ∈ r.servers :: r.glue, g.key = key) ∧
      r.after.positive.get? key ≠ w.cache.positive.get? key := by
  have hnegative : r.after.negative = r.cache.negative := by
    rw [r.after_eq, storeAll_negative]
    rfl
  rcases h with ⟨e, he, hne⟩ | ⟨e, he, hne⟩
  · refine ⟨?_, fun hsame => hne (hsame.symm.trans he)⟩
    by_contra hnone
    push Not at hnone
    rw [r.after_eq, get?_storeAll_of_forall_ne _ _ hnone] at he
    exact hne (r.sweeps_cache.positive_get? he)
  · rw [hnegative] at he
    exact absurd (r.sweeps_cache.negative_get? he) hne

/-- What a referral adds to the cache or changes there is owned at or below the zone asked, exactly
when the glue is that it accepts, apart from glue that was in the cache just so before. -/
theorem gains_within_zone_iff :
    (∀ key, Gains w.cache r.after key → OwnedWithin r.zone.name key) ↔
      ∀ g ∈ r.glue, Name.isSubdomain g.name r.zone.name = true ∨
        r.after.positive.get? g.key = w.cache.positive.get? g.key := by
  constructor
  · intro h g hg
    by_cases hsame : r.after.positive.get? g.key = w.cache.positive.get? g.key
    · exact .inr hsame
    · left
      have hafter := r.get?_after (List.mem_cons_of_mem _ hg)
      have hgains : Gains w.cache r.after g.key := by
        refine .inl ⟨_, hafter, fun hbefore => hsame ?_⟩
        rw [hafter, hbefore]
      exact (ownedWithin_key_iff (r.canonical_of_mem_glue hg) _).1 (h _ hgains)
  · intro h key hgains
    obtain ⟨⟨g, hg, rfl⟩, hchanged⟩ := r.of_gains hgains
    rcases List.mem_cons.1 hg with rfl | hg
    · -- The owner of the name servers has been tested.
      refine ⟨r.target, .ns, r.key_servers, ?_⟩
      rw [r.canonical_target]
      exact r.target_below.2
    · rcases h g hg with hwithin | hsame
      · exact (ownedWithin_key_iff (r.canonical_of_mem_glue hg) _).2 hwithin
      · exact absurd hsame hchanged

/-! ### Glue from another zone -/

/-- A server of `example.com.` refers to `www.bank.test.` as a name server of the zone below and
gives an address for it. -/
def bankReferral : Message :=
  { isResponse := true
    authorities :=
      [{ owner := .ofTexts ["sub", "example", "com"], ttl := 3600
         data := .ns (.ofTexts ["www", "bank", "test"]) }]
    additionals :=
      [{ owner := .ofTexts ["www", "bank", "test"], ttl := 300, data := .a ⟨198, 51, 100, 66⟩ },
       { owner := .ofTexts ["other", "test"], ttl := 300, data := .a ⟨192, 0, 2, 9⟩ }] }

/-- A cache that knows the address of `www.bank.test.` and a server of `example.com.`. -/
def bankCache : Cache :=
  ((({} : Cache).set "example.com." .ns ["ns.example.com."] 300 0).set
    "ns.example.com." .a ["203.0.113.10"] 300 0).set "www.bank.test." .a ["192.0.2.1"] 300 0

def bankQuestion : Question :=
  .make "www.sub.example.com." .a

theorem bankReferral_gains :
    Gains bankCache (Iterative.step (.responding bankReferral) 53 bankQuestion { pending := {} }
      ⟨bankCache, ()⟩).2.cache (makeKey "www.bank.test." .a) := by
  refine .inl ⟨{ values := ["198.51.100.66"], ttl := 300 }, ?_, ?_⟩
  · decide +kernel
  · decide +kernel

/-- The address replaces the one that was cached, although `www.bank.test.` lies outside the zone
asked. -/
theorem poisoned_by_glue :
    ¬ ∀ (env : Environment Unit) (port : UInt16) (current : Question) (s : Search) (w : World Unit)
        (r : Referral env port current s w) (key : String),
        Gains w.cache r.after key → OwnedWithin r.zone.name key := by
  intro hclaim
  have hzone : (Search.prepare {} 53 bankQuestion { pending := {} } bankCache).1.zoneName? =
      some "example.com." := by decide +kernel
  obtain ⟨zone, server, query, cache, hasks, hzone⟩ := Preparation.exists_ask_of_zoneName? hzone
  have hdescends : Search.descends zone bankQuestion.name "sub.example.com." = true := by
    unfold Search.descends
    rw [hzone]
    decide +kernel
  let r : Referral (.responding bankReferral) 53 bankQuestion { pending := {} } ⟨bankCache, ()⟩ :=
    { zone, server, query, cache
      message := bankReferral
      first := ⟨"sub.example.com.", 3600, "IN", .ns, "www.bank.test."⟩
      rest := []
      asks := hasks
      responds := rfl
      refers := by decide +kernel
      servers_eq := by decide +kernel
      descends := hdescends }
  obtain ⟨name, type, hkey, hwithin⟩ := hclaim _ _ _ _ _ r _ bankReferral_gains
  have hname : Name.canonical "www.bank.test." = Name.canonical name := (makeKey_inj.1 hkey).1
  have hwithin : Name.isSubdomain (Name.canonical "www.bank.test.") "example.com." = true := by
    rw [hname, ← hzone]
    exact hwithin
  exact absurd hwithin (by decide +kernel)

end Referral

end CachingResolver
