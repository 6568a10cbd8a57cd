import CachingResolver.Proofs.Lookup.Provenance

/-!
# Whether an answer is complete

A complete answer is a path from the name of its question (`Path`): the alias records of one name
after the other, each time the whole record set and the next name being where its first record
leads, and then a record set of the type asked for.  Where the record sets come from depends on the
way a resolver works: an iterative one composes its answers from the cache, a forwarder selects them
from a response.

When the cache holds nothing but root hints and what lookups have stored, the answers of iterative
lookups are complete.  A forwarder also gives answers that stop at an alias, and these are the only
ones that are not complete (`complete_iff`).
-/

namespace CachingResolver

/-! ### Paths -/

/-- The record sets that answers are made of, by owner and type. -/
structure RecordSource where
  rrset : String → RecordType → List ResourceRecord
  owned : ∀ owner type, ∀ r ∈ rrset owner type, r.name = Name.canonical owner ∧ r.type = type

/-- The record sets of some records. -/
def RecordSource.ofRecords (rs : List ResourceRecord) : RecordSource where
  rrset owner type := recordsFor (Name.canonical owner) type rs
  owned _ _ _ hr := (mem_recordsFor.1 hr).2

/-- The record sets that a cache answers. -/
def Cache.recordSource (c : Cache) : RecordSource where
  rrset owner type :=
    match c.found? (makeKey owner type) with
    | some e => e.records owner type c.now
    | none => []
  owned owner type r hr := by
    cases hfound : c.found? (makeKey owner type) with
    | none =>
        rw [hfound] at hr
        cases hr
    | some e =>
        rw [hfound] at hr
        obtain ⟨value, -, rfl⟩ := List.mem_map.1 hr
        exact ⟨rfl, rfl⟩

/-- From a name the records lead along aliases to a record set of a type. -/
inductive Path (source : RecordSource) (type : RecordType) : String → List ResourceRecord → Prop
  | direct {name : String} (hne : source.rrset name type ≠ []) :
      Path source type name (source.rrset name type)
  | along {name : String} {first : ResourceRecord} {more rest : List ResourceRecord}
      (htype : type ≠ .cname) (hfirst : source.rrset name .cname = first :: more)
      (hrest : Path source type (Name.canonical first.value) rest) :
      Path source type name (first :: more ++ rest)

/-- The records of an answer are a path from the name of the question. -/
def Resolution.Complete (resolution : Resolution) (source : RecordSource) (q : Question) : Prop :=
  Path source q.type (Name.canonical q.name) resolution.records

namespace Path

variable {source other : RecordSource} {type : RecordType} {name : String}
  {records : List ResourceRecord}

theorem exists_of_type (h : Path source type name records) : ∃ r ∈ records, r.type = type := by
  induction h with
  | direct hne =>
      obtain ⟨r, hr⟩ := List.exists_mem_of_ne_nil _ hne
      exact ⟨r, hr, (source.owned _ _ r hr).2⟩
  | along _ _ _ ih =>
      obtain ⟨r, hr, htype⟩ := ih
      exact ⟨r, List.mem_append_right _ hr, htype⟩

/-- A path stays one when record sets are added where there are none. -/
theorem mono (h : Path source type name records)
    (hother : ∀ owner t, source.rrset owner t ≠ [] → other.rrset owner t = source.rrset owner t) :
    Path other type name records := by
  induction h with
  | direct hne =>
      have hsame := hother _ _ hne
      rw [← hsame] at hne ⊢
      exact .direct hne
  | along htype hfirst _ ih =>
      exact .along htype ((hother _ _ (hfirst ▸ List.cons_ne_nil _ _)).trans hfirst) ih

end Path

/-! ### Answers selected from a response -/

section

variable {type : RecordType} {zone owner : String} {rs : List ResourceRecord}

theorem RecordSource.rrset_ofRecords (howner : Name.canonical owner = owner) :
    (ofRecords rs).rrset owner type = recordsFor owner type rs := by
  unfold ofRecords
  dsimp only
  rw [howner]

/-- What is selected is a path as soon as it has a record of the type asked for. -/
theorem path_chainFrom (howner : Name.canonical owner = owner)
    (h : ∃ r ∈ chainFrom type zone owner rs, r.type = type) :
    Path (.ofRecords rs) type owner (chainFrom type zone owner rs) := by
  fun_induction chainFrom type zone owner rs with
  | case1 owner rs direct hdirect =>
      obtain ⟨r, hr, -⟩ := h
      have hset : (RecordSource.ofRecords rs).rrset owner type = direct :=
        RecordSource.rrset_ofRecords howner
      rw [← hset] at hr ⊢
      exact .direct (List.ne_nil_of_mem hr)
  | case2 =>
      obtain ⟨r, hr, -⟩ := h
      cases hr
  | case3 owner rs direct hdirect first more hfirst target hzone ih =>
      have htype : type ≠ .cname := by
        rintro rfl
        simp at hdirect
      have hset : (RecordSource.ofRecords rs).rrset owner .cname = first :: more :=
        (RecordSource.rrset_ofRecords howner).trans hfirst
      refine .along htype hset (Path.mono (ih (Name.canonical_canonical _) ?_) fun name t hne => ?_)
      · obtain ⟨r, hr, hrtype⟩ := h
        rcases List.mem_append.1 hr with hr | hr
        · have hcname := (mem_recordsFor.1 (hfirst ▸ hr)).2.2
          exact absurd (hrtype.symm.trans hcname) htype
        · exact ⟨r, hr, hrtype⟩
      · -- The owner that has been passed is on no path among the other records.
        have hbeside : (RecordSource.ofRecords (recordsBeside owner rs)).rrset name t =
            if Name.canonical name = owner then [] else (RecordSource.ofRecords rs).rrset name t :=
          recordsFor_recordsBeside _ _ _ _
        rw [hbeside] at hne ⊢
        split at hne
        · exact absurd rfl hne
        · rename_i hname
          rw [if_neg hname]
  | case4 owner rs direct hdirect first more hfirst target hzone =>
      obtain ⟨r, hr, hrtype⟩ := h
      have hcname := (mem_recordsFor.1 (hfirst ▸ hr)).2.2
      have htype : type = .cname := hrtype.symm.trans hcname
      subst htype
      simp at hdirect

end

/-! ### Answers composed from the cache -/

namespace Cache

variable {c d : Cache}

/-- Every record set has a value. -/
def Valued (c : Cache) : Prop :=
  ∀ key e, c.positive.get? key = some e → e.values ≠ []

theorem Valued.sweeps (h : c.Valued) (hsweeps : Sweeps c d) : d.Valued :=
  fun key e he => h key e (hsweeps.positive_get? he)

theorem Valued.storeAll (h : c.Valued) {sets : List RecordSet} (hsets : ∀ s ∈ sets, s.values ≠ [])
    (rttMs : UInt32) : (c.storeAll rttMs sets).Valued := by
  intro key e he
  by_cases hkey : ∃ s ∈ sets, s.key = key
  · obtain ⟨s, hs, -, hfresh⟩ := c.exists_get?_storeAll rttMs hkey
    obtain rfl := Option.some.inj (he.symm.trans hfresh)
    exact hsets s hs
  · push Not at hkey
    exact h key e ((c.get?_storeAll_of_forall_ne rttMs hkey).symm.trans he)

theorem Valued.loadRoots (h : c.Valued) (octets : List UInt8) : (c.loadRoots octets).2.Valued := by
  intro key e he
  have hloaded : (c.loadRoots octets).2.positive =
      c.positive.insertAll (c.hintsPairs (RootHint.ofFile octets)) := by
    unfold Cache.loadRoots
    rw [loadHints_snd]
  rw [hloaded] at he
  by_cases hkey : ∃ p ∈ c.hintsPairs (RootHint.ofFile octets), p.1 = key
  · obtain ⟨p, hp, hpkey⟩ := hkey
    obtain ⟨f, hf⟩ := exists_isHint hp
    obtain ⟨values, hne, rfl⟩ := eq_hintEntry_of_isHint hf
    have hget := get?_loadRoots_of_isHint hf
    rw [hloaded, hpkey, he] at hget
    obtain rfl := Option.some.inj hget
    exact hne
  · push Not at hkey
    exact h key e ((Table.get?_insertAll_of_forall_ne _ hkey).symm.trans he)

theorem records_canonical (e : Entry) (name : String) (type : RecordType) (now : Int64) :
    e.records (Name.canonical name) type now = e.records name type now := by
  unfold Entry.records ResourceRecord.make ResourceRecord.ofClass
  rw [Name.canonical_canonical]

theorem rrset_recordSource {name : String} {type : RecordType} {e : Entry}
    (h : c.found? (makeKey name type) = some e) :
    c.recordSource.rrset (Name.canonical name) type = e.records name type c.now := by
  unfold recordSource
  dsimp only
  rw [makeKey_canonical, h]
  exact records_canonical e name type c.now

/-- The records on a trail of entries with values are a path. -/
theorem Trail.path {type : RecordType} {name : String} {trail : List Filed}
    (h : Trail c.found? type name trail) (hvalued : c.Valued) :
    Path c.recordSource type (Name.canonical name) (trail.flatMap (·.records c.now)) := by
  induction h with
  | @direct name e hentry =>
      have hset := rrset_recordSource hentry
      have hne : e.values ≠ [] := hvalued _ _ (found?_eq_some_iff.1 hentry).2.1
      have hpath : Path c.recordSource type (Name.canonical name)
          (c.recordSource.rrset (Name.canonical name) type) := by
        refine .direct ?_
        rw [hset]
        simpa [Entry.records] using hne
      rw [hset] at hpath
      simpa using hpath
  | @along name target e rest htype hentry htarget _ ih =>
      obtain ⟨more, hvalues⟩ := List.head?_eq_some_iff.1 htarget
      have hset := rrset_recordSource hentry
      have hcons : e.records name .cname c.now =
          ResourceRecord.make name (e.remainingTtl c.now) .cname target ::
            more.map (ResourceRecord.make name (e.remainingTtl c.now) .cname) := by
        unfold Entry.records
        rw [hvalues, List.map_cons]
      have hvalue : Name.canonical
          (ResourceRecord.make name (e.remainingTtl c.now) .cname target).value =
            Name.canonical target := Name.canonical_canonical target
      rw [List.flatMap_cons, Filed.records_mk, hcons]
      refine .along htype (hset.trans hcons) ?_
      rw [hvalue]
      exact ih

end Cache

/-! ### Caches filled by hints and lookups -/

/-- A world whose cache has had nothing but root hints and lookups, at whatever times. -/
inductive World.Filled {σ : Type} (env : Environment σ) : World σ → Prop
  | empty {w : World σ} (hempty : w.cache.positive = ∅) : Filled env w
  | hints {w : World σ} (octets : List UInt8) (hw : Filled env w) :
      Filled env { w with cache := (w.cache.loadRoots octets).2 }
  | call {w : World σ} (call : Call) (hw : Filled env w) : Filled env (call.apply env w)

section

open CachingResolver.Cache

variable {σ : Type} {env : Environment σ} {w : World σ}

theorem Inquiry.valued_after {port : UInt16} {current : Question} {s : Search}
    (x : Inquiry env port current s w) (h : w.cache.Valued) : x.after.Valued := by
  intro key e he
  rcases x.positive_get?_after he with hbefore | ⟨g, hg, -, rfl⟩
  · exact h key e hbefore
  · exact x.values_ne_nil_of_mem_stored hg

theorem Move.valued_apply {m : Move} (h : w.cache.Valued) : (m.apply env w).cache.Valued := by
  cases m with
  | wait seconds => exact h
  | compose q exchanges server => exact h.sweeps (sweeps_compose _ _ _ _)
  | step port current s =>
      rcases Iterative.step_cases env port current s w with ⟨d, elapsed, hd, hafter⟩ | ⟨⟨x⟩⟩
      · have hcache : ((Move.step port current s).apply env w).cache = d.advance elapsed := hafter
        have hswept : d.Valued := h.sweeps hd
        rw [hcache]
        exact hswept
      · exact x.valued_after h

theorem Move.valued_course {ms : List Move} (h : w.cache.Valued) :
    (course env w ms).cache.Valued := by
  induction ms generalizing w with
  | nil => exact h
  | cons m ms ih => exact ih (valued_apply h)

theorem Forwarder.valued_lookup {f : Forwarder} {q : Question} (h : w.cache.Valued) :
    (f.lookup env q w).2.cache.Valued := by
  cases hask : f.ask (env.draw w.outside).1 q with
  | error failure =>
      rw [(lookup_of_ask_eq_error hask).2]
      exact h
  | ok sent =>
      obtain ⟨arrival, -, -, -, hcache⟩ := lookup_of_ask_eq_ok hask
      rw [hcache]
      rcases conclude_cases sent.1 q arrival w.cache with
        ⟨-, failure, hidle⟩ | ⟨m, -, -, hstored⟩
      · rw [hidle]
        exact h
      · rw [hstored]
        have hadvanced : (w.cache.advance arrival.elapsed).Valued := h
        refine hadvanced.storeAll (fun s hs => ?_) _
        obtain ⟨rs, -, hne, hgather⟩ := RecordSet.isOf_of_mem_answerChain hs
        rw [hgather]
        exact RecordSet.values_gather_ne_nil hne

theorem Resolver.valued_lookup {r : Resolver} {q : Question} (h : w.cache.Valued) :
    (r.lookup env q w).2.cache.Valued := by
  cases r with
  | iterative r =>
      have hlookup : (Resolver.iterative r).lookup env q w = r.lookup env q w := rfl
      rw [hlookup, Iterative.lookup_snd]
      exact Move.valued_course h
  | forwarding f =>
      have hlookup : (Resolver.forwarding f).lookup env q w = f.lookup env q w := rfl
      rw [hlookup]
      exact f.valued_lookup h

theorem World.Filled.valued (h : w.Filled env) : w.cache.Valued := by
  induction h with
  | empty hempty =>
      intro key e he
      rw [hempty, Table.get?_empty] at he
      cases he
  | hints octets _ ih => exact ih.loadRoots octets
  | call call _ ih =>
      cases call with
      | wait seconds => exact ih
      | lookup r q => exact Resolver.valued_lookup ih

end

/-! ### Complete answers -/

/-- Where a resolver takes the record sets of its answer to a question from: the cache as the lookup
leaves it, or the response that a forwarder receives. -/
def Resolver.recordSource {σ : Type} (r : Resolver) (env : Environment σ) (q : Question)
    (w : World σ) : RecordSource :=
  match r with
  | .iterative r => (r.lookup env q w).2.cache.recordSource
  | .forwarding f =>
    .ofRecords (((f.receipt? env q w).map fun x => x.message.answerRecords).getD [])

section

variable {σ : Type} {env : Environment σ} {q : Question} {w : World σ} {resolution : Resolution}

theorem Iterative.complete_of_lookup {r : Iterative} (hfilled : w.Filled env)
    (hok : (r.lookup env q w).1 = .ok resolution) :
    resolution.Complete (r.lookup env q w).2.cache.recordSource q := by
  obtain ⟨trail, htrail, hrecords⟩ := exists_trail_of_lookup hok
  unfold Resolution.Complete
  rw [hrecords]
  refine htrail.path ?_
  exact Resolver.valued_lookup (r := .iterative r) hfilled.valued

theorem Forwarder.exists_of_conclude_eq_ok {server : Endpoint} {arrival : Arrival} {c : Cache}
    (hok : (conclude server q arrival c).1 = .ok resolution) :
    ∃ m, arrival.outcome = .ok m ∧
      resolution.records = m.answerChain q.name q.type Name.root := by
  rcases conclude_cases server q arrival c with ⟨-, failure, hfailed⟩ | ⟨m, hm, -, hanswered⟩
  · rw [hfailed] at hok
    cases hok
  · rw [hanswered] at hok
    cases hok
    exact ⟨m, hm, rfl⟩

/-- An answer of a forwarder is selected from the response that it receives. -/
theorem Forwarder.exists_receipt_of_lookup {f : Forwarder}
    (hok : (f.lookup env q w).1 = .ok resolution) :
    ∃ x, f.receipt? env q w = some x ∧
      resolution.records = x.message.answerChain q.name q.type Name.root := by
  cases hask : f.ask (env.draw w.outside).1 q with
  | error failure =>
      rw [(lookup_of_ask_eq_error hask).2] at hok
      cases hok
  | ok sent =>
      obtain ⟨arrival, -, hreceipt, hlookup, -⟩ := lookup_of_ask_eq_ok hask
      rw [hlookup] at hok
      obtain ⟨m, houtcome, hrecords⟩ := exists_of_conclude_eq_ok hok
      rw [houtcome] at hreceipt
      exact ⟨_, hreceipt, hrecords⟩

theorem Forwarder.complete_iff_of_lookup {f : Forwarder}
    (hok : (f.lookup env q w).1 = .ok resolution) :
    resolution.Complete ((Resolver.forwarding f).recordSource env q w) q ↔
      ∃ r ∈ resolution.records, r.type = q.type := by
  obtain ⟨x, hreceipt, hrecords⟩ := exists_receipt_of_lookup hok
  have hsource : (Resolver.forwarding f).recordSource env q w =
      .ofRecords x.message.answerRecords := by
    unfold Resolver.recordSource
    dsimp only
    rw [hreceipt]
    rfl
  rw [hsource]
  refine ⟨Path.exists_of_type, fun h => ?_⟩
  unfold Resolution.Complete
  rw [hrecords] at h ⊢
  exact path_chainFrom (Name.canonical_canonical _) h

/-- When the cache has had nothing but root hints and lookups, the answers of iterative lookups are
complete, and those of forwarded ones are unless they stop at an alias: an answer is complete
exactly when it has a record of the type asked for. -/
theorem complete_iff (r : Resolver) (env : Environment σ) (q : Question) (w : World σ)
    (hfilled : w.Filled env) (resolution : Resolution)
    (hok : (r.lookup env q w).1 = .ok resolution) :
    (resolution.Complete (r.recordSource env q w) q ↔
      ∃ record ∈ resolution.records, record.type = q.type) ∧
    ∀ settings, r = .iterative settings → resolution.Complete (r.recordSource env q w) q := by
  cases r with
  | iterative settings =>
      have hcomplete : resolution.Complete
          ((Resolver.iterative settings).recordSource env q w) q :=
        Iterative.complete_of_lookup hfilled hok
      exact ⟨iff_of_true hcomplete hcomplete.exists_of_type, fun _ _ => hcomplete⟩
  | forwarding f =>
      refine ⟨Forwarder.complete_iff_of_lookup hok, ?_⟩
      rintro settings ⟨⟩

end

/-- The theorem at work: the alias from the response and the address of its target. -/
theorem complete_mixedAnswer :
    Move.hintedWorld.Filled (.responding Inquiry.mixedAnswer) ∧
      ∃ resolution, ((Resolver.iterative {}).lookup (.responding Inquiry.mixedAnswer)
          Referral.bankQuestion Move.hintedWorld).1 = .ok resolution ∧
        resolution.Complete ((Resolver.iterative {}).recordSource (.responding Inquiry.mixedAnswer)
          Referral.bankQuestion Move.hintedWorld) Referral.bankQuestion := by
  have hfilled : Move.hintedWorld.Filled (.responding Inquiry.mixedAnswer) :=
    .hints Move.oneHint (.empty (w := ⟨{}, ()⟩) rfl)
  have hsome : (((Resolver.iterative {}).lookup (.responding Inquiry.mixedAnswer)
      Referral.bankQuestion Move.hintedWorld).1.toOption.map fun resolution =>
        resolution.records.map (·.value)) = some ["web.example.com.", "203.0.113.50"] := by
    decide +kernel
  refine ⟨hfilled, ?_⟩
  cases hok : ((Resolver.iterative {}).lookup (.responding Inquiry.mixedAnswer)
      Referral.bankQuestion Move.hintedWorld).1 with
  | error failure =>
      rw [hok] at hsome
      cases hsome
  | ok resolution =>
      exact ⟨resolution, rfl, (complete_iff _ _ _ _ hfilled resolution hok).2 {} rfl⟩

/-! ### An answer that stops at an alias -/

/-- A response with an alias of `alias.example.com.` and nothing on its target. -/
def aliasAlone : Message :=
  { isResponse := true
    answers :=
      [{ owner := .ofTexts ["alias", "example", "com"], ttl := 300
         data := .cname (.ofTexts ["target", "example", "com"]) }] }

/-- A forwarder answers with the alias alone. -/
theorem incomplete_aliasAlone :
    ¬ ∀ (r : Resolver) (env : Environment Unit) (q : Question) (w : World Unit), w.Filled env →
        ∀ resolution, (r.lookup env q w).1 = .ok resolution →
          resolution.Complete (r.recordSource env q w) q := by
  intro hclaim
  let f : Forwarder := ⟨[{ ip := .v4 ⟨192, 0, 2, 53⟩, port := 53 }], by decide⟩
  let q : Question := .make "alias.example.com." .a
  have hfilled : World.Filled (.responding aliasAlone) (⟨{}, ()⟩ : World Unit) := .empty rfl
  have haliases : (((Resolver.forwarding f).lookup (.responding aliasAlone) q
      ⟨{}, ()⟩).1.toOption.map fun resolution => resolution.records.map (·.type)) =
        some [.cname] := by decide +kernel
  cases hok : ((Resolver.forwarding f).lookup (.responding aliasAlone) q ⟨{}, ()⟩).1 with
  | error failure =>
      rw [hok] at haliases
      cases haliases
  | ok resolution =>
      rw [hok] at haliases
      have htypes : resolution.records.map (·.type) = [.cname] := Option.some.inj haliases
      obtain ⟨r, hr, htype⟩ :=
        (hclaim _ _ q _ hfilled resolution hok).exists_of_type
      have hmem : RecordType.a ∈ resolution.records.map (·.type) :=
        List.mem_map.2 ⟨r, hr, htype⟩
      rw [htypes] at hmem
      exact absurd hmem (by decide)

end CachingResolver
