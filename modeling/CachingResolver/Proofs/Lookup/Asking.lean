import CachingResolver.Proofs.Lookup.Isolation

/-!
# Whom a lookup asks, and for what

`Environment.recorded` is any outside with a record of the exchanges added to its state, and a
lookup is the same with the record as without.  Every exchange on record is the one of a step on a
pending question, and is well directed for the cache as the query goes out (`WellDirected`): the
cache has nothing that settles the question, the server is one of the nearest enclosing zone, and
the query is for the question and for nothing else (`exchanges_well_directed`).

Which zone encloses a name is decided on texts here, as everywhere in the resolver.
-/

namespace CachingResolver

open CachingResolver.Cache

variable {σ : Type}

/-- An outside that also records the exchanges. -/
def Environment.recorded (env : Environment σ) : Environment (σ × List (Endpoint × Message)) where
  draw o :=
    let (draw, outside) := env.draw o.1
    (draw, outside, o.2)
  exchange o server query :=
    let (arrival, outside) := env.exchange o.1 server query
    (arrival, outside, o.2 ++ [(server, query)])

/-- A world after the exchanges on record. -/
def World.recorded (w : World σ) (record : List (Endpoint × Message)) :
    World (σ × List (Endpoint × Message)) where
  cache := w.cache
  outside := (w.outside, record)

namespace Search

/-- A query to a server is well directed for a question, when the cache is `c` as it goes out. -/
structure WellDirected (c : Cache) (port : UInt16) (current : Question) (server : Endpoint)
    (query : Message) : Prop where
  unanswered : c.Vacant (makeKey current.name current.type)
  unaliased : current.type ≠ .cname → c.alias? current.name = none
  addressed : ∃ zone servers, c.Nearest current.name zone servers ∧
    ∃ name ∈ servers.values, server.ip ∈ c.addressesFor name ∧
      ((∃ ip ∈ c.addressesFor name, ip.isV4 = true) → server.ip.isV4 = true)
  port_eq : server = { ip := server.ip, port }
  worded : ∃ wire, DomainName.ofText? (Name.canonical current.name) = some wire ∧
    query =
      { id := query.id, recursionDesired := false
        questions := [{ name := wire, type := current.type.number }] }

variable {draw : Draw} {port : UInt16} {current : Question} {s : Search} {c d : Cache}
  {zone : Zone} {server : Endpoint} {query : Message}

/-- Who is asked and for what, as it is decided. -/
theorem of_prepareQuery_eq_ask
    (h : prepareQuery draw port current s c = (.ask zone server query, d)) :
    c.zoneFor current.name = (zone, d) ∧ zone ≠ .unknown ∧
      (∃ ip, chooseServer draw zone = some ip ∧ server = { ip, port }) ∧
      Message.query draw.id current.name current.type false = .ok query := by
  unfold prepareQuery at h
  dsimp only at h
  generalize c.zoneFor current.name = found at h ⊢
  obtain ⟨nearest, e⟩ := found
  dsimp only at h
  split at h
  · cases h
  · rename_i hknown
    cases hchosen : chooseServer draw nearest with
    | none =>
        rw [hchosen] at h
        cases h
    | some ip =>
        rw [hchosen] at h
        dsimp only at h
        cases hquery : Message.query draw.id current.name current.type false with
        | error failure =>
            rw [hquery] at h
            cases h
        | ok message =>
            rw [hquery] at h
            cases h
            refine ⟨rfl, ?_, ⟨ip, hchosen, rfl⟩, rfl⟩
            rintro rfl
            exact hknown rfl

theorem prepareQuery_of_prepare_eq_ask
    (h : prepare draw port current s c = (.ask zone server query, d)) :
    ∃ b, prepareQuery draw port current s b = (.ask zone server query, d) := by
  rcases prepare_cases draw port current s c with ⟨-, s', b, -, hsettled⟩ | ⟨-, b, -, hquery⟩
  · rw [hsettled] at h
    cases h
  · exact ⟨b, hquery ▸ h⟩

theorem wording_of_query {id : UInt16} {name : String} {type : RecordType}
    {recursionDesired : Bool} (h : Message.query id name type recursionDesired = .ok query) :
    ∃ wire, DomainName.ofText? (Name.canonical name) = some wire ∧
      query = { id, recursionDesired, questions := [{ name := wire, type := type.number }] } := by
  cases hwire : DomainName.ofText? (Name.canonical name) with
  | none =>
      rw [query_of_ofText?_eq_none hwire] at h
      cases h
  | some wire =>
      rw [query_of_ofText?_eq_some hwire] at h
      cases h
      exact ⟨wire, rfl, rfl⟩

theorem alias?_eq_none_of_hidden {name : String} (h : c.Hidden (makeKey name .cname)) :
    c.alias? name = none := by
  unfold alias?
  cases hfound : c.found? (makeKey name .cname) with
  | none => rfl
  | some e => simp [values_eq_nil_of_hidden h hfound]

/-- What the first part of a step decides to ask is well directed. -/
theorem wellDirected_of_prepare_eq_ask
    (h : prepare draw port current s c = (.ask zone server query, d)) :
    WellDirected d port current server query := by
  obtain ⟨hvacant, hhidden⟩ := vacant_of_prepare_eq_ask h
  obtain ⟨b, hb⟩ := prepareQuery_of_prepare_eq_ask h
  obtain ⟨hzoneFor, hknown, ⟨ip, hchosen, rfl⟩, hquery⟩ := of_prepareQuery_eq_ask hb
  obtain ⟨wire, hwire, rfl⟩ := wording_of_query hquery
  have hzone : (d.zoneFor current.name).1 = zone := by
    have hsweeps := sweeps_zoneFor b current.name
    rw [hzoneFor] at hsweeps
    rw [hsweeps.zoneFor_fst_eq, hzoneFor]
  have hblank : ∀ x ∈ (Name.canonical current.name).toList, Text.isBlank x = false :=
    fun x hx => DomainName.isBlank_eq_false_of_ofChars? hwire hx
  obtain ⟨nearest, servers, hnearest, hat⟩ := nearest_zoneFor hblank (hzone ▸ hknown)
  obtain ⟨key, ips, hreachable, haddress⟩ := exists_of_chooseServer hchosen
  rw [← hzone, hat] at hreachable
  obtain ⟨name, hname, -, hips⟩ := exists_of_mem_reachable_zoneAt hreachable
  obtain ⟨hmem, hv4⟩ := mem_addressPool.1 haddress
  refine ⟨hvacant, fun htype => alias?_eq_none_of_hidden (hhidden htype),
    ⟨nearest, servers, hnearest, name, hname, (hips ip).1 hmem, ?_⟩, rfl, wire, hwire, rfl⟩
  rintro ⟨other, hother, hother4⟩
  exact hv4 ⟨other, (hips other).2 hother, hother4⟩

end Search

namespace Iterative

open CachingResolver.Search

/-- The exchange that a step makes, if it makes one. -/
def asked? (env : Environment σ) (port : UInt16) (current : Question) (s : Search) (w : World σ) :
    Option (Endpoint × Message) :=
  match (prepare (env.draw w.outside).1 port current s w.cache).1 with
  | .ask _ server query => some (server, query)
  | _ => none

/-- The cache after the first part of a step, as the query goes out. -/
def consulted (env : Environment σ) (port : UInt16) (current : Question) (s : Search)
    (w : World σ) : Cache :=
  (prepare (env.draw w.outside).1 port current s w.cache).2

/-- All exchanges of a lookup, in their order. -/
def exchanges (r : Iterative) (env : Environment σ) (q : Question) (w : World σ) :
    List (Endpoint × Message) :=
  (r.lookup env.recorded q (w.recorded [])).2.outside.2

variable {env : Environment σ} {port : UInt16} {current : Question} {s : Search} {w : World σ}

theorem wellDirected_of_asked? {server : Endpoint} {query : Message}
    (h : asked? env port current s w = some (server, query)) :
    WellDirected (consulted env port current s w) port current server query := by
  unfold asked? at h
  unfold consulted
  cases hprepare : prepare (env.draw w.outside).1 port current s w.cache with
  | mk preparation cache =>
      rw [hprepare] at h
      cases preparation with
      | settled t => cases h
      | impossible failure => cases h
      | ask zone asked message =>
          cases h
          exact wellDirected_of_prepare_eq_ask hprepare

/-- With the record, a step does the same and adds its exchange. -/
theorem step_recorded (env : Environment σ) (port : UInt16) (current : Question) (s : Search)
    (w : World σ) (record : List (Endpoint × Message)) :
    step env.recorded port current s (w.recorded record) =
      ((step env port current s w).1,
        (step env port current s w).2.recorded
          (record ++ (asked? env port current s w).toList)) := by
  unfold step asked?
  dsimp only [Environment.recorded, World.recorded]
  cases prepare (env.draw w.outside).1 port current s w.cache with
  | mk preparation cache =>
      cases preparation with
      | settled t => simp
      | impossible failure => simp
      | ask zone server query => rfl

/-- With the record, a run does the same, and each exchange that it adds is the one of a step. -/
theorem run_recorded (env : Environment σ) (port : UInt16) (q : Question) (budget : Nat) (s : Search)
    (w : World σ) (record : List (Endpoint × Message)) :
    ∃ added, run env.recorded port q budget s (w.recorded record) =
        ((run env port q budget s w).1, (run env port q budget s w).2.recorded (record ++ added)) ∧
      ∀ x ∈ added, ∃ current t v, Visits env port budget s w current t v ∧
        asked? env port current t v = some x := by
  induction budget generalizing s w record with
  | zero => exact ⟨[], by rw [List.append_nil]; rfl, by simp⟩
  | succ budget ih =>
      unfold run
      cases hpop : s.pending.pop? with
      | none => exact ⟨[], by rw [List.append_nil], by simp⟩
      | some top =>
          obtain ⟨current, pending⟩ := top
          have hfirst : ∀ x ∈ (asked? env port current { s with pending } w).toList,
              ∃ current t v, Visits env port (budget + 1) s w current t v ∧
                asked? env port current t v = some x := by
            intro x hx
            exact ⟨current, { s with pending }, w, .here hpop, Option.mem_toList.1 hx⟩
          dsimp only
          rw [step_recorded]
          cases hstep : step env port current { s with pending } w with
          | mk result w' =>
              cases result with
              | error failure => exact ⟨_, rfl, hfirst⟩
              | ok s' =>
                  obtain ⟨added, hrun, hadded⟩ := ih s' w' (record ++
                    (asked? env port current { s with pending } w).toList)
                  refine ⟨(asked? env port current { s with pending } w).toList ++ added, ?_, ?_⟩
                  · dsimp only
                    rw [hrun, List.append_assoc]
                  · intro x hx
                    rcases List.mem_append.1 hx with hx | hx
                    · exact hfirst x hx
                    · obtain ⟨later, t, v, hvisits, hasked⟩ := hadded x hx
                      exact ⟨later, t, v, .later hpop hstep hvisits, hasked⟩

theorem lookup_recorded (r : Iterative) (env : Environment σ) (q : Question) (w : World σ) :
    r.lookup env.recorded q (w.recorded []) =
        ((r.lookup env q w).1, (r.lookup env q w).2.recorded (r.exchanges env q w)) ∧
      ∀ x ∈ r.exchanges env q w, ∃ current t v,
        Visits env r.port r.maxSteps (.start q) w current t v ∧
          asked? env r.port current t v = some x := by
  obtain ⟨added, hrun, hadded⟩ := run_recorded env r.port q r.maxSteps (.start q) w []
  rw [List.nil_append] at hrun
  have hlookup : r.lookup env.recorded q (w.recorded []) =
      ((r.lookup env q w).1, (r.lookup env q w).2.recorded added) := by
    unfold lookup
    rw [hrun]
    cases run env r.port q r.maxSteps (.start q) w with
    | mk result v =>
        cases result with
        | error failure => rfl
        | ok t => dsimp only [World.recorded]
  have hexchanges : r.exchanges env q w = added := by
    unfold exchanges
    rw [hlookup]
    rfl
  rw [hexchanges]
  exact ⟨hlookup, hadded⟩

/-- Whatever the outside does and draws, recording the exchanges of a lookup changes nothing else,
and each of them is made by a step on a pending question.  It is well directed for the cache of that
moment, which differs from the cache before the step by reads only. -/
theorem exchanges_well_directed (r : Iterative) (env : Environment σ) (q : Question) (w : World σ) :
    r.lookup env.recorded q (w.recorded []) =
        ((r.lookup env q w).1, (r.lookup env q w).2.recorded (r.exchanges env q w)) ∧
      ∀ server query, (server, query) ∈ r.exchanges env q w →
        ∃ current t v, Visits env r.port r.maxSteps (.start q) w current t v ∧
          asked? env r.port current t v = some (server, query) ∧
          Sweeps v.cache (consulted env r.port current t v) ∧
          WellDirected (consulted env r.port current t v) r.port current server query := by
  obtain ⟨hlookup, hexchanges⟩ := lookup_recorded r env q w
  refine ⟨hlookup, fun server query hmem => ?_⟩
  obtain ⟨current, t, v, hvisits, hasked⟩ := hexchanges (server, query) hmem
  exact ⟨current, t, v, hvisits, hasked,
    sweeps_prepare (env.draw v.outside).1 r.port current t v.cache,
    wellDirected_of_asked? hasked⟩

/-- A cache with a root server and a server of `com.` that has addresses of both families. -/
def dualStackCache : Cache :=
  ((rootCache.set "com." .ns ["ns.nic.com."] 300 0).set
    "ns.nic.com." .aaaa ["2001:db8::1"] 300 0).set "ns.nic.com." .a ["192.0.2.1"] 300 0

/-- The first query for `www.example.com.` goes to the IPv4 address of the server of `com.`. -/
def dualStackExchange : Endpoint × Message where
  fst := { ip := .v4 ⟨192, 0, 2, 1⟩, port := 53 }
  snd :=
    { questions := [{ name := .ofTexts ["www", "example", "com"], type := RecordType.a.number }] }

/-- The theorem at work: the exchange is made by the lookup, and it is well directed for the cache
that the step which makes it has read. -/
theorem dualStackExchange_well_directed :
    dualStackExchange ∈
        exchanges {} (.responding unwritableReferral) exampleQuestion ⟨dualStackCache, ()⟩ ∧
      ∃ current t v, Visits (.responding unwritableReferral) 53 64 (.start exampleQuestion)
          ⟨dualStackCache, ()⟩ current t v ∧
        asked? (.responding unwritableReferral) 53 current t v = some dualStackExchange ∧
        Sweeps v.cache (consulted (.responding unwritableReferral) 53 current t v) ∧
        WellDirected (consulted (.responding unwritableReferral) 53 current t v) 53 current
          dualStackExchange.1 dualStackExchange.2 := by
  have hmem : dualStackExchange ∈
      exchanges {} (.responding unwritableReferral) exampleQuestion ⟨dualStackCache, ()⟩ := by
    decide +kernel
  exact ⟨hmem, (exchanges_well_directed {} (.responding unwritableReferral) exampleQuestion
    ⟨dualStackCache, ()⟩).2 _ _ hmem⟩

end Iterative

end CachingResolver
