import CachingResolver.Proofs.Cache.Lookups

/-!
# The search for the enclosing zone

What the search for the enclosing zone of a name finds, in terms of lookups: it finds the zone of
the first name, from the given one upwards, for which a lookup answers with name servers
(`firstZone_of_firstServed`), with these servers, and for each of them the distinct addresses that
the cache answers (`addressesOf_zoneAt`).  And all that it does to the cache is what the lookups of
`consulted` do, one after the other (`firstCachedZone_snd`).
-/

namespace CachingResolver.Cache

/-- A lookup of the name servers of `zone` answers with those of `servers`, and there are some. -/
structure Serves (c : Cache) (zone : String) (servers : Entry) : Prop where
  answers : (c.lookup zone .ns).1 = some ⟨servers, false⟩
  hasServers : servers.values ≠ []

/-- Of some names, `zone` is the first whose name servers the cache answers. -/
def FirstServed (c : Cache) (names : List String) (zone : String) (servers : Entry) : Prop :=
  ∃ before after, names = before ++ zone :: after ∧ (∀ n ∈ before, ∀ e, ¬ c.Serves n e) ∧
    c.Serves zone servers

/-- The servers of a zone have the distinct addresses that the cache answers for them. -/
def Filled (c : Cache) (z : Zone) : Prop :=
  ∀ server ips, z.servers.get? (Name.canonical server) = some ips →
    ips = (c.addressesFor server).eraseDups

/-- The questions that the search for the first of some zones looks up. -/
def consulted (c : Cache) : List String → List Question
  | [] => []
  | name :: names =>
    ⟨name, .ns⟩ ::
      match c.found? (makeKey name .ns) with
      | none => c.consulted names
      | some e =>
        if e.values.isEmpty then c.consulted names
        else e.values.flatMap fun server => [⟨server, .a⟩, ⟨server, .aaaa⟩]

section

variable {c d : Cache} {z : Zone} {name zone server : String} {names : List String} {e : Entry}

theorem serves_iff : c.Serves zone e ↔ c.found? (makeKey zone .ns) = some e ∧ e.values ≠ [] := by
  rw [← lookup_eq_some_false_iff]
  exact ⟨fun h => ⟨h.answers, h.hasServers⟩, fun h => ⟨h.1, h.2⟩⟩

theorem not_serves_iff : (∀ e, ¬ c.Serves zone e) ↔
    ∀ e, c.found? (makeKey zone .ns) = some e → e.values = [] := by
  simp only [serves_iff, not_and, not_not]

/-! ### Which zone is found -/

theorem zoneAt_ne_unknown : c.zoneAt name e ≠ .unknown := by
  intro h
  have hname := c.name_zoneAt name e
  rw [h] at hname
  exact Name.canonical_ne_empty name hname.symm

theorem firstZone_of_firstServed (h : c.FirstServed names zone e) :
    c.firstZone names = c.zoneAt zone e := by
  obtain ⟨before, after, rfl, hbefore, hserves⟩ := h
  induction before with
  | nil => exact firstZone_cons_of_found after (serves_iff.1 hserves).1 hserves.hasServers
  | cons n before ih =>
      rw [List.cons_append,
        firstZone_cons_of_empty _ (not_serves_iff.1 (hbefore n List.mem_cons_self))]
      exact ih fun m hm => hbefore m (List.mem_cons_of_mem _ hm)

theorem firstZone_eq_unknown_iff :
    c.firstZone names = .unknown ↔ ∀ n ∈ names, ∀ e, ¬ c.Serves n e := by
  induction names with
  | nil => exact iff_of_true rfl (by simp)
  | cons name names ih =>
      rw [List.forall_mem_cons]
      by_cases h : ∀ e, c.found? (makeKey name .ns) = some e → e.values = []
      · rw [firstZone_cons_of_empty names h, ih]
        exact ⟨fun hrest => ⟨not_serves_iff.2 h, hrest⟩, fun hall => hall.2⟩
      · refine iff_of_false ?_ fun hall => h (not_serves_iff.1 hall.1)
        push Not at h
        obtain ⟨e, hfound, hne⟩ := h
        rw [firstZone_cons_of_found names hfound hne]
        exact zoneAt_ne_unknown

/-! ### The addresses of its servers -/

theorem filled_make (c : Cache) (name : String) : c.Filled (Zone.make name) := by
  intro server ips hget
  rw [Zone.make, Table.get?_empty] at hget
  cases hget

theorem filled_withServer (h : c.Filled z) (server : String) :
    c.Filled (c.withServer z server) := by
  intro other ips hget
  by_cases hname : Name.canonical server = Name.canonical other
  · rw [← hname] at hget
    -- A server that is there before has its addresses, and they are not added again.
    have hknown : ∃ known, (z.addServer server).servers.get? (Name.canonical server) =
        some known.eraseDups ∧
          (known ++ c.addressesFor server).eraseDups = (c.addressesFor server).eraseDups := by
      rw [Zone.get?_addServer, if_pos rfl]
      cases hold : z.servers.get? (Name.canonical server) with
      | none => exact ⟨[], rfl, rfl⟩
      | some old =>
          rw [h server old hold]
          exact ⟨c.addressesFor server, rfl, eraseDups_append_self _⟩
    obtain ⟨known, hserver, hsame⟩ := hknown
    have hv4 := Zone.get?_addAddresses hserver (c.addressesIn server .a)
    have hboth := Zone.get?_addAddresses hv4 (c.addressesIn server .aaaa)
    rw [List.append_assoc] at hboth
    rw [← addressesFor_congr c hname, ← hsame]
    exact Option.some.inj (hget.symm.trans hboth)
  · unfold withServer at hget
    rw [Zone.get?_addAddresses_of_ne hname, Zone.get?_addAddresses_of_ne hname,
      Zone.get?_addServer, if_neg hname] at hget
    exact h other ips hget

theorem filled_zoneAt (c : Cache) (name : String) (e : Entry) : c.Filled (c.zoneAt name e) := by
  have hfold (servers : List String) {z : Zone} (h : c.Filled z) :
      c.Filled (servers.foldl c.withServer z) := by
    induction servers generalizing z with
    | nil => exact h
    | cons server servers ih => exact ih (filled_withServer h server)
  exact hfold _ (c.filled_make name)

theorem addressesOf_zoneAt (h : server ∈ e.values) :
    (c.zoneAt name e).addressesOf server = (c.addressesFor server).eraseDups := by
  have hserver : Name.canonical server ∈ (c.zoneAt name e).serverNames :=
    mem_serverNames_zoneAt.2 ⟨server, h, rfl⟩
  obtain ⟨ips, hips⟩ := Option.isSome_iff_exists.1 (Zone.mem_serverNames.1 hserver)
  unfold Zone.addressesOf
  rw [hips, Option.getD_some]
  exact c.filled_zoneAt name e server ips hips

/-! ### What the search does to the cache -/

theorem Sweeps.consulted_eq (h : Sweeps c d) (names : List String) :
    d.consulted names = c.consulted names := by
  induction names with
  | nil => rfl
  | cons name names ih =>
      unfold consulted
      rw [h.found?_eq, ih]

theorem readServer_snd (state : Zone × Cache) (server : String) :
    (readServer state server).2 =
      Operation.run state.2 (Operation.lookups [⟨server, .a⟩, ⟨server, .aaaa⟩]) := by
  unfold readServer
  dsimp only
  rw [readAddresses_snd, readAddresses_snd]
  rfl

theorem foldl_readServer_snd (servers : List String) (state : Zone × Cache) :
    (servers.foldl readServer state).2 = Operation.run state.2 (Operation.lookups
      (servers.flatMap fun server => [⟨server, .a⟩, ⟨server, .aaaa⟩])) := by
  induction servers generalizing state with
  | nil => rfl
  | cons server servers ih =>
      rw [List.foldl_cons, ih, readServer_snd, List.flatMap_cons, run_lookups_append]

/-- The search does to the cache what the lookups of the questions do that it consults. -/
theorem firstCachedZone_snd (c : Cache) (names : List String) :
    (c.firstCachedZone names).2 = Operation.run c (Operation.lookups (c.consulted names)) := by
  induction names generalizing c with
  | nil => rfl
  | cons name names ih =>
      have hsweeps := sweeps_lookup c name .ns
      have hrest : ((c.lookup name .ns).2.firstCachedZone names).2 =
          Operation.run c (Operation.lookups (⟨name, .ns⟩ :: c.consulted names)) := by
        rw [ih, hsweeps.consulted_eq, run_lookups_cons]
      unfold firstCachedZone consulted
      dsimp only
      rw [getPositive?_fst, getPositive?_snd]
      cases c.found? (makeKey name .ns) with
      | none => exact hrest
      | some e =>
          dsimp only
          split
          · exact hrest
          · rw [foldl_readServer_snd, run_lookups_cons]

theorem zoneFor_snd (c : Cache) (name : String) : (c.zoneFor name).2 =
    Operation.run c (Operation.lookups (c.consulted (Name.ancestors (Name.canonical name)))) :=
  firstCachedZone_snd c _

end

/-- For any cache and any name: the zone found is that of the first name, from the given one up to
the root, for which a lookup answers with name servers.  Its name and its servers are these, in
canonical form, and the addresses of each are the distinct ones among those that the cache answers
for it under `A` and then under `AAAA`, in order.  The zone is unknown exactly when no name up to
the root has name servers in the cache.  The search removes keys that have expired, of those that it
has looked up, and changes nothing else in the tables, and a second one right after it finds the
same zone. -/
theorem zoneFor_exact (c : Cache) (name : String) :
    let above := Name.ancestors (Name.canonical name)
    let found := (c.zoneFor name).1
    let after := (c.zoneFor name).2
    (∀ zone servers, c.FirstServed above zone servers →
      found.name = Name.canonical zone ∧
        (∀ server, server ∈ found.serverNames ↔
          ∃ value ∈ servers.values, Name.canonical value = server) ∧
        ∀ value ∈ servers.values, found.addressesOf value =
          (c.addressesIn value .a ++ c.addressesIn value .aaaa).eraseDups) ∧
    (Name.root ∈ above ∧
      (found = .unknown ↔ ∀ zone ∈ above, ∀ servers, ¬ c.Serves zone servers)) ∧
    (Sweeps c after ∧ ∀ key, (∀ q ∈ c.consulted above, makeKey q.name q.type ≠ key) →
      after.negative.get? key = c.negative.get? key ∧
        after.positive.get? key = c.positive.get? key) ∧
    (after.zoneFor name).1 = found := by
  dsimp only
  have hsweeps := sweeps_zoneFor c name
  refine ⟨fun zone servers hfirst => ?_, ⟨Name.root_mem_ancestors name, ?_⟩,
    ⟨hsweeps, fun key hkey => ?_⟩, hsweeps.zoneFor_fst_eq name⟩
  · rw [zoneFor_fst, firstZone_of_firstServed hfirst]
    exact ⟨c.name_zoneAt zone servers, fun server => mem_serverNames_zoneAt,
      fun value hvalue => addressesOf_zoneAt hvalue⟩
  · rw [zoneFor_fst]
    exact firstZone_eq_unknown_iff
  · rw [zoneFor_snd]
    exact get?_run_lookups_of_ne hkey

/-- The root and a zone below it, whose first server has addresses of both kinds and a value that is
none. -/
def nestedZones : Cache :=
  Operation.run {} [.set "." .ns ["a.root.example."] 300 0,
    .set "example.com" .ns ["NS1.example.com", "ns2.example.net."] 300 0,
    .set "ns1.example.com" .aaaa ["2001:db8::10"] 300 0,
    .set "ns1.example.com" .a ["203.0.113.10", "unassigned"] 300 0]

/-- The theorem at work: the nearest zone is found, with all addresses of its first server. -/
theorem zoneFor_exact_nestedZones :
    let servers : Entry := { values := ["NS1.example.com", "ns2.example.net."], ttl := 300 }
    nestedZones.FirstServed (Name.ancestors (Name.canonical "www.Example.com")) "example.com."
        servers ∧
      (nestedZones.zoneFor "www.Example.com").1.name = "example.com." ∧
      (nestedZones.zoneFor "www.Example.com").1.addressesOf "NS1.example.com" =
        [.v4 ⟨203, 0, 113, 10⟩, .v6 ⟨[0x2001, 0xdb8, 0, 0, 0, 0, 0, 0x10], rfl⟩] := by
  have hfirst : nestedZones.FirstServed (Name.ancestors (Name.canonical "www.Example.com"))
      "example.com." { values := ["NS1.example.com", "ns2.example.net."], ttl := 300 } := by
    refine ⟨["www.example.com."], ["com.", "."], by decide +kernel, fun n hn e hserves => ?_,
      ⟨by decide +kernel, by decide⟩⟩
    obtain rfl := List.mem_singleton.1 hn
    have hnone : (nestedZones.lookup "www.example.com." .ns).1 = none := by decide +kernel
    exact absurd (hserves.answers.symm.trans hnone) (by simp)
  obtain ⟨hfound, -⟩ := zoneFor_exact nestedZones "www.Example.com"
  obtain ⟨hname, -, haddresses⟩ := hfound _ _ hfirst
  have hcanonical : Name.canonical "example.com." = "example.com." := by decide +kernel
  refine ⟨hfirst, hname.trans hcanonical, (haddresses _ List.mem_cons_self).trans ?_⟩
  decide +kernel

end CachingResolver.Cache
