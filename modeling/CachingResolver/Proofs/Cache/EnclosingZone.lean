import CachingResolver.Cache.EnclosingZone
import CachingResolver.Proofs.Cache.Key
import CachingResolver.Proofs.Cache.Reading
import CachingResolver.Proofs.Zone
import Mathlib.Tactic.Push

/-!
# The enclosing zone without the effects of reading

The search for the enclosing zone reads the cache as it goes, and reads remove expired keys.
`firstZone` is the same search on what the keys answer, with no effect, and finds the same zone
(`firstCachedZone_fst`).  The reads leave every name before the zone found hidden
(`hidden_of_firstCachedZone`).
-/

namespace CachingResolver.Cache

/-- The addresses that the cache answers for a server under one type. -/
def addressesIn (c : Cache) (server : String) (type : RecordType) : List IpAddress :=
  match c.found? (makeKey server type) with
  | some e => e.values.filterMap IpAddress.ofText?
  | none => []

/-- The addresses that the cache answers for a server. -/
def addressesFor (c : Cache) (server : String) : List IpAddress :=
  c.addressesIn server .a ++ c.addressesIn server .aaaa

/-- A zone with one more server and the addresses that the cache answers for it. -/
def withServer (c : Cache) (zone : Zone) (server : String) : Zone :=
  ((zone.addServer server).addAddresses server (c.addressesIn server .a)).addAddresses server
    (c.addressesIn server .aaaa)

/-- The zone of a name with the servers of an entry. -/
def zoneAt (c : Cache) (name : String) (e : Entry) : Zone :=
  e.values.foldl c.withServer (Zone.make name)

/-- The zone of the first name whose name servers the cache answers. -/
def firstZone (c : Cache) : List String → Zone
  | [] => .unknown
  | name :: names =>
    match c.found? (makeKey name .ns) with
    | some e => if e.values.isEmpty then c.firstZone names else c.zoneAt name e
    | none => c.firstZone names

section Sweeping

variable {c d : Cache}

theorem Sweeps.addressesIn_eq (h : Sweeps c d) (server : String) (type : RecordType) :
    d.addressesIn server type = c.addressesIn server type := by
  unfold addressesIn
  rw [h.found?_eq]

theorem Sweeps.withServer_eq (h : Sweeps c d) : d.withServer = c.withServer := by
  funext zone server
  unfold withServer
  rw [h.addressesIn_eq, h.addressesIn_eq]

theorem Sweeps.firstZone_eq (h : Sweeps c d) (names : List String) :
    d.firstZone names = c.firstZone names := by
  induction names with
  | nil => rfl
  | cons name names ih =>
      unfold firstZone zoneAt
      rw [h.found?_eq, h.withServer_eq, ih]

end Sweeping

/-! ### The search with its effects -/

theorem readAddresses_fst (c : Cache) (server : String) (type : RecordType) :
    (c.readAddresses server type).1 = c.addressesIn server type := by
  unfold readAddresses addressesIn
  dsimp only
  rw [getPositive?_fst]
  cases c.found? (makeKey server type) <;> rfl

theorem readAddresses_snd (c : Cache) (server : String) (type : RecordType) :
    (c.readAddresses server type).2 = (c.lookup server type).2 := by
  unfold readAddresses
  dsimp only
  split <;> rfl

theorem sweeps_readAddresses (c : Cache) (server : String) (type : RecordType) :
    Sweeps c (c.readAddresses server type).2 := by
  rw [readAddresses_snd]
  exact sweeps_lookup c server type

theorem readServer_fst (c : Cache) (zone : Zone) (server : String) :
    (readServer (zone, c) server).1 = c.withServer zone server := by
  unfold readServer withServer
  dsimp only
  rw [readAddresses_fst, readAddresses_fst,
    (sweeps_readAddresses c server .a).addressesIn_eq server .aaaa]

theorem sweeps_readServer (c : Cache) (zone : Zone) (server : String) :
    Sweeps c (readServer (zone, c) server).2 :=
  (sweeps_readAddresses c server .a).trans (sweeps_readAddresses _ server .aaaa)

theorem foldl_readServer (servers : List String) (zone : Zone) (c : Cache) :
    (servers.foldl readServer (zone, c)).1 = servers.foldl c.withServer zone ∧
      Sweeps c (servers.foldl readServer (zone, c)).2 := by
  induction servers generalizing zone c with
  | nil => exact ⟨rfl, Sweeps.refl c⟩
  | cons server servers ih =>
      -- The other servers are read from a swept cache, which answers like `c`.
      have hsweeps := sweeps_readServer c zone server
      have hfst := readServer_fst c zone server
      obtain ⟨ihfst, ihsweeps⟩ :=
        ih (readServer (zone, c) server).1 (readServer (zone, c) server).2
      refine ⟨?_, hsweeps.trans ihsweeps⟩
      rw [List.foldl_cons, List.foldl_cons]
      refine ihfst.trans ?_
      rw [hsweeps.withServer_eq, hfst]

theorem sweeps_firstCachedZone (c : Cache) (names : List String) :
    Sweeps c (c.firstCachedZone names).2 := by
  induction names generalizing c with
  | nil => exact Sweeps.refl c
  | cons name names ih =>
      have hread := sweeps_getPositive? c name .ns
      unfold firstCachedZone
      dsimp only
      split
      · exact hread.trans (ih _)
      · split
        · exact hread.trans (ih _)
        · exact hread.trans (foldl_readServer _ _ _).2

/-- The search finds the zone that the answers of the cache make up. -/
theorem firstCachedZone_fst (c : Cache) (names : List String) :
    (c.firstCachedZone names).1 = c.firstZone names := by
  induction names generalizing c with
  | nil => rfl
  | cons name names ih =>
      have hread := sweeps_getPositive? c name .ns
      unfold firstCachedZone firstZone
      dsimp only
      rw [getPositive?_fst]
      cases c.found? (makeKey name .ns) with
      | none => exact (ih _).trans (hread.firstZone_eq names)
      | some e =>
          dsimp only
          split
          · exact (ih _).trans (hread.firstZone_eq names)
          · rw [(foldl_readServer _ _ _).1, hread.withServer_eq]
            rfl

theorem zoneFor_fst (c : Cache) (name : String) :
    (c.zoneFor name).1 = c.firstZone (Name.ancestors (Name.canonical name)) :=
  firstCachedZone_fst c _

theorem sweeps_zoneFor (c : Cache) (name : String) : Sweeps c (c.zoneFor name).2 :=
  sweeps_firstCachedZone c _

theorem Sweeps.zoneFor_fst_eq {c d : Cache} (h : Sweeps c d) (name : String) :
    (d.zoneFor name).1 = (c.zoneFor name).1 := by
  rw [zoneFor_fst, zoneFor_fst, h.firstZone_eq]

theorem firstCachedZone_cons_of_empty {c : Cache} {name : String} (names : List String)
    (h : ∀ e, c.found? (makeKey name .ns) = some e → e.values = []) :
    c.firstCachedZone (name :: names) = (c.getPositive? name .ns).2.firstCachedZone names := by
  rw [firstCachedZone]
  dsimp only
  rw [getPositive?_fst]
  cases hf : c.found? (makeKey name .ns) with
  | none => rfl
  | some e => simp [h e hf]

theorem firstZone_cons_of_empty {c : Cache} {name : String} (names : List String)
    (h : ∀ e, c.found? (makeKey name .ns) = some e → e.values = []) :
    c.firstZone (name :: names) = c.firstZone names := by
  rw [firstZone]
  cases hf : c.found? (makeKey name .ns) with
  | none => rfl
  | some e => simp [h e hf]

theorem firstZone_cons_of_found {c : Cache} {name : String} {e : Entry} (names : List String)
    (hf : c.found? (makeKey name .ns) = some e) (hne : e.values ≠ []) :
    c.firstZone (name :: names) = c.zoneAt name e := by
  rw [firstZone, hf]
  simp [hne]

/-- The search ends at the first name whose name servers the cache answers, or at the unknown zone;
all names before are hidden from then on. -/
theorem hidden_of_firstCachedZone (c : Cache) (names : List String) :
    (c.firstCachedZone names).1 = .unknown ∨
      ∃ pre name post e, names = pre ++ name :: post ∧ e.values ≠ [] ∧
        (c.firstCachedZone names).1 = c.zoneAt name e ∧
        ∀ n ∈ pre, (c.firstCachedZone names).2.Hidden (makeKey n .ns) := by
  induction names generalizing c with
  | nil => exact .inl rfl
  | cons name names ih =>
      by_cases h : ∀ e, c.found? (makeKey name .ns) = some e → e.values = []
      · -- The read hides `name`, and what comes after only sweeps.
        have hread := sweeps_getPositive? c name .ns
        rw [firstCachedZone_cons_of_empty names h]
        rcases ih (c.getPositive? name .ns).2 with hnone | ⟨pre, n, post, e, rfl, hne, hzone, hpre⟩
        · exact .inl hnone
        · refine .inr ⟨name :: pre, n, post, e, rfl, hne, ?_, ?_⟩
          · rw [hzone, zoneAt, zoneAt, hread.withServer_eq]
          · intro m hm
            rcases List.mem_cons.1 hm with rfl | hm
            · exact (sweeps_firstCachedZone _ _).hidden (hidden_getPositive? h)
            · exact hpre m hm
      · push Not at h
        obtain ⟨e, hf, hne⟩ := h
        refine .inr ⟨[], name, names, e, rfl, hne, ?_, by simp⟩
        rw [firstCachedZone_fst, firstZone_cons_of_found names hf hne]

/-! ### Which zone is found -/

/-- When all names before `name` are hidden or share its key, the zone of `name` is found. -/
theorem firstZone_of_hidden {c : Cache} {name : String} {e : Entry} {pre : List String}
    (post : List String)
    (hpre : ∀ n ∈ pre, c.Hidden (makeKey n .ns) ∨ makeKey n .ns = makeKey name .ns)
    (hf : c.found? (makeKey name .ns) = some e) (hne : e.values ≠ []) :
    ∃ n, Name.canonical n = Name.canonical name ∧
      c.firstZone (pre ++ name :: post) = c.zoneAt n e := by
  induction pre with
  | nil => exact ⟨name, rfl, firstZone_cons_of_found post hf hne⟩
  | cons n pre ih =>
      rw [List.cons_append]
      rcases hpre n List.mem_cons_self with hhidden | hkey
      · rw [firstZone_cons_of_empty _ fun f hf' => values_eq_nil_of_hidden hhidden hf']
        exact ih fun m hm => hpre m (List.mem_cons_of_mem _ hm)
      · -- `n` is another spelling of `name`, which the search meets first.
        refine ⟨n, (makeKey_inj.1 hkey).1, firstZone_cons_of_found _ ?_ hne⟩
        rw [hkey]
        exact hf

/-- The zone found is that of the first name whose name servers the cache answers. -/
theorem firstZone_split (c : Cache) (names : List String) :
    c.firstZone names = .unknown ∨
      ∃ pre name post e, names = pre ++ name :: post ∧
        (∀ n ∈ pre, ∀ f, c.found? (makeKey n .ns) = some f → f.values = []) ∧
        c.found? (makeKey name .ns) = some e ∧ e.values ≠ [] ∧
        c.firstZone names = c.zoneAt name e := by
  induction names with
  | nil => exact .inl rfl
  | cons name names ih =>
      by_cases h : ∀ e, c.found? (makeKey name .ns) = some e → e.values = []
      · rw [firstZone_cons_of_empty names h]
        rcases ih with hnone | ⟨pre, n, post, e, rfl, hpre, hrest⟩
        · exact .inl hnone
        · exact .inr ⟨name :: pre, n, post, e, rfl, List.forall_mem_cons.2 ⟨h, hpre⟩, hrest⟩
      · push Not at h
        obtain ⟨e, hf, hne⟩ := h
        exact .inr ⟨[], name, names, e, rfl, by simp, hf, hne, firstZone_cons_of_found names hf hne⟩

theorem firstZone_cases (c : Cache) (names : List String) :
    c.firstZone names = .unknown ∨
      ∃ name ∈ names, ∃ e, c.found? (makeKey name .ns) = some e ∧ e.values ≠ [] ∧
        c.firstZone names = c.zoneAt name e := by
  refine (c.firstZone_split names).imp_right ?_
  rintro ⟨pre, name, post, e, rfl, -, hrest⟩
  exact ⟨name, List.mem_append_right _ List.mem_cons_self, e, hrest⟩

/-- The nearest zone at or above a name whose name servers the cache answers, and their entry. -/
structure Nearest (c : Cache) (name zone : String) (servers : Entry) : Prop where
  canonical_eq : Name.canonical zone = zone
  encloses : Name.isSubdomain (Name.canonical name) zone = true
  answers : c.found? (makeKey zone .ns) = some servers
  hasServers : servers.values ≠ []
  -- Every other such zone is further up.
  below : ∀ other e, Name.isSubdomain (Name.canonical name) (Name.canonical other) = true →
    c.found? (makeKey other .ns) = some e → e.values ≠ [] →
      Name.isSubdomain zone (Name.canonical other) = true

/-- The enclosing zone that is found for a name without blanks is the nearest one. -/
theorem nearest_zoneFor {c : Cache} {name : String}
    (hblank : ∀ x ∈ (Name.canonical name).toList, Text.isBlank x = false)
    (hknown : (c.zoneFor name).1 ≠ .unknown) :
    ∃ zone e, c.Nearest name zone e ∧ (c.zoneFor name).1 = c.zoneAt zone e := by
  rw [zoneFor_fst] at hknown ⊢
  obtain hunknown | ⟨pre, zone, post, e, hsplit, hpre, hfound, hne, hzone⟩ :=
    c.firstZone_split (Name.ancestors (Name.canonical name))
  · exact absurd hunknown hknown
  · have hmem : zone ∈ Name.ancestors (Name.canonical name) := by simp [hsplit]
    have hcanonical := Name.canonical_of_mem_ancestors hblank hmem
    have hin := Name.isSubdomain_of_mem_ancestors hblank hmem
    rw [hcanonical] at hin
    refine ⟨zone, e, ⟨hcanonical, hin, hfound, hne, ?_⟩, hzone⟩
    intro other f habove hother hvalues
    have hchain := Name.pairwise_ancestors (Name.canonical name)
    have hmem := Name.mem_ancestors_of_isSubdomain habove
    rw [hsplit] at hchain hmem
    rcases List.mem_append.1 hmem with hbefore | hmem
    · -- No name before the zone found answers with a name server.
      have hempty := hpre _ hbefore f
      rw [makeKey_canonical] at hempty
      exact absurd (hempty hother) hvalues
    · rcases List.mem_cons.1 hmem with heq | hafter
      · rw [heq]
        simp [Name.isSubdomain, Name.isSubdomainChars]
      · exact (List.pairwise_cons.1 (List.pairwise_append.1 hchain).2.1).1 _ hafter

/-! ### What the zone found holds -/

section ZoneAt

variable {c : Cache} {zone : Zone} {server other : String} {ip : IpAddress}

@[simp] theorem name_withServer : (c.withServer zone server).name = zone.name := by
  simp [withServer]

theorem mem_serverNames_withServer :
    other ∈ (c.withServer zone server).serverNames ↔
      other = Name.canonical server ∨ other ∈ zone.serverNames := by
  simp [withServer, Zone.mem_serverNames_addServer]

theorem addressesFor_congr (c : Cache) (h : Name.canonical server = Name.canonical other) :
    c.addressesFor server = c.addressesFor other := by
  unfold addressesFor addressesIn makeKey
  rw [h]

theorem mem_addressesFor {type : RecordType} (htype : type.isAddress = true)
    (h : ip ∈ c.addressesIn server type) : ip ∈ c.addressesFor server := by
  cases type with
  | a => exact List.mem_append_left _ h
  | aaaa => exact List.mem_append_right _ h
  | _ => exact absurd htype (by decide)

theorem mem_addressesOf_withServer :
    ip ∈ (c.withServer zone server).addressesOf other ↔
      ip ∈ zone.addressesOf other ∨
        Name.canonical server = Name.canonical other ∧ ip ∈ c.addressesFor server := by
  have hserver := zone.hasServer_addServer server
  unfold withServer addressesFor
  rw [Zone.mem_addressesOf_addAddresses, Zone.mem_addressesOf_addAddresses,
    Zone.hasServer_addAddresses, Zone.addressesOf_addServer, List.mem_append]
  constructor
  · rintro ((h | ⟨-, hname, h⟩) | ⟨-, hname, h⟩)
    · exact .inl h
    · exact .inr ⟨hname, .inl h⟩
    · exact .inr ⟨hname, .inr h⟩
  · rintro (h | ⟨hname, h | h⟩)
    · exact .inl (.inl h)
    · exact .inl (.inr ⟨hserver, hname, h⟩)
    · exact .inr ⟨hserver, hname, h⟩

theorem name_foldl_withServer (servers : List String) (zone : Zone) :
    (servers.foldl c.withServer zone).name = zone.name := by
  induction servers generalizing zone with
  | nil => rfl
  | cons server servers ih => rw [List.foldl_cons, ih, name_withServer]

theorem mem_serverNames_foldl_withServer (servers : List String) (zone : Zone) :
    other ∈ (servers.foldl c.withServer zone).serverNames ↔
      (∃ server ∈ servers, Name.canonical server = other) ∨ other ∈ zone.serverNames := by
  induction servers generalizing zone with
  | nil => simp
  | cons server servers ih =>
      rw [List.foldl_cons, ih, mem_serverNames_withServer]
      constructor
      · rintro (⟨s, hs, hname⟩ | rfl | hzone)
        · exact .inl ⟨s, List.mem_cons_of_mem _ hs, hname⟩
        · exact .inl ⟨server, List.mem_cons_self, rfl⟩
        · exact .inr hzone
      · rintro (⟨s, hs, hname⟩ | hzone)
        · rcases List.mem_cons.1 hs with rfl | hs
          · exact .inr (.inl hname.symm)
          · exact .inl ⟨s, hs, hname⟩
        · exact .inr (.inr hzone)

theorem mem_addressesOf_foldl_withServer (servers : List String) (zone : Zone) :
    ip ∈ (servers.foldl c.withServer zone).addressesOf other ↔
      ip ∈ zone.addressesOf other ∨
        ∃ server ∈ servers, Name.canonical server = Name.canonical other ∧
          ip ∈ c.addressesFor server := by
  induction servers generalizing zone with
  | nil => simp
  | cons server servers ih =>
      rw [List.foldl_cons, ih, mem_addressesOf_withServer]
      simp only [List.mem_cons, exists_eq_or_imp, or_assoc]

theorem name_zoneAt (c : Cache) (name : String) (e : Entry) :
    (c.zoneAt name e).name = Name.canonical name :=
  name_foldl_withServer _ _

/-- The servers of the zone are those of the entry, in canonical form. -/
theorem mem_serverNames_zoneAt {name : String} {e : Entry} :
    other ∈ (c.zoneAt name e).serverNames ↔ ∃ server ∈ e.values, Name.canonical server = other := by
  unfold zoneAt
  rw [mem_serverNames_foldl_withServer, Zone.mem_serverNames]
  simp [Zone.make]

/-- The addresses of a server of the zone are those that the cache answers for it. -/
theorem mem_addressesOf_zoneAt_iff {name : String} {e : Entry} :
    ip ∈ (c.zoneAt name e).addressesOf other ↔
      ∃ server ∈ e.values, Name.canonical server = Name.canonical other ∧
        ip ∈ c.addressesFor server := by
  unfold zoneAt
  rw [mem_addressesOf_foldl_withServer]
  simp [Zone.make, Zone.addressesOf]

theorem mem_addressesOf_zoneAt {name : String} {e : Entry} {type : RecordType}
    (htype : type.isAddress = true) (hserver : server ∈ e.values)
    (h : ip ∈ c.addressesIn server type) : ip ∈ (c.zoneAt name e).addressesOf server :=
  mem_addressesOf_zoneAt_iff.2 ⟨server, hserver, rfl, mem_addressesFor htype h⟩

/-- A server of the zone that can be reached has the addresses that the cache answers for it. -/
theorem exists_of_mem_reachable_zoneAt {name : String} {e : Entry} {ips : List IpAddress}
    (h : (other, ips) ∈ (c.zoneAt name e).reachable) :
    ∃ server ∈ e.values, ips ≠ [] ∧ ∀ ip, ip ∈ ips ↔ ip ∈ c.addressesFor server := by
  obtain ⟨hget, hne⟩ := Zone.mem_reachable_iff.1 h
  obtain ⟨server, hserver, rfl⟩ :=
    mem_serverNames_zoneAt.1 (Zone.mem_serverNames.2 (Option.isSome_of_eq_some hget))
  refine ⟨server, hserver, hne, fun ip => ?_⟩
  have hof : (c.zoneAt name e).addressesOf server = ips := by
    unfold Zone.addressesOf
    rw [hget]
    rfl
  rw [← hof, mem_addressesOf_zoneAt_iff]
  constructor
  · rintro ⟨twin, -, hname, hip⟩
    -- Two spellings of a server share their addresses.
    rwa [← addressesFor_congr c hname]
  · exact fun hip => ⟨server, hserver, rfl, hip⟩

end ZoneAt

end CachingResolver.Cache
