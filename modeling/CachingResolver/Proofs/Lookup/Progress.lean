import CachingResolver.Proofs.IpAddress
import CachingResolver.Proofs.Lookup.Referral

/-!
# What a referral is good for

A referral makes progress when the enclosing zone of the name, as the cache has it after the step,
is the zone referred to.  All names below that zone were read before without finding name servers,
so it is found first, unless a failure is on record for its own name servers (`zoneFor_after`).
-/

namespace CachingResolver

def IpAddress.recordType : IpAddress → RecordType
  | v4 _ => .a
  | v6 _ => .aaaa

/-- The address that a record of a message carries. -/
def RecordData.address? : RecordData → Option IpAddress
  | a x => some (.v4 x)
  | aaaa x => some (.v6 x)
  | _ => none

theorem IpAddress.isAddress_recordType (ip : IpAddress) : ip.recordType.isAddress = true := by
  cases ip <;> rfl

/-- The record inside the resolver of a record that carries an address. -/
theorem WireRecord.toRecord?_of_address? {r : WireRecord} {ip : IpAddress}
    (h : r.data.address? = some ip) :
    ∃ record, r.toRecord? = some record ∧ record.name = Name.canonical r.owner.text ∧
      record.type = ip.recordType ∧ record.value = ip.text := by
  unfold toRecord?
  cases hdata : r.data with
  | a x =>
      rw [hdata] at h
      obtain rfl := Option.some.inj h
      exact ⟨_, rfl, rfl, rfl, rfl⟩
  | aaaa x =>
      rw [hdata] at h
      obtain rfl := Option.some.inj h
      exact ⟨_, rfl, rfl, rfl, rfl⟩
  | _ =>
      rw [hdata] at h
      cases h

namespace Referral

open CachingResolver.Cache

variable {σ : Type} {env : Environment σ} {port : UInt16} {name : String} {type : RecordType}
  {s : Search} {w : World σ} (r : Referral env port (Question.make name type) s w)

/-- The entry that a record set of the referral is stored as. -/
def entry (g : RecordSet) : Entry :=
  (r.cache.advance r.arrival.elapsed).freshEntry r.arrival.rttMs g

theorem mem_values_servers {server : String} :
    server ∈ (r.entry r.servers).values ↔
      ∃ ns ∈ r.message.referralServers, ns.name = r.target ∧ ns.value = server := by
  show server ∈ r.servers.values ↔ _
  unfold servers
  rw [RecordSet.mem_values_gather]
  constructor
  · rintro ⟨ns, hns, hname, -, hvalue⟩
    exact ⟨ns, hns, hname, hvalue⟩
  · rintro ⟨ns, hns, hname, hvalue⟩
    exact ⟨ns, hns, hname, Message.type_of_mem_referralServers hns, hvalue⟩

/-- What the referral stores answers at once, if no failure is on record for its key. -/
theorem found?_after {g : RecordSet} (hg : g ∈ r.servers :: r.glue) (hne : g.values ≠ [])
    (h : r.after.NoFailure g.key) : r.after.found? g.key = some (r.entry g) := by
  have hnow : r.after.now = (r.entry g).storedAt := by
    rw [r.after_eq, storeAll_now]
    rfl
  have hfrom := Int.le_of_eq (congrArg Int64.toInt hnow.symm)
  refine found?_of_stored h (r.get?_after hg) hne hfrom ?_
  rw [hnow]
  omega

theorem found?_servers (h : r.after.NoFailure (makeKey r.target .ns)) :
    r.after.found? (makeKey r.target .ns) = some (r.entry r.servers) := by
  have hmem : r.first.value ∈ r.servers.values :=
    r.mem_values_servers.2 ⟨r.first, r.first_mem, rfl, rfl⟩
  rw [← r.key_servers] at h ⊢
  exact r.found?_after List.mem_cons_self (List.ne_nil_of_mem hmem) h

/-- Keys of name servers other than those referred to stay as hidden as they were. -/
theorem hidden_after {n : String} (h : r.cache.Hidden (makeKey n .ns)) :
    r.after.Hidden (makeKey n .ns) ∨ makeKey n .ns = makeKey r.target .ns := by
  by_cases hkey : makeKey n .ns = makeKey r.target .ns
  · exact .inr hkey
  · left
    have hother : ∀ g ∈ r.servers :: r.glue, g.key ≠ makeKey n .ns := by
      intro g hg
      rcases List.mem_cons.1 hg with rfl | hg
      · exact Ne.symm hkey
      · -- Glue is of another type.
        obtain ⟨record, -, haddress, -, rfl⟩ := mem_glue.1 hg
        intro hsame
        have htype : record.type = .ns := (makeKey_inj.1 hsame).2
        rw [htype] at haddress
        exact absurd haddress (by decide)
    intro hnone e he
    rw [r.after_eq] at hnone he
    rw [get?_storeAll_of_forall_ne _ _ hother] at he
    have hnone : (r.cache.advance r.arrival.elapsed).NoFailure (makeKey n .ns) :=
      (noFailure_storeAll _ _ _).1 hnone
    exact h hnone e he

/-- Before the zone asked, the names above the one of the question are hidden; the zone referred to
is one of them. -/
theorem exists_hidden_before :
    ∃ pre n post, Name.ancestors (Name.canonical name) = pre ++ n :: post ∧ r.target ∈ pre ∧
      ∀ m ∈ pre, r.cache.Hidden (makeKey m .ns) := by
  obtain ⟨b, -, hzoneFor, hreachable⟩ := Search.zoneFor_of_prepare_eq_ask r.asks
  have hsearch : b.firstCachedZone (Name.ancestors (Name.canonical name)) = (r.zone, r.cache) := by
    have h : b.firstCachedZone (Name.ancestors (Name.canonical (Name.canonical name))) =
        (r.zone, r.cache) := hzoneFor
    rwa [Name.canonical_canonical] at h
  rcases b.hidden_of_firstCachedZone (Name.ancestors (Name.canonical name)) with
    hunknown | ⟨pre, n, post, e, hsplit, -, hzone, hhidden⟩
  · rw [hsearch] at hunknown
    have hzone : r.zone = .unknown := hunknown
    rw [hzone] at hreachable
    exact absurd rfl hreachable
  · rw [hsearch] at hzone hhidden
    have hname : r.zone.name = Name.canonical n := by
      rw [show r.zone = b.zoneAt n e from hzone]
      exact b.name_zoneAt n e
    obtain ⟨hne, hbelow⟩ := r.target_below
    rw [hname] at hne hbelow
    exact ⟨pre, n, post, hsplit,
      Name.mem_before_of_isSubdomain hsplit r.canonical_target r.current_within hbelow hne, hhidden⟩

/-- Without a failure on record for its name servers, the zone referred to is found, with the name
servers of the referral. -/
theorem zoneFor_after (h : r.after.NoFailure (makeKey r.target .ns)) :
    ∃ n, Name.canonical n = r.target ∧
      (r.after.zoneFor name).1 = r.after.zoneAt n (r.entry r.servers) := by
  obtain ⟨pre, n, post, hsplit, hmem, hhidden⟩ := r.exists_hidden_before
  obtain ⟨before, between, rfl⟩ := List.append_of_mem hmem
  have hbefore : ∀ m ∈ before,
      r.after.Hidden (makeKey m .ns) ∨ makeKey m .ns = makeKey r.target .ns :=
    fun m hm => r.hidden_after (hhidden m (List.mem_append_left _ hm))
  have hne : (r.entry r.servers).values ≠ [] :=
    List.ne_nil_of_mem (r.mem_values_servers.2 ⟨r.first, r.first_mem, rfl, rfl⟩)
  obtain ⟨m, hm, hzone⟩ :=
    firstZone_of_hidden (between ++ n :: post) hbefore (r.found?_servers h) hne
  refine ⟨m, hm.trans r.canonical_target, ?_⟩
  rw [zoneFor_fst, hsplit, List.append_assoc, List.cons_append]
  exact hzone

/-- With a failure on record for its name servers, the zone referred to is not found. -/
theorem noFailure_of_zoneFor_after (h : (r.after.zoneFor name).1.name = r.target) :
    r.after.NoFailure (makeKey r.target .ns) := by
  rw [zoneFor_fst] at h
  rcases r.after.firstZone_cases (Name.ancestors (Name.canonical name)) with
    hunknown | ⟨n, -, e, hfound, -, hzone⟩
  · rw [hunknown] at h
    rw [← r.canonical_target] at h
    exact absurd h.symm (Name.canonical_ne_empty _)
  · rw [hzone, name_zoneAt] at h
    rw [← h, makeKey_canonical]
    exact (found?_eq_some_iff.1 hfound).1

/-- Glue that the referral carries for one of its servers is among the addresses that the cache
answers for this server, without a failure on record for its key. -/
theorem mem_addressesIn_after {g : WireRecord} {ip : IpAddress} (hg : g ∈ r.message.additionals)
    (hip : g.data.address? = some ip)
    (hserver : Name.canonical g.owner.text ∈ (r.entry r.servers).values)
    (h : r.after.NoFailure (makeKey g.owner.text ip.recordType)) :
    ip ∈ r.after.addressesIn g.owner.text ip.recordType := by
  obtain ⟨record, hrecord, hname, htype, hvalue⟩ := WireRecord.toRecord?_of_address? hip
  have hmem : record ∈ r.message.additionalRecords := List.mem_filterMap.2 ⟨g, hg, hrecord⟩
  have haddress : record.type.isAddress = true := htype ▸ ip.isAddress_recordType
  have hname' : record.name ∈ r.servers.values := hname ▸ hserver
  -- The record set of the record is stored as glue, and holds its value.
  let accepted := r.message.additionalRecords.filter fun g =>
    g.type.isAddress && r.servers.values.contains g.name
  have haccepted : record ∈ accepted :=
    List.mem_filter.2 ⟨hmem, by simp [haddress, hname']⟩
  have hglue : RecordSet.gather record.name record.type accepted ∈ r.servers :: r.glue :=
    List.mem_cons_of_mem _ (mem_glue.2 ⟨record, hmem, haddress, hname', rfl⟩)
  have hmemValue : record.value ∈ (RecordSet.gather record.name record.type accepted).values :=
    RecordSet.mem_values_gather.2 ⟨record, haccepted, rfl, rfl, rfl⟩
  have hkey : (RecordSet.gather record.name record.type accepted).key =
      makeKey g.owner.text ip.recordType := by
    show makeKey record.name record.type = _
    rw [hname, htype, makeKey_canonical]
  rw [← hkey] at h
  have hfound := r.found?_after hglue (List.ne_nil_of_mem hmemValue) h
  unfold addressesIn
  rw [← hkey, hfound]
  refine List.mem_filterMap.2 ⟨record.value, hmemValue, ?_⟩
  rw [hvalue]
  exact ip.ofText?_text

theorem mem_serverNames_after (h : r.after.NoFailure (makeKey r.target .ns)) {server : String} :
    server ∈ (r.after.zoneFor name).1.serverNames ↔ server ∈ (r.entry r.servers).values := by
  obtain ⟨n, -, hzone⟩ := r.zoneFor_after h
  -- The names that the referral gives are in canonical form already.
  have hcanonical : ∀ value ∈ (r.entry r.servers).values, Name.canonical value = value := by
    intro value hvalue
    obtain ⟨ns, hns, -, rfl⟩ := r.mem_values_servers.1 hvalue
    exact Message.canonical_value_of_mem_referralServers hns
  rw [hzone, mem_serverNames_zoneAt]
  constructor
  · rintro ⟨value, hvalue, rfl⟩
    rwa [hcanonical value hvalue]
  · intro hserver
    exact ⟨server, hserver, hcanonical server hserver⟩

theorem mem_addressesOf_after (h : r.after.NoFailure (makeKey r.target .ns)) {g : WireRecord}
    {ip : IpAddress} (hg : g ∈ r.message.additionals) (hip : g.data.address? = some ip)
    (hserver : Name.canonical g.owner.text ∈ (r.after.zoneFor name).1.serverNames)
    (hglue : r.after.NoFailure (makeKey g.owner.text ip.recordType)) :
    ip ∈ (r.after.zoneFor name).1.addressesOf g.owner.text := by
  obtain ⟨n, -, hzone⟩ := r.zoneFor_after h
  have hvalue := (r.mem_serverNames_after h).1 hserver
  have hin : ip ∈ r.after.addressesIn (Name.canonical g.owner.text) ip.recordType := by
    have hin := r.mem_addressesIn_after hg hip hvalue hglue
    unfold addressesIn at hin ⊢
    rwa [makeKey_canonical]
  have hof : ip ∈ (r.after.zoneAt n (r.entry r.servers)).addressesOf
      (Name.canonical g.owner.text) :=
    mem_addressesOf_zoneAt ip.isAddress_recordType hvalue hin
  rw [hzone]
  unfold Zone.addressesOf at hof ⊢
  rwa [Name.canonical_canonical] at hof

/-- Right after a referral has been followed, the enclosing zone of the name is the zone referred
to, strictly below the zone asked, exactly when no failure is on record for its name servers, live
or not.  Then its servers are those of the referral, and every address that the response gives for
one of them is among its addresses, unless a failure is on record for the address. -/
theorem zoneFor_after_iff :
    (r.target ≠ r.zone.name ∧ Name.isSubdomain r.target r.zone.name = true) ∧
    ((r.after.zoneFor name).1.name = r.target ↔ r.after.NoFailure (makeKey r.target .ns)) ∧
    (r.after.NoFailure (makeKey r.target .ns) →
      (∀ server, server ∈ (r.after.zoneFor name).1.serverNames ↔
        ∃ ns ∈ r.message.referralServers, ns.name = r.target ∧ ns.value = server) ∧
      ∀ g ∈ r.message.additionals, ∀ ip, g.data.address? = some ip →
        Name.canonical g.owner.text ∈ (r.after.zoneFor name).1.serverNames →
        r.after.NoFailure (makeKey g.owner.text ip.recordType) →
        ip ∈ (r.after.zoneFor name).1.addressesOf g.owner.text) := by
  refine ⟨r.target_below, ⟨r.noFailure_of_zoneFor_after, fun h => ?_⟩,
    fun h => ⟨fun server => ?_, ?_⟩⟩
  · obtain ⟨n, hn, hzone⟩ := r.zoneFor_after h
    rw [hzone, name_zoneAt, hn]
  · rw [r.mem_serverNames_after h, r.mem_values_servers]
  · intro g hg ip hip hserver hglue
    exact r.mem_addressesOf_after h hg hip hserver hglue

/-! ### A referral with an effect and one without -/

/-- A root server refers to the servers of `example.com.` and gives their addresses. -/
def exampleReferral : Message :=
  { isResponse := true
    authorities :=
      [{ owner := .ofTexts ["example", "com"], ttl := 3600
         data := .ns (.ofTexts ["ns", "example", "com"]) }]
    additionals :=
      [{ owner := .ofTexts ["ns", "example", "com"], ttl := 300, data := .a ⟨203, 0, 113, 10⟩ },
       { owner := .ofTexts ["ns", "example", "com"], ttl := 300
         data := .aaaa ⟨[0x2001, 0xdb8, 0, 0, 0, 0, 0, 0x10], rfl⟩ }] }

/-- The referral is followed when a server of the root is asked. -/
theorem exists_exampleReferral {c : Cache} (h : (Search.prepare {} 53
      (Question.make "www.example.com." .a) { pending := {} } c).1.zoneName? = some ".") :
    ∃ r : Referral (.responding exampleReferral) 53 (Question.make "www.example.com." .a)
        { pending := {} } ⟨c, ()⟩,
      r.message = exampleReferral ∧ r.target = "example.com." := by
  obtain ⟨zone, server, query, cache, hasks, hzone⟩ := Preparation.exists_ask_of_zoneName? h
  have hdescends : Search.descends zone (Question.make "www.example.com." .a).name "example.com." =
      true := by
    unfold Search.descends
    rw [hzone]
    decide +kernel
  let r : Referral (.responding exampleReferral) 53 (Question.make "www.example.com." .a)
      { pending := {} } ⟨c, ()⟩ :=
    { zone, server, query, cache
      message := exampleReferral
      first := ⟨"example.com.", 3600, "IN", .ns, "ns.example.com."⟩
      rest := []
      asks := hasks
      responds := rfl
      refers := by decide +kernel
      servers_eq := by decide +kernel
      descends := hdescends }
  exact ⟨r, rfl, rfl⟩

/-- A cache with a root server. -/
def servedCache : Cache :=
  (({} : Cache).set "." .ns ["a.root-servers.net."] 300 0).set
    "a.root-servers.net." .a ["198.51.100.1"] 300 0

/-- The theorem at work: after the referral the zone is `example.com.`, with its server and both
addresses of it. -/
theorem zoneFor_after_exampleReferral :
    ∃ r : Referral (.responding exampleReferral) 53 (Question.make "www.example.com." .a)
        { pending := {} } ⟨servedCache, ()⟩,
      r.after.NoFailure (makeKey r.target .ns) ∧
      (r.after.zoneFor "www.example.com.").1.name = "example.com." ∧
      "ns.example.com." ∈ (r.after.zoneFor "www.example.com.").1.serverNames ∧
      ∀ ip ∈ [IpAddress.v4 ⟨203, 0, 113, 10⟩,
          .v6 ⟨[0x2001, 0xdb8, 0, 0, 0, 0, 0, 0x10], rfl⟩],
        ip ∈ (r.after.zoneFor "www.example.com.").1.addressesOf "ns.example.com." := by
  obtain ⟨r, hmessage, htarget⟩ := exists_exampleReferral (c := servedCache) (by decide +kernel)
  have hempty : (Iterative.step (.responding exampleReferral) 53
      (Question.make "www.example.com." .a) { pending := {} }
      ⟨servedCache, ()⟩).2.cache.negative.entries = [] := by decide +kernel
  have hnone : ∀ key, r.after.NoFailure key := fun key e he => by
    have hmem := Table.mem_entries_of_get? he
    rw [r.after_def, hempty] at hmem
    exact absurd hmem List.not_mem_nil
  obtain ⟨-, hname, hservers⟩ := r.zoneFor_after_iff
  obtain ⟨hnames, haddresses⟩ := hservers (hnone _)
  have hserver : "ns.example.com." ∈ (r.after.zoneFor "www.example.com.").1.serverNames := by
    rw [hnames, hmessage, htarget]
    decide +kernel
  have hglue : ∀ ip ∈ [IpAddress.v4 ⟨203, 0, 113, 10⟩,
      .v6 ⟨[0x2001, 0xdb8, 0, 0, 0, 0, 0, 0x10], rfl⟩],
      ∃ g ∈ exampleReferral.additionals, g.data.address? = some ip ∧
        g.owner.text = "ns.example.com." := by decide +kernel
  refine ⟨r, hnone _, (hname.2 (hnone _)).trans htarget, hserver, fun ip hip => ?_⟩
  obtain ⟨g, hg, haddress, howner⟩ := hglue ip hip
  have hcanonical : Name.canonical "ns.example.com." = "ns.example.com." := by decide +kernel
  rw [← howner]
  rw [← hmessage] at hg
  refine haddresses g hg ip haddress ?_ (hnone _)
  rwa [howner, hcanonical]

/-- A cache with a root server, and a failure on record for the name servers of `example.com.`. -/
def failedCache : Cache :=
  servedCache.setNegative "example.com." .ns "refused"

/-- With the failure on record the referral has no effect: the enclosing zone is still the root. -/
theorem hidden_by_failure :
    ¬ ∀ (env : Environment Unit) (port : UInt16) (name : String) (type : RecordType) (s : Search)
        (w : World Unit) (r : Referral env port (Question.make name type) s w),
        (r.after.zoneFor name).1.name = r.target := by
  intro hclaim
  obtain ⟨r, -, htarget⟩ := exists_exampleReferral (c := failedCache) (by decide +kernel)
  have hafter : ((Iterative.step (.responding exampleReferral) 53
      (Question.make "www.example.com." .a) { pending := {} } ⟨failedCache, ()⟩).2.cache.zoneFor
      "www.example.com.").1.name = "." := by decide +kernel
  have hzone : (r.after.zoneFor "www.example.com.").1.name = "example.com." :=
    (hclaim _ _ _ _ _ _ r).trans htarget
  rw [r.after_def, hafter] at hzone
  exact absurd hzone (by decide)

end Referral

end CachingResolver
