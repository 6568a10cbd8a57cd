import CachingResolver.Proofs.Cache.Storing

/-!
# A record set and its glue in the cache

What storing records with glue leaves behind, told from the records.  `glueOwners` lists the owners
and types of the additional records that count as glue, each once, and `setsWithGlue_cons` says that
the sets stored are that of the first record and, for each of these, that of all additional records
with this owner and type.  Since their keys differ, each key holds the set of its own records
afterwards (`storeWithGlue_exact`).
-/

namespace CachingResolver.Cache

/-- The owners and types of the glue for the name servers in `records`, in order of appearance. -/
def glueOwners (records additionals : List ResourceRecord) : List (String × RecordType) :=
  match records with
  | [] => []
  | first :: _ =>
    if first.type = .ns then
      ((additionals.filter fun r => r.type.isAddress &&
        (RecordSet.gather first.name first.type records).values.contains r.name).map
          fun r => (r.name, r.type)).eraseDups
    else []

section

variable {first : ResourceRecord} {more records additionals : List ResourceRecord} {server : String}
  {type : RecordType}

theorem nodup_glueOwners : (glueOwners records additionals).Nodup := by
  unfold glueOwners
  split
  · exact List.nodup_nil
  · split
    · exact nodup_eraseDups _
    · exact List.nodup_nil

/-- Glue belongs to the name servers, if it is name servers that are stored. -/
theorem mem_glueOwners : (server, type) ∈ glueOwners (first :: more) additionals ↔
    first.type = .ns ∧ type.isAddress = true ∧
      (∃ r ∈ first :: more, r.name = first.name ∧ r.type = first.type ∧ r.value = server) ∧
      ∃ r ∈ additionals, r.name = server ∧ r.type = type := by
  unfold glueOwners
  dsimp only
  split
  · rename_i hns
    simp only [List.mem_eraseDups, List.mem_map, List.mem_filter, Bool.and_eq_true,
      List.contains_iff_mem, RecordSet.mem_values_gather, Prod.mk.injEq]
    constructor
    · rintro ⟨r, ⟨hr, haddress, hserver⟩, rfl, rfl⟩
      exact ⟨hns, haddress, hserver, r, hr, rfl, rfl⟩
    · rintro ⟨-, haddress, hserver, r, hr, rfl, rfl⟩
      exact ⟨r, ⟨hr, haddress, hserver⟩, rfl, rfl⟩
  · rename_i hns
    simp [hns]

/-- The sets that are stored, each gathered from all records of its section. -/
theorem setsWithGlue_cons : setsWithGlue (first :: more) additionals =
    RecordSet.gather first.name first.type (first :: more) ::
      (glueOwners (first :: more) additionals).map fun p =>
        RecordSet.gather p.1 p.2 additionals := by
  unfold setsWithGlue glueOwners
  dsimp only
  split
  · rename_i hns
    unfold glue RecordSet.groups
    congr 1
    refine List.map_congr_left ?_
    rintro ⟨name, type⟩ hp
    obtain ⟨r, hr, hpair⟩ := List.mem_map.1 (List.mem_eraseDups.1 hp)
    obtain ⟨rfl, rfl⟩ := Prod.mk.inj hpair
    -- What the filter leaves out has another owner or type.
    have hcounts := (List.mem_filter.1 hr).2
    refine RecordSet.gather_congr (recordsFor_filter fun s _ hname htype => ?_)
    rwa [hname, htype]
  · rfl

theorem storeWithGlue_fst (c : Cache) (rttMs : UInt32) :
    (c.storeWithGlue records additionals rttMs).1 = (glueOwners records additionals).length := by
  cases records with
  | nil => rfl
  | cons first more =>
      unfold storeWithGlue glueOwners
      dsimp only [RecordSet.gather]
      split
      · unfold glue RecordSet.groups
        rw [List.length_map]
      · rfl

end

/-- For any cache, any records with a first one and any additional records, whose owners are
canonical as those of all records are that `ResourceRecord.ofClass` makes.  The key of the first
record holds the record set of all records with its owner and type.  If these are name servers, then
for each of them, and for each type of address of which an additional record of that name has one,
the key of the two holds the record set of all such additional records, and the result is how many
keys these are; otherwise it is zero and there are none.  All other keys keep their record sets, and
no failure is added or removed.  Without records nothing happens. -/
theorem storeWithGlue_exact (c : Cache) (first : ResourceRecord)
    (more additionals : List ResourceRecord) (rttMs : UInt32)
    (h : ∀ r ∈ additionals, r.IsCanonical) :
    let records := first :: more
    let count := (c.storeWithGlue records additionals rttMs).1
    let after := (c.storeWithGlue records additionals rttMs).2
    StoresRecords c after rttMs records first.name first.type ∧
    (∃ owners : List (String × RecordType), owners.Nodup ∧ count = owners.length ∧
      (∀ server type, (server, type) ∈ owners ↔
        first.type = .ns ∧ type.isAddress = true ∧
          (∃ r ∈ records, r.name = first.name ∧ r.type = first.type ∧ r.value = server) ∧
          ∃ r ∈ additionals, r.name = server ∧ r.type = type) ∧
      (∀ p ∈ owners, StoresRecords c after rttMs additionals p.1 p.2) ∧
      ∀ key, makeKey first.name first.type ≠ key → (∀ p ∈ owners, makeKey p.1 p.2 ≠ key) →
        after.positive.get? key = c.positive.get? key) ∧
    after.negative = c.negative ∧
    c.storeWithGlue [] additionals rttMs = (0, c) := by
  dsimp only
  have hnodup : ((setsWithGlue (first :: more) additionals).map RecordSet.key).Nodup :=
    nodup_keys_setsWithGlue h
  rw [storeWithGlue_snd]
  rw [setsWithGlue_cons] at hnodup ⊢
  refine ⟨c.storesRecords_of_mem rttMs hnodup List.mem_cons_self ?_, ⟨_, nodup_glueOwners,
    storeWithGlue_fst c rttMs, fun server type => mem_glueOwners, fun p hp => ?_,
    fun key hfirst hglue => ?_⟩, storeAll_negative c rttMs _, rfl⟩
  · exact List.ne_nil_of_mem (mem_recordsFor.2 ⟨List.mem_cons_self, rfl, rfl⟩)
  · obtain ⟨server, type⟩ := p
    obtain ⟨-, -, -, r, hr, hname, htype⟩ := mem_glueOwners.1 hp
    exact c.storesRecords_of_mem rttMs hnodup (List.mem_cons_of_mem _ (List.mem_map_of_mem hp))
      (List.ne_nil_of_mem (mem_recordsFor.2 ⟨hr, hname, htype⟩))
  · refine c.get?_storeAll_of_forall_ne rttMs (List.forall_mem_cons.2 ⟨hfirst, fun s hs => ?_⟩)
    obtain ⟨p, hp, rfl⟩ := List.mem_map.1 hs
    exact hglue p hp

/-- A referral to two name servers, with an address of its zone between them. -/
def serverSection : List ResourceRecord :=
  [.make "example.com." 7200 .ns "ns1.example.com.", .make "example.com." 300 .a "192.0.2.1",
    .make "example.com." 300 .ns "ns2.example.com."]

/-- Addresses of the first of the two servers, one of them twice, and one of another name. -/
def addressSection : List ResourceRecord :=
  [.make "ns1.example.com." 900 .a "203.0.113.10", .make "www.example.com." 5 .a "203.0.113.80",
    .make "ns1.example.com." 60 .a "203.0.113.11", .make "NS1.example.com" 3000 .a "203.0.113.10"]

/-- The theorem at work: one set of glue is stored, with the least of its three times to live. -/
theorem storeWithGlue_exact_sections :
    (∀ r ∈ addressSection, r.IsCanonical) ∧
      ∃ c : Cache, (({} : Cache).storeWithGlue serverSection addressSection 12) = (1, c) ∧
        c.positive.get? (makeKey "ns1.example.com." .a) = some
          { values := ["203.0.113.10", "203.0.113.11"], ttl := 60, rttMs := 12 } := by
  have hcanonical : ∀ r ∈ addressSection, r.IsCanonical := by
    unfold addressSection
    simp only [List.forall_mem_cons]
    exact ⟨ResourceRecord.isCanonical_ofClass .., ResourceRecord.isCanonical_ofClass ..,
      ResourceRecord.isCanonical_ofClass .., ResourceRecord.isCanonical_ofClass .., nofun⟩
  obtain ⟨-, ⟨owners, -, hcount, howners, hstores, -⟩, -⟩ := storeWithGlue_exact {}
    (.make "example.com." 7200 .ns "ns1.example.com.") serverSection.tail addressSection 12
    hcanonical
  have hserver : ("ns1.example.com.", RecordType.a) ∈ owners := by
    refine (howners _ _).2 ⟨by decide, by decide, ?_, ?_⟩
    · exact ⟨_, List.mem_cons_self, rfl, rfl, by decide +kernel⟩
    · exact ⟨_, List.mem_cons_self, by decide +kernel, by decide⟩
  obtain ⟨least, hleast, hstored⟩ := hstores _ hserver
  obtain rfl : least = 60 := Option.some.inj (hleast.symm.trans (by decide +kernel))
  refine ⟨hcanonical, _, Prod.ext (by decide +kernel) rfl, hstored.trans ?_⟩
  decide +kernel

end CachingResolver.Cache
