import CachingResolver.Proofs.Cache.Key
import CachingResolver.Proofs.Distinct
import CachingResolver.ResourceRecord

/-!
# Record sets and their keys

The record sets of a list of records have distinct keys, provided that owners are canonical
(`nodup_keys_groups`), and their values are those of the records (`mem_values_gather`).
-/

namespace CachingResolver

namespace ResourceRecord

/-- The owner is in canonical form, as it is in every record that comes from a message. -/
def IsCanonical (r : ResourceRecord) : Prop :=
  Name.canonical r.name = r.name

theorem isCanonical_ofClass (recordClass name : String) (ttl : UInt32) (type : RecordType)
    (value : String) : (ofClass recordClass name ttl type value).IsCanonical :=
  Name.canonical_canonical name

end ResourceRecord

theorem mem_recordsFor {name : String} {type : RecordType} {rs : List ResourceRecord}
    {r : ResourceRecord} :
    r ∈ recordsFor name type rs ↔ r ∈ rs ∧ r.name = name ∧ r.type = type := by
  simp [recordsFor]

/-- Leaving out records of other owners and types changes nothing. -/
theorem recordsFor_filter {name : String} {type : RecordType} {rs : List ResourceRecord}
    {p : ResourceRecord → Bool} (h : ∀ r ∈ rs, r.name = name → r.type = type → p r = true) :
    recordsFor name type (rs.filter p) = recordsFor name type rs := by
  unfold recordsFor
  rw [List.filter_filter]
  refine List.filter_congr fun r hr => ?_
  by_cases hsame : r.name = name ∧ r.type = type
  · simp [h r hr hsame.1 hsame.2]
  · rw [not_and_or] at hsame
    rcases hsame with hne | hne
    · simp [hne]
    · simp [hne]

namespace RecordSet

/-- The key under which the cache stores a record set. -/
def key (s : RecordSet) : String :=
  Cache.makeKey s.name s.type

/-- A record set is determined by the records of its owner and type. -/
theorem gather_congr {name : String} {type : RecordType} {rs ss : List ResourceRecord}
    (h : recordsFor name type rs = recordsFor name type ss) :
    gather name type rs = gather name type ss := by
  unfold gather
  rw [h]

theorem mem_values_gather {name value : String} {type : RecordType} {rs : List ResourceRecord} :
    value ∈ (gather name type rs).values ↔
      ∃ r ∈ rs, r.name = name ∧ r.type = type ∧ r.value = value := by
  simp only [gather, List.mem_eraseDups, List.mem_map, mem_recordsFor]
  constructor
  · rintro ⟨r, ⟨hr, hname, htype⟩, hvalue⟩
    exact ⟨r, hr, hname, htype, hvalue⟩
  · rintro ⟨r, hr, hname, htype, hvalue⟩
    exact ⟨r, ⟨hr, hname, htype⟩, hvalue⟩

/-- The first value is that of the first record. -/
theorem head?_values_gather {name : String} {type : RecordType} {rs more : List ResourceRecord}
    {first : ResourceRecord} (h : recordsFor name type rs = first :: more) :
    (gather name type rs).values.head? = some first.value := by
  show ((recordsFor name type rs).map _).eraseDups.head? = _
  rw [h, head?_eraseDups]
  rfl

theorem values_gather_ne_nil {name : String} {type : RecordType} {rs : List ResourceRecord}
    (h : recordsFor name type rs ≠ []) : (gather name type rs).values ≠ [] := by
  show ((recordsFor name type rs).map _).eraseDups ≠ []
  rw [Ne, eraseDups_eq_nil_iff, List.map_eq_nil_iff]
  exact h

theorem mem_groups {rs : List ResourceRecord} {s : RecordSet} :
    s ∈ groups rs ↔ ∃ r ∈ rs, s = gather r.name r.type rs := by
  simp only [groups, List.mem_map, List.mem_eraseDups, Prod.exists, Prod.mk.injEq]
  constructor
  · rintro ⟨name, type, ⟨r, hr, rfl, rfl⟩, rfl⟩
    exact ⟨r, hr, rfl⟩
  · rintro ⟨r, hr, rfl⟩
    exact ⟨r.name, r.type, ⟨r, hr, rfl, rfl⟩, rfl⟩

/-- The record sets of records with canonical owners have distinct keys. -/
theorem nodup_keys_groups {rs : List ResourceRecord} (h : ∀ r ∈ rs, r.IsCanonical) :
    ((groups rs).map key).Nodup := by
  unfold groups
  rw [List.map_map]
  refine List.Nodup.map_on ?_ (nodup_eraseDups _)
  intro p hp q hq heq
  obtain ⟨r, hr, rfl⟩ := List.mem_map.1 (List.mem_eraseDups.1 hp)
  obtain ⟨t, ht, rfl⟩ := List.mem_map.1 (List.mem_eraseDups.1 hq)
  obtain ⟨hname, htype⟩ := Cache.makeKey_inj.1 heq
  have hr := h r hr
  have ht := h t ht
  unfold ResourceRecord.IsCanonical at hr ht
  simp only [gather, hr, ht] at hname
  exact Prod.ext hname htype

end RecordSet

end CachingResolver
