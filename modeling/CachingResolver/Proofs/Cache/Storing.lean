import CachingResolver.Proofs.Cache.Reading
import CachingResolver.Proofs.RecordSet
import CachingResolver.Proofs.Table

/-!
# What storing changes

Every way to store record sets is `storeAll` of some record sets (`storeWithGlue_snd`).  It leaves
failures, clock and settings alone, and of the table of record sets it changes the keys of these
sets only, each of which then holds a fresh entry.  `StoresRecords` says from the records what that
entry is.

`Gains` says that a key has an entry that it did not have before.
-/

namespace CachingResolver

namespace Cache

/-- In `d`, the key of an owner and a type holds the record set of `rs`, as `c` stores it: the
distinct values in order, with the least time to live as far as `c` allows. -/
def StoresRecords (c d : Cache) (rttMs : UInt32) (rs : List ResourceRecord) (name : String)
    (type : RecordType) : Prop :=
  ∃ least, ((recordsFor name type rs).map (·.ttl)).min? = some least ∧
    d.positive.get? (makeKey name type) = some
      { values := ((recordsFor name type rs).map (·.value)).eraseDups
        ttl := min least c.positiveTtl
        rttMs
        storedAt := c.now }

variable (c : Cache) (rttMs : UInt32)

/-! ### One record set -/

def freshEntry (s : RecordSet) : Entry where
  values := s.values
  ttl := c.clampTtl s.ttl
  rttMs := rttMs
  storedAt := c.now

/-- The entry of a record set has the least time to live of the records, as far as it is allowed. -/
theorem exists_freshEntry_gather {name : String} {type : RecordType} {rs : List ResourceRecord}
    (h : recordsFor name type rs ≠ []) :
    ∃ least, ((recordsFor name type rs).map (·.ttl)).min? = some least ∧
      c.freshEntry rttMs (RecordSet.gather name type rs) =
        { values := ((recordsFor name type rs).map (·.value)).eraseDups
          ttl := min least c.positiveTtl
          rttMs
          storedAt := c.now } := by
  obtain ⟨least, hleast⟩ : ∃ least,
      ((recordsFor name type rs).map (·.ttl)).min? = some least := by
    rw [← Option.isSome_iff_exists, List.isSome_min?_iff]
    simpa using h
  refine ⟨least, hleast, ?_⟩
  unfold freshEntry RecordSet.gather
  dsimp only
  rw [hleast]
  rfl

@[simp] theorem store_positive (s : RecordSet) :
    (c.store rttMs s).positive = c.positive.insert s.key (c.freshEntry rttMs s) := rfl

@[simp] theorem store_negative (s : RecordSet) : (c.store rttMs s).negative = c.negative := rfl

@[simp] theorem store_positiveTtl (s : RecordSet) :
    (c.store rttMs s).positiveTtl = c.positiveTtl := rfl

@[simp] theorem store_now (s : RecordSet) : (c.store rttMs s).now = c.now := rfl

/-! ### Several record sets -/

@[simp] theorem storeAll_nil : c.storeAll rttMs [] = c := rfl

@[simp] theorem storeAll_cons (s : RecordSet) (sets : List RecordSet) :
    c.storeAll rttMs (s :: sets) = (c.store rttMs s).storeAll rttMs sets := rfl

@[simp] theorem storeAll_negative (sets : List RecordSet) :
    (c.storeAll rttMs sets).negative = c.negative := by
  induction sets generalizing c with
  | nil => rfl
  | cons s sets ih => rw [storeAll_cons, ih, store_negative]

@[simp] theorem storeAll_now (sets : List RecordSet) : (c.storeAll rttMs sets).now = c.now := by
  induction sets generalizing c with
  | nil => rfl
  | cons s sets ih => rw [storeAll_cons, ih, store_now]

@[simp] theorem storeAll_positiveTtl (sets : List RecordSet) :
    (c.storeAll rttMs sets).positiveTtl = c.positiveTtl := by
  induction sets generalizing c with
  | nil => rfl
  | cons s sets ih => rw [storeAll_cons, ih, store_positiveTtl]

theorem noFailure_storeAll (sets : List RecordSet) {key : String} :
    (c.storeAll rttMs sets).NoFailure key ↔ c.NoFailure key := by
  unfold NoFailure
  rw [storeAll_negative]

theorem storeAll_positive (sets : List RecordSet) :
    (c.storeAll rttMs sets).positive =
      c.positive.insertAll (sets.map fun s => (s.key, c.freshEntry rttMs s)) := by
  induction sets generalizing c with
  | nil => rfl
  | cons s sets ih => rw [storeAll_cons, ih, List.map_cons, Table.insertAll_cons]; rfl

/-- A key of none of the sets is left alone. -/
theorem get?_storeAll_of_forall_ne {sets : List RecordSet} {key : String}
    (h : ∀ s ∈ sets, s.key ≠ key) :
    (c.storeAll rttMs sets).positive.get? key = c.positive.get? key := by
  rw [storeAll_positive]
  refine Table.get?_insertAll_of_forall_ne _ ?_
  intro p hp
  obtain ⟨s, hs, rfl⟩ := List.mem_map.1 hp
  exact h s hs

/-- A key of one of the sets holds one of them, freshly stored. -/
theorem exists_get?_storeAll {sets : List RecordSet} {key : String} (h : ∃ s ∈ sets, s.key = key) :
    ∃ s ∈ sets, s.key = key ∧
      (c.storeAll rttMs sets).positive.get? key = some (c.freshEntry rttMs s) := by
  obtain ⟨s, hs, hkey⟩ := h
  have hmem : (s.key, c.freshEntry rttMs s) ∈ sets.map fun s => (s.key, c.freshEntry rttMs s) :=
    List.mem_map_of_mem hs
  obtain ⟨e, he, hget⟩ := Table.exists_get?_insertAll ⟨_, hmem, hkey⟩
  obtain ⟨t, ht, hpair⟩ := List.mem_map.1 he
  obtain ⟨htkey, rfl⟩ := Prod.mk.inj hpair
  refine ⟨t, ht, htkey, ?_⟩
  rw [storeAll_positive, hget]

/-- Sets with distinct keys are all there afterwards. -/
theorem get?_storeAll_of_mem {sets : List RecordSet} (hnodup : (sets.map RecordSet.key).Nodup)
    {s : RecordSet} (hs : s ∈ sets) :
    (c.storeAll rttMs sets).positive.get? s.key = some (c.freshEntry rttMs s) := by
  obtain ⟨t, ht, hkey, hget⟩ := c.exists_get?_storeAll rttMs ⟨s, hs, rfl⟩
  rwa [List.inj_on_of_nodup_map hnodup ht hs hkey] at hget

/-- Sets with distinct keys are stored as their records have them. -/
theorem storesRecords_of_mem {sets : List RecordSet} {rs : List ResourceRecord} {name : String}
    {type : RecordType} (hnodup : (sets.map RecordSet.key).Nodup)
    (hset : RecordSet.gather name type rs ∈ sets) (hne : recordsFor name type rs ≠ []) :
    StoresRecords c (c.storeAll rttMs sets) rttMs rs name type := by
  obtain ⟨least, hleast, hentry⟩ := c.exists_freshEntry_gather rttMs hne
  have hstored := c.get?_storeAll_of_mem rttMs hnodup hset
  rw [hentry] at hstored
  exact ⟨least, hleast, hstored⟩

/-! ### A record set with its glue -/

/-- The record sets that storing records with glue stores. -/
def setsWithGlue (records additionals : List ResourceRecord) : List RecordSet :=
  match records with
  | [] => []
  | first :: _ =>
    let s := RecordSet.gather first.name first.type records
    s :: if first.type = .ns then glue s additionals else []

theorem storeWithGlue_snd (records additionals : List ResourceRecord) :
    (c.storeWithGlue records additionals rttMs).2 =
      c.storeAll rttMs (setsWithGlue records additionals) := by
  cases records with
  | nil => rfl
  | cons first rest =>
      unfold storeWithGlue setsWithGlue
      dsimp only [RecordSet.gather]
      split <;> rfl

theorem mem_glue {servers s : RecordSet} {additionals : List ResourceRecord} :
    s ∈ glue servers additionals ↔
      ∃ r ∈ additionals, r.type.isAddress = true ∧ r.name ∈ servers.values ∧
        s = RecordSet.gather r.name r.type
          (additionals.filter fun r => r.type.isAddress && servers.values.contains r.name) := by
  unfold glue
  rw [RecordSet.mem_groups]
  simp only [List.mem_filter, Bool.and_eq_true, List.contains_iff_mem]
  constructor
  · rintro ⟨r, ⟨hr, haddress, hname⟩, rfl⟩
    exact ⟨r, hr, haddress, hname, rfl⟩
  · rintro ⟨r, hr, haddress, hname, rfl⟩
    exact ⟨r, ⟨hr, haddress, hname⟩, rfl⟩

/-- A set of name servers and its glue have distinct keys: their types differ. -/
theorem nodup_keys_setsWithGlue {records additionals : List ResourceRecord}
    (h : ∀ r ∈ additionals, r.IsCanonical) :
    ((setsWithGlue records additionals).map RecordSet.key).Nodup := by
  cases records with
  | nil => simp [setsWithGlue]
  | cons first rest =>
      unfold setsWithGlue
      dsimp only
      split
      · rename_i htype
        rw [List.map_cons, List.nodup_cons]
        refine ⟨?_, RecordSet.nodup_keys_groups fun r hr => h r (List.mem_filter.1 hr).1⟩
        intro hmem
        obtain ⟨s, hs, hkey⟩ := List.mem_map.1 hmem
        obtain ⟨r, -, haddress, -, rfl⟩ := mem_glue.1 hs
        have hsame : r.type = first.type := (makeKey_inj.1 hkey).2
        rw [hsame, htype] at haddress
        exact absurd haddress (by decide)
      · simp

/-! ### What a key gains -/

/-- A key has an entry that it did not have before. -/
def Gains (before after : Cache) (key : String) : Prop :=
  (∃ e, after.positive.get? key = some e ∧ before.positive.get? key ≠ some e) ∨
    ∃ e, after.negative.get? key = some e ∧ before.negative.get? key ≠ some e

end Cache

end CachingResolver
