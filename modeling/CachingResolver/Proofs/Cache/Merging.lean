import CachingResolver.Cache.Basic
import CachingResolver.Proofs.Cache.Age
import CachingResolver.Proofs.Distinct
import Mathlib.Data.List.Induction

/-!
# Values merged under one key

Values are merged one at a time under one key, at times that never go back.  A merge *opens* an
entry when its key has none, or one that is older than its time to live (`Opens`).  Then its value
is the only one of the entry (`mergedEntry_of_get?_eq_none`, `mergedEntry_of_isExpired`); otherwise
it comes after the values that are there, unless it is one of them (`mergedEntry_of_live`).  Either
way the entry gets the time to live and the time of the merge.

Over a run, the entry holds the distinct values merged since it was last opened
(`exists_lastOpens`).  These merges come no earlier than any that opens an entry
(`LastOpens.suffix`), so a value from before is gone unless it is merged again.  `mergeAll_exact`
puts this together with what stays as it was.

`Opens` compares integers.  The words in which ages are computed agree with it because the times
start at zero or later (`opens_iff_isExpired`).
-/

namespace CachingResolver.Cache

/-- A value that is merged under the key of a name and a type, and when. -/
structure Merge where
  time : Int64
  name : String
  type : RecordType
  ttl : UInt32
  value : String

def Merge.key (m : Merge) : String :=
  makeKey m.name m.type

/-- Let the time of a merge come, and merge its value. -/
def merge (c : Cache) (m : Merge) : Cache :=
  (c.advance (m.time - c.now)).addValue m.name m.type m.ttl m.value

def mergeAll (c : Cache) (ms : List Merge) : Cache :=
  ms.foldl merge c

/-- A merge finds nothing under its key, or an entry that is older than its time to live. -/
def Opens (c : Cache) (m : Merge) : Prop :=
  ∀ e, c.positive.get? m.key = some e → (e.ttl.toNat : Int) < e.elapsed m.time

/-- Of some merges in turn, `opener` is the last that opens an entry, and `since` come after it. -/
def LastOpens (c : Cache) (ms : List Merge) (opener : Merge) (since : List Merge) : Prop :=
  ∃ before, ms = before ++ opener :: since ∧ (c.mergeAll before).Opens opener ∧
    ∀ middle m after, since = middle ++ m :: after →
      ¬ (c.mergeAll (before ++ opener :: middle)).Opens m

/-- The entry that a merge leaves under its key. -/
def mergedEntry (c : Cache) (m : Merge) : Entry :=
  let old := (c.positive.get? m.key).getD .vacant
  let kept := if old.isExpired m.time then { old with values := [] } else old
  { kept.addValue m.value with ttl := min m.ttl c.positiveTtl, storedAt := m.time }

variable {c : Cache} {m last opener : Merge} {ms done since : List Merge} {key : String} {e : Entry}

/-! ### One merge -/

theorem merge_eq (c : Cache) (m : Merge) :
    c.merge m =
      { c with
        now := m.time
        positive := c.positive.insert m.key (c.mergedEntry m)
        metrics := { c.metrics with insertions := c.metrics.insertions + 1 } } := by
  have hnow : c.now + (m.time - c.now) = m.time := by
    rw [Int64.add_comm, Int64.sub_add_cancel]
  show (c.advance (m.time - c.now)).addValue m.name m.type m.ttl m.value = _
  unfold advance
  rw [hnow]
  rfl

@[simp] theorem positiveTtl_merge (c : Cache) (m : Merge) :
    (c.merge m).positiveTtl = c.positiveTtl := rfl

@[simp] theorem negative_merge (c : Cache) (m : Merge) : (c.merge m).negative = c.negative := rfl

theorem get?_merge (c : Cache) (m : Merge) (key : String) :
    (c.merge m).positive.get? key =
      if m.key = key then some (c.mergedEntry m) else c.positive.get? key := by
  rw [merge_eq]
  exact Table.get?_insert _ _ _ _

/-- Over the integers an entry is too old exactly when it has expired, provided that its stamp lies
between zero and the time of the merge. -/
theorem opens_iff_isExpired (he : c.positive.get? m.key = some e) (hzero : 0 ≤ e.storedAt)
    (hpast : e.storedAt ≤ m.time) : c.Opens m ↔ e.isExpired m.time = true := by
  have hlow := Int64.le_iff_toInt_le.1 hzero
  have hhigh := Int64.le_iff_toInt_le.1 hpast
  have hlt := m.time.toInt_lt
  have hspans : e.Spans m.time := by
    rw [Int64.toInt_zero] at hlow
    constructor <;> simp only [Entry.elapsed] <;> omega
  rw [(Entry.ages_of_spans hspans).isExpired_iff]
  simp [Opens, he]

theorem opens_of_get?_eq_none (h : c.positive.get? m.key = none) : c.Opens m := by
  simp [Opens, h]

/-- The first merge under a key leaves its value alone there. -/
theorem mergedEntry_of_get?_eq_none (h : c.positive.get? m.key = none) :
    c.mergedEntry m =
      { values := [m.value], ttl := min m.ttl c.positiveTtl, storedAt := m.time } := by
  -- The vacant entry has no values to drop, whether it counts as expired or not.
  have hkept : (if Entry.vacant.isExpired m.time then { Entry.vacant with values := [] }
      else Entry.vacant) = Entry.vacant := ite_self _
  simp only [mergedEntry, h, Option.getD_none, hkept]
  rfl

/-- A merge that finds an expired entry leaves its value alone there. -/
theorem mergedEntry_of_isExpired (he : c.positive.get? m.key = some e)
    (h : e.isExpired m.time = true) :
    c.mergedEntry m =
      { e with values := [m.value], ttl := min m.ttl c.positiveTtl, storedAt := m.time } := by
  simp [mergedEntry, he, h, Entry.addValue]

/-- A merge that finds a live entry puts its value after those of the entry, unless it is among
them. -/
theorem mergedEntry_of_live (he : c.positive.get? m.key = some e) (h : e.isExpired m.time = false) :
    c.mergedEntry m =
      { e with
        values := if e.values.contains m.value then e.values else e.values ++ [m.value]
        ttl := min m.ttl c.positiveTtl
        storedAt := m.time } := by
  by_cases hmem : m.value ∈ e.values <;> simp [mergedEntry, he, h, Entry.addValue, hmem]

/-! ### Several merges -/

@[simp] theorem mergeAll_nil (c : Cache) : c.mergeAll [] = c := rfl

@[simp] theorem mergeAll_concat (c : Cache) (ms : List Merge) (m : Merge) :
    c.mergeAll (ms ++ [m]) = (c.mergeAll ms).merge m := by
  simp [mergeAll]

@[simp] theorem positiveTtl_mergeAll (c : Cache) (ms : List Merge) :
    (c.mergeAll ms).positiveTtl = c.positiveTtl := by
  induction ms using List.reverseRecOn with
  | nil => rfl
  | append_singleton ms m ih => simp [ih]

@[simp] theorem negative_mergeAll (c : Cache) (ms : List Merge) :
    (c.mergeAll ms).negative = c.negative := by
  induction ms using List.reverseRecOn with
  | nil => rfl
  | append_singleton ms m ih => simp [ih]

/-- Merging under one key leaves the others alone. -/
theorem get?_mergeAll_of_ne {other : String} (hkey : ∀ m ∈ ms, m.key = key) (hother : other ≠ key) :
    (c.mergeAll ms).positive.get? other = c.positive.get? other := by
  induction ms using List.reverseRecOn with
  | nil => rfl
  | append_singleton ms m ih =>
      have hm : m.key ≠ other := by
        rw [hkey m (by simp)]
        exact hother.symm
      rw [mergeAll_concat, get?_merge, if_neg hm]
      exact ih fun n hn => hkey n (by simp [hn])

theorem lastOpens_concat (h : (c.mergeAll ms).Opens m) : LastOpens c (ms ++ [m]) m [] :=
  ⟨ms, rfl, h, by simp⟩

/-- A merge that does not open an entry adds to the one that is open. -/
theorem LastOpens.concat (h : LastOpens c ms opener since) (hm : ¬ (c.mergeAll ms).Opens m) :
    LastOpens c (ms ++ [m]) opener (since ++ [m]) := by
  obtain ⟨before, rfl, hopens, hadds⟩ := h
  refine ⟨before, by simp, hopens, fun middle n after hsplit => ?_⟩
  rcases after.eq_nil_or_concat' with rfl | ⟨after, x, rfl⟩
  · obtain ⟨rfl, hlast⟩ := List.append_inj' hsplit rfl
    obtain rfl : m = n := by simpa using hlast
    exact hm
  · have hsplit : since ++ [m] = (middle ++ n :: after) ++ [x] := by simpa using hsplit
    exact hadds middle n after (List.append_inj' hsplit rfl).1

/-- The last merge that opens an entry comes no earlier than any other that does. -/
theorem LastOpens.suffix (h : LastOpens c ms opener since) {before later : List Merge}
    (hsplit : ms = before ++ m :: later) (hm : (c.mergeAll before).Opens m) :
    opener :: since <:+ m :: later := by
  obtain ⟨early, rfl, -, hadds⟩ := h
  rcases List.append_eq_append_iff.1 hsplit with ⟨gap, rfl, hgap⟩ | ⟨gap, rfl, hgap⟩
  · -- `m` comes at or after `opener`, and after `opener` nothing opens.
    cases gap with
    | nil => exact ⟨[], by simpa using hgap⟩
    | cons x gap =>
        obtain ⟨rfl, rfl⟩ := List.cons.inj hgap
        exact absurd hm (hadds gap m later rfl)
  · exact ⟨gap, hgap.symm⟩

/-- Under a key without an entry, values merged at times from zero on make one of the distinct
values merged since an entry was last opened, in order of first appearance, as old as the last
merge. -/
theorem exists_lastOpens (hnone : c.positive.get? key = none)
    (hkey : ∀ m ∈ done ++ [last], m.key = key)
    (hclock : (0 :: (done ++ [last]).map (·.time)).Pairwise (· ≤ ·)) :
    ∃ opener since, LastOpens c (done ++ [last]) opener since ∧
      (c.mergeAll (done ++ [last])).positive.get? key =
        some
          { values := ((opener :: since).map (·.value)).eraseDups
            ttl := min last.ttl c.positiveTtl
            storedAt := last.time } := by
  induction done using List.reverseRecOn generalizing last with
  | nil =>
      obtain rfl : last.key = key := hkey last (by simp)
      refine ⟨last, [], lastOpens_concat (opens_of_get?_eq_none hnone), ?_⟩
      rw [mergeAll_concat, mergeAll_nil, get?_merge, if_pos rfl,
        mergedEntry_of_get?_eq_none hnone]
      rfl
  | append_singleton done prev ih =>
      obtain rfl : last.key = key := hkey last (by simp)
      have hkey' : ∀ m ∈ done ++ [prev], m.key = last.key := fun m hm =>
        hkey m (List.mem_append_left _ hm)
      rw [List.map_append, ← List.cons_append, List.pairwise_append] at hclock
      obtain ⟨hclock', -, hlast⟩ := hclock
      have hzero : 0 ≤ prev.time := List.rel_of_pairwise_cons hclock' (by simp)
      have hpast : prev.time ≤ last.time := hlast _ (by simp) _ (by simp)
      obtain ⟨opener, since, hopens, hentry⟩ := ih hkey' hclock'
      have hiff := opens_iff_isExpired hentry hzero hpast
      rw [mergeAll_concat c (done ++ [prev]), get?_merge, if_pos rfl]
      by_cases hopen : (c.mergeAll (done ++ [prev])).Opens last
      · refine ⟨last, [], lastOpens_concat hopen, ?_⟩
        rw [mergedEntry_of_isExpired hentry (hiff.1 hopen), positiveTtl_mergeAll]
        rfl
      · refine ⟨opener, since ++ [last], hopens.concat hopen, ?_⟩
        have hlive := Bool.eq_false_iff.2 (mt hiff.2 hopen)
        rw [mergedEntry_of_live hentry hlive, positiveTtl_mergeAll, ← List.cons_append,
          List.map_append, List.map_singleton, eraseDups_append_singleton]
        simp

/-- Values are merged under a key without an entry, at times from zero on that never go back.  After
each merge the key holds exactly the distinct values merged since, and with, the last merge that
found the entry absent or expired, in order of first appearance, with the time to live and the time
of the latest merge.  No value from before a merge that found the entry expired is there unless it
was merged again, no other key has changed, and neither has any failure. -/
theorem mergeAll_exact {after : List Merge} (hnone : c.positive.get? key = none)
    (hkey : ∀ m ∈ done ++ last :: after, m.key = key)
    (hclock : (0 :: (done ++ last :: after).map (·.time)).Pairwise (· ≤ ·)) :
    let d := c.mergeAll (done ++ [last])
    (∃ opener since, LastOpens c (done ++ [last]) opener since ∧
      d.positive.get? key =
        some
          { values := ((opener :: since).map (·.value)).eraseDups
            ttl := min last.ttl c.positiveTtl
            rttMs := 0
            storedAt := last.time }) ∧
    (∀ before m later, done ++ [last] = before ++ m :: later → (c.mergeAll before).Opens m →
      ∀ e, d.positive.get? key = some e → ∀ v ∈ e.values, ∃ n ∈ m :: later, n.value = v) ∧
    (∀ other, other ≠ key → d.positive.get? other = c.positive.get? other) ∧
    d.negative = c.negative := by
  rw [List.append_cons] at hkey hclock
  have hkey : ∀ m ∈ done ++ [last], m.key = key := fun m hm => hkey m (List.mem_append_left _ hm)
  rw [List.map_append, ← List.cons_append] at hclock
  obtain ⟨opener, since, hopens, hentry⟩ :=
    exists_lastOpens hnone hkey (List.pairwise_append.1 hclock).1
  refine ⟨⟨opener, since, hopens, hentry⟩, fun before m later hsplit hm e he v hv => ?_,
    fun other hother => get?_mergeAll_of_ne hkey hother, negative_mergeAll c _⟩
  obtain rfl := Option.some.inj (hentry.symm.trans he)
  obtain ⟨n, hn, rfl⟩ := List.mem_map.1 (List.mem_eraseDups.1 hv)
  exact ⟨n, (hopens.suffix hsplit hm).subset hn, rfl⟩

/-- A cache with a failure on record for the key that is merged into, and with another record
set. -/
def cacheBeforeMerges : Cache :=
  (({} : Cache).set "other.example" .mx ["10 mail.example."] 300 0).setNegative "www.example" .a
    "refused"

/-- Merges under several spellings of a name.  The fourth comes five seconds after the third, whose
time to live is four seconds. -/
def spelledMerges : List Merge :=
  [⟨0, "www.example", .a, 5, "192.0.2.1"⟩, ⟨3, "WWW.Example.", .a, 7200, "192.0.2.2"⟩,
    ⟨3, "www.example.", .a, 4, "192.0.2.1"⟩, ⟨8, "www.EXAMPLE", .a, 86400, "192.0.2.3"⟩]

/-- The theorem at work: of the values before the expiry only the one that is merged again is there,
after the one that came first since. -/
theorem mergeAll_exact_spelledMerges :
    let last : Merge := ⟨9, "www.example", .a, 9000, "192.0.2.2"⟩
    let d := cacheBeforeMerges.mergeAll (spelledMerges ++ [last])
    (∃ opener since, LastOpens cacheBeforeMerges (spelledMerges ++ [last]) opener since ∧
      d.positive.get? (makeKey "www.example" .a) =
        some
          { values := ((opener :: since).map (·.value)).eraseDups
            ttl := 3600, rttMs := 0, storedAt := 9 }) ∧
    d.positive.get? (makeKey "www.example" .a) =
      some { values := ["192.0.2.3", "192.0.2.2"], ttl := 3600, rttMs := 0, storedAt := 9 } ∧
    d.negative = cacheBeforeMerges.negative := by
  have hnone : cacheBeforeMerges.positive.get? (makeKey "www.example" .a) = none := by
    decide +kernel
  have hkey : ∀ m ∈ spelledMerges ++ [(⟨9, "www.example", .a, 9000, "192.0.2.2"⟩ : Merge)],
      m.key = makeKey "www.example" .a := by decide +kernel
  have hclock : (0 :: (spelledMerges ++ [(⟨9, "www.example", .a, 9000, "192.0.2.2"⟩ : Merge)]).map
      (·.time)).Pairwise (· ≤ ·) := by decide +kernel
  obtain ⟨hvalues, -, -, hfailures⟩ := mergeAll_exact hnone hkey hclock
  exact ⟨hvalues, by decide +kernel, hfailures⟩

end CachingResolver.Cache
