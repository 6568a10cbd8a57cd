import CachingResolver.Proofs.Cache.Observation
import Mathlib.Data.List.Perm.Basic

/-!
# Lookups at one moment

All that a lookup answers, and all that it does to a cache, hangs on what it reads under its key:
`settle` is its effect, given the key and the reading (`lookup_fst`, `lookup_snd`).  An effect on
one key leaves the reading of every other key alone, and two effects commute (`settle_comm`), so any
two lookups do (`lookup_comm`), and with them all orders of a list of lookups (`run_lookups_perm`).
What each of them answers is what it would answer on its own (`answers_lookups`).
-/

namespace CachingResolver

/-- What a lookup answers. -/
def Cache.Reading.answer? : Cache.Reading → Option CachedAnswer
  | .negative e => some ⟨e, true⟩
  | .positive e => some ⟨e, false⟩
  | .expired | .absent => none

/-- The counters after one more read. -/
def Cache.Reading.counted (m : Metrics) : Cache.Reading → Metrics
  | .negative _ => { m with negativeHits := m.negativeHits + 1 }
  | .positive _ => { m with hits := m.hits + 1 }
  | .expired => { m with expired := m.expired + 1, misses := m.misses + 1 }
  | .absent => { m with misses := m.misses + 1 }

namespace Cache

/-- A cache after a reading of a key. -/
def settle (c : Cache) (key : String) (r : Reading) : Cache :=
  (if r = .expired then c.remove key else c).count r.counted

/-- The first table that has an entry for a key, failures first, holds one that has expired.  The
vacant entry is none. -/
def Outdated (c : Cache) (key : String) : Prop :=
  (∃ e, c.negative.get? key = some e ∧ e.isVacant = false ∧ e.isExpired c.now = true) ∨
    c.NoFailure key ∧
      ∃ e, c.positive.get? key = some e ∧ e.isVacant = false ∧ e.isExpired c.now = true

/-- The lookups of some questions, in order. -/
def Operation.lookups (qs : List Question) : List Operation :=
  qs.map fun q => .lookup q.name q.type

section

variable {c : Cache} {key other : String} {r s : Reading}

theorem outdated_iff_read : c.Outdated key ↔ c.read key = .expired := by
  rw [read_eq_expired_iff, slot_eq_expired_iff, slot_eq_expired_iff]
  rfl

theorem lookup_fst (c : Cache) (name : String) (type : RecordType) :
    (c.lookup name type).1 = (c.read (makeKey name type)).answer? := by
  unfold lookup
  dsimp only
  cases c.read (makeKey name type) <;> rfl

theorem lookup_snd (c : Cache) (name : String) (type : RecordType) :
    (c.lookup name type).2 = c.settle (makeKey name type) (c.read (makeKey name type)) := by
  unfold lookup settle
  dsimp only
  cases c.read (makeKey name type) <;> rfl

theorem lookup_congr {name name' : String} {type type' : RecordType}
    (h : makeKey name type = makeKey name' type') : c.lookup name type = c.lookup name' type' := by
  unfold lookup
  rw [h]

/-! ### The effect of one lookup -/

theorem settle_of_expired (c : Cache) (key : String) :
    c.settle key .expired = (c.remove key).count (Reading.counted · .expired) := rfl

theorem settle_of_ne_expired (c : Cache) (key : String) (h : r ≠ .expired) :
    c.settle key r = c.count r.counted := by
  unfold settle
  rw [if_neg h]

theorem metrics_settle (c : Cache) (key : String) (r : Reading) :
    (c.settle key r).metrics = r.counted c.metrics := by
  unfold settle
  split <;> rfl

theorem get?_settle_of_ne (r : Reading) (h : other ≠ key) :
    (c.settle key r).negative.get? other = c.negative.get? other ∧
      (c.settle key r).positive.get? other = c.positive.get? other := by
  unfold settle
  split
  · simp [count, remove, Table.get?_erase, Ne.symm h]
  · exact ⟨rfl, rfl⟩

/-- The reading of another key stays the same. -/
theorem read_settle_of_ne (r : Reading) (h : other ≠ key) :
    (c.settle key r).read other = c.read other := by
  obtain ⟨hnegative, hpositive⟩ := get?_settle_of_ne (c := c) r h
  refine read_congr ?_ hpositive hnegative
  unfold settle
  split <;> rfl

/-- One counter of answers grows by one, the one that fits the answer. -/
theorem Reading.counted_answer? (m : Metrics) (r : Reading) :
    (r.counted m).hits = m.hits + (if r.answer?.any (!·.isNegative) then 1 else 0) ∧
      (r.counted m).negativeHits =
        m.negativeHits + (if r.answer?.any (·.isNegative) then 1 else 0) ∧
      (r.counted m).misses = m.misses + (if r.answer?.isNone then 1 else 0) := by
  cases r with
  | negative e | positive e | expired | absent => exact ⟨rfl, rfl, rfl⟩

theorem counted_comm (m : Metrics) (r s : Reading) :
    s.counted (r.counted m) = r.counted (s.counted m) := by
  cases r <;> cases s <;> rfl

theorem remove_comm (c : Cache) (key other : String) :
    (c.remove key).remove other = (c.remove other).remove key := by
  unfold remove
  rw [Table.erase_comm c.negative, Table.erase_comm c.positive]

theorem remove_count (c : Cache) (f : Metrics → Metrics) (key : String) :
    (c.count f).remove key = (c.remove key).count f := rfl

/-- The effects of two readings can come in either order. -/
theorem settle_comm (c : Cache) (key other : String) (r s : Reading) :
    (c.settle key r).settle other s = (c.settle other s).settle key r := by
  have hcount (d : Cache) : (d.count r.counted).count s.counted =
      (d.count s.counted).count r.counted := by
    simp only [count, counted_comm]
  unfold settle
  split <;> split
  · rw [remove_count, remove_count, remove_comm, hcount]
  · rw [remove_count, hcount]
  · rw [remove_count, hcount]
  · rw [hcount]

/-! ### Several lookups -/

theorem run_lookups_cons (c : Cache) (q : Question) (qs : List Question) :
    Operation.run c (Operation.lookups (q :: qs)) =
      Operation.run (c.lookup q.name q.type).2 (Operation.lookups qs) := rfl

theorem run_lookups_append (c : Cache) (ps qs : List Question) :
    Operation.run c (Operation.lookups (ps ++ qs)) =
      Operation.run (Operation.run c (Operation.lookups ps)) (Operation.lookups qs) := by
  unfold Operation.run Operation.lookups
  rw [List.map_append, List.foldl_append]

/-- Keys that are not looked up stay as they were. -/
theorem get?_run_lookups_of_ne {qs : List Question} (h : ∀ q ∈ qs, makeKey q.name q.type ≠ key) :
    (Operation.run c (Operation.lookups qs)).negative.get? key = c.negative.get? key ∧
      (Operation.run c (Operation.lookups qs)).positive.get? key = c.positive.get? key := by
  induction qs generalizing c with
  | nil => exact ⟨rfl, rfl⟩
  | cons q qs ih =>
      obtain ⟨hne, hrest⟩ := List.forall_mem_cons.1 h
      obtain ⟨hnegative, hpositive⟩ := ih (c := (c.lookup q.name q.type).2) hrest
      obtain ⟨hnegative', hpositive'⟩ :=
        get?_settle_of_ne (c := c) (c.read (makeKey q.name q.type)) hne.symm
      rw [← lookup_snd] at hnegative' hpositive'
      exact ⟨hnegative.trans hnegative', hpositive.trans hpositive'⟩

theorem lookup_comm (c : Cache) (p q : Question) :
    ((c.lookup p.name p.type).2.lookup q.name q.type).2 =
      ((c.lookup q.name q.type).2.lookup p.name p.type).2 := by
  by_cases hkey : makeKey q.name q.type = makeKey p.name p.type
  · rw [lookup_congr hkey, lookup_congr hkey]
  · rw [lookup_snd, lookup_snd, lookup_snd, lookup_snd, read_settle_of_ne _ hkey,
      read_settle_of_ne _ (Ne.symm hkey), settle_comm]

/-- The order of lookups does not show in the cache. -/
theorem run_lookups_perm {ps qs : List Question} (h : ps.Perm qs) :
    Operation.run c (Operation.lookups ps) = Operation.run c (Operation.lookups qs) := by
  refine (h.map _).foldl_eq' (fun op hop op' hop' d => ?_) c
  obtain ⟨p, -, rfl⟩ := List.mem_map.1 hop
  obtain ⟨q, -, rfl⟩ := List.mem_map.1 hop'
  exact lookup_comm d p q

/-- Each of several lookups answers what it would answer alone. -/
theorem answers_lookups (qs : List Question) :
    Operation.answers c (Operation.lookups qs) =
      qs.map fun q => .found (c.lookup q.name q.type).1 := by
  induction qs generalizing c with
  | nil => rfl
  | cons q qs ih =>
      have hsweeps := sweeps_lookup c q.name q.type
      have hrest : Operation.answers (c.lookup q.name q.type).2 (Operation.lookups qs) =
          qs.map fun q => .found (c.lookup q.name q.type).1 := by
        rw [ih]
        exact List.map_congr_left fun p _ => by rw [hsweeps.lookup_fst_eq]
      show _ :: Operation.answers (c.lookup q.name q.type).2 (Operation.lookups qs) = _
      rw [hrest]
      rfl

end

/-- For any cache, whatever its clock shows, and any owner and type.  The lookup answers with a
failure exactly when the table of failures holds a live entry for the key, and with a record set
exactly when that table holds none, not even an expired one, and the table of record sets holds a
live entry.  If the first entry found is an expired one, the key is removed from both tables, and in
all other cases both tables are as before; so are all other keys in every case.  One of the three
counters of answers grows by one, the one that fits the answer.  And any number of lookups, at one
moment, give the same answers and leave the same cache in any order. -/
theorem lookup_exact (c : Cache) (name : String) (type : RecordType) :
    let key := makeKey name type
    let answer := (c.lookup name type).1
    let after := (c.lookup name type).2
    ((∀ e, answer = some ⟨e, true⟩ ↔
        c.negative.get? key = some e ∧ e.isVacant = false ∧ e.isExpired c.now = false) ∧
      ∀ e, answer = some ⟨e, false⟩ ↔
        c.NoFailure key ∧ c.positive.get? key = some e ∧ e.isVacant = false ∧
          e.isExpired c.now = false) ∧
    ((c.Outdated key → after.negative.get? key = none ∧ after.positive.get? key = none) ∧
      (¬ c.Outdated key → after.negative = c.negative ∧ after.positive = c.positive) ∧
      ∀ other, other ≠ key → after.negative.get? other = c.negative.get? other ∧
        after.positive.get? other = c.positive.get? other) ∧
    (after.metrics.hits = c.metrics.hits + (if answer.any (!·.isNegative) then 1 else 0) ∧
      after.metrics.negativeHits =
        c.metrics.negativeHits + (if answer.any (·.isNegative) then 1 else 0) ∧
      after.metrics.misses = c.metrics.misses + (if answer.isNone then 1 else 0)) ∧
    (∀ qs : List Question, Operation.answers c (Operation.lookups qs) =
      qs.map fun q => .found (c.lookup q.name q.type).1) ∧
    ∀ ps qs : List Question, ps.Perm qs →
      Operation.run c (Operation.lookups ps) = Operation.run c (Operation.lookups qs) := by
  dsimp only
  refine ⟨⟨fun e => ?_, fun e => ?_⟩, ⟨fun hout => ?_, fun hin => ?_, fun other hne => ?_⟩, ?_,
    answers_lookups, fun ps qs hperm => run_lookups_perm hperm⟩
  · rw [lookup_eq_some_true_iff, read_eq_negative_iff]
  · rw [lookup_eq_some_false_iff, found?_eq_some_iff]
  · rw [lookup_snd, outdated_iff_read.1 hout, settle_of_expired]
    exact ⟨Table.get?_erase_self _ _, Table.get?_erase_self _ _⟩
  · rw [lookup_snd, settle_of_ne_expired _ _ fun h => hin (outdated_iff_read.2 h)]
    exact ⟨rfl, rfl⟩
  · rw [lookup_snd]
    exact get?_settle_of_ne _ hne
  · rw [lookup_fst, lookup_snd, metrics_settle]
    exact Reading.counted_answer? c.metrics _

/-- A record set with a failure on record that has expired, and one without. -/
def staleFailure : Cache :=
  Operation.run {} [.set "x.example" .a ["192.0.2.7"] 3000 0, .setNegative "x.example" .a "refused",
    .set "y.example" .a ["192.0.2.8"] 3000 0, .advance 61]

/-- The theorem at work: the expired failure takes the record set with it, and whether the other
record set is looked up before or after makes no difference. -/
theorem lookup_exact_staleFailure :
    let ps : List Question := [.make "x.example" .a, .make "y.example" .a]
    let qs : List Question := [.make "y.example" .a, .make "x.example" .a]
    staleFailure.Outdated (makeKey "X.Example." .a) ∧
      (staleFailure.lookup "X.Example." .a).2.positive.get? (makeKey "X.Example." .a) = none ∧
      ps.Perm qs ∧
      Operation.run staleFailure (Operation.lookups ps) =
        Operation.run staleFailure (Operation.lookups qs) := by
  have hout : staleFailure.Outdated (makeKey "X.Example." .a) :=
    outdated_iff_read.2 (by decide +kernel)
  have hperm := List.Perm.swap (Question.make "y.example" .a) (.make "x.example" .a) []
  obtain ⟨-, ⟨hremoved, -⟩, -, -, horder⟩ := lookup_exact staleFailure "X.Example." .a
  exact ⟨hout, (hremoved hout).2, hperm, horder _ _ hperm⟩

end Cache

end CachingResolver
