import CachingResolver.Cache.Basic
import CachingResolver.Proofs.Cache.Age

/-!
# What reads of the cache find and change

`found?` is the entry that a read of a key answers with.  Reading changes the cache in one way only:
`Sweeps` says that a cache differs from another by expired keys having been removed (`Keeps`, for
each key), and the counters.  Sweeping keeps what every key answers (`Sweeps.found?_eq`), so a
sequence of reads at one moment can be understood through `found?` alone.  A cache is `Counted` from
another when nothing but its counters differs.

A key is `Hidden` when no read at any time can answer it with a value: a failure is on record for
it, or the table of record sets has nothing for it.  It is `Vacant` when neither table has anything
for it, as after every read of the key that misses (`vacant_lookup`).
-/

namespace CachingResolver.Cache

/-- No failure is on record for a key, not even one that is too old.  The vacant entry is none. -/
def NoFailure (c : Cache) (key : String) : Prop :=
  ∀ e, c.negative.get? key = some e → e.isVacant = true

/-- The entry that a read of a key answers with, if it answers with data. -/
def found? (c : Cache) (key : String) : Option Entry :=
  match c.read key with
  | .positive e => some e
  | _ => none

/-- No table says anything about a key, at no time. -/
def Vacant (c : Cache) (key : String) : Prop :=
  c.NoFailure key ∧ ∀ e, c.positive.get? key = some e → e.isVacant = true

/-- No read of the key can answer with a value, at no time. -/
def Hidden (c : Cache) (key : String) : Prop :=
  c.NoFailure key → ∀ e, c.positive.get? key = some e → e.values = []

/-! ### What the tables say about a key -/

theorem slot_eq_absent_iff {now : Int64} {o : Option Entry} :
    Slot.of now o = .absent ↔ ∀ e, o = some e → e.isVacant = true := by
  cases o with
  | none => simp [Slot.of]
  | some e =>
      simp only [Slot.of, Option.some.injEq, forall_eq']
      split
      · simp_all
      · split <;> simp_all

theorem slot_eq_live_iff {now : Int64} {o : Option Entry} {e : Entry} :
    Slot.of now o = .live e ↔ o = some e ∧ e.isVacant = false ∧ e.isExpired now = false := by
  cases o with
  | none => simp [Slot.of]
  | some f =>
      simp only [Slot.of, Option.some.injEq]
      constructor
      · intro h
        split at h
        · exact absurd h (by simp)
        · split at h
          · exact absurd h (by simp)
          · obtain rfl : f = e := by simpa using h
            simp_all
      · rintro ⟨rfl, hv, hx⟩
        simp [hv, hx]

theorem slot_eq_expired_iff {now : Int64} {o : Option Entry} :
    Slot.of now o = .expired ↔ ∃ e, o = some e ∧ e.isVacant = false ∧ e.isExpired now = true := by
  cases o with
  | none => simp [Slot.of]
  | some e =>
      simp only [Slot.of, Option.some.injEq, exists_eq_left']
      split
      · simp_all
      · split <;> simp_all

theorem noFailure_iff_slot {c : Cache} {key : String} (now : Int64) :
    c.NoFailure key ↔ Slot.of now (c.negative.get? key) = .absent :=
  slot_eq_absent_iff.symm

theorem read_congr {c d : Cache} {key : String} (hnow : d.now = c.now)
    (hpos : d.positive.get? key = c.positive.get? key)
    (hneg : d.negative.get? key = c.negative.get? key) : d.read key = c.read key := by
  unfold read
  rw [hnow, hpos, hneg]

/-- A read answers with data exactly when no failure is on record and the record set is live. -/
theorem read_eq_positive_iff {c : Cache} {key : String} {e : Entry} :
    c.read key = .positive e ↔ c.NoFailure key ∧ c.positive.get? key = some e ∧
      e.isVacant = false ∧ e.isExpired c.now = false := by
  rw [noFailure_iff_slot c.now, ← slot_eq_live_iff]
  unfold read
  cases hneg : Slot.of c.now (c.negative.get? key) with
  | live f => simp
  | expired => simp
  | absent => cases hpos : Slot.of c.now (c.positive.get? key) <;> simp

theorem read_eq_negative_iff {c : Cache} {key : String} {e : Entry} :
    c.read key = .negative e ↔ c.negative.get? key = some e ∧ e.isVacant = false ∧
      e.isExpired c.now = false := by
  rw [← slot_eq_live_iff]
  unfold read
  cases Slot.of c.now (c.negative.get? key) with
  | live f => simp
  | expired => simp
  | absent => cases Slot.of c.now (c.positive.get? key) <;> simp

theorem read_eq_expired_iff {c : Cache} {key : String} :
    c.read key = .expired ↔ Slot.of c.now (c.negative.get? key) = .expired ∨
      c.NoFailure key ∧ Slot.of c.now (c.positive.get? key) = .expired := by
  rw [noFailure_iff_slot c.now]
  unfold read
  cases Slot.of c.now (c.negative.get? key) with
  | live f => simp
  | expired => simp
  | absent => cases Slot.of c.now (c.positive.get? key) <;> simp

theorem found?_eq_some_iff {c : Cache} {key : String} {e : Entry} :
    c.found? key = some e ↔ c.NoFailure key ∧ c.positive.get? key = some e ∧
      e.isVacant = false ∧ e.isExpired c.now = false := by
  rw [← read_eq_positive_iff]
  unfold found?
  cases c.read key <;> simp

theorem isVacant_eq_false {e : Entry} (h : e.values ≠ []) : e.isVacant = false := by
  simp [Entry.isVacant, h]

/-- A record set without a failure on record answers from its stamp on, up to its time to live
later. -/
theorem found?_of_stored {c : Cache} {key : String} {e : Entry} (hnone : c.NoFailure key)
    (he : c.positive.get? key = some e) (hne : e.values ≠ [])
    (hfrom : e.storedAt.toInt ≤ c.now.toInt)
    (hto : c.now.toInt ≤ e.storedAt.toInt + e.ttl.toNat) : c.found? key = some e :=
  found?_eq_some_iff.2 ⟨hnone, he, isVacant_eq_false hne, Entry.isExpired_eq_false hfrom hto⟩

theorem found?_eq_none_of_vacant {c : Cache} {key : String} (h : c.Vacant key) :
    c.found? key = none := by
  cases he : c.found? key with
  | none => rfl
  | some e =>
      obtain ⟨-, hpos, hv, -⟩ := found?_eq_some_iff.1 he
      rw [h.2 e hpos] at hv
      cases hv

theorem values_eq_nil_of_hidden {c : Cache} {key : String} {e : Entry} (h : c.Hidden key)
    (he : c.found? key = some e) : e.values = [] := by
  obtain ⟨hnone, hpos, -, -⟩ := found?_eq_some_iff.1 he
  exact h hnone e hpos

/-! ### Sweeping -/

/-- From `c` to `d` a key stays as it was, or was expired and is gone from both tables. -/
def Keeps (c d : Cache) (key : String) : Prop :=
  (d.positive.get? key = c.positive.get? key ∧ d.negative.get? key = c.negative.get? key) ∨
    (c.read key = .expired ∧ d.positive.get? key = none ∧ d.negative.get? key = none)

namespace Keeps

variable {c d : Cache} {key : String}

theorem noFailure (h : Keeps c d key) (hc : c.NoFailure key) : d.NoFailure key := by
  intro f hf
  rcases h with ⟨-, hn⟩ | ⟨-, -, hn⟩
  · exact hc f (hn ▸ hf)
  · rw [hn] at hf
    cases hf

theorem hidden (h : Keeps c d key) (hc : c.Hidden key) : d.Hidden key := by
  rcases h with ⟨hp, hn⟩ | ⟨-, hp, -⟩
  · unfold Hidden NoFailure
    rw [hp, hn]
    exact hc
  · intro _ f hf
    rw [hp] at hf
    cases hf

/-- An entry that is there afterwards was there before. -/
theorem positive_get? (h : Keeps c d key) {f : Entry} (hf : d.positive.get? key = some f) :
    c.positive.get? key = some f := by
  rcases h with ⟨hp, -⟩ | ⟨-, hp, -⟩
  · rw [← hp, hf]
  · rw [hp] at hf
    cases hf

theorem negative_get? (h : Keeps c d key) {f : Entry} (hf : d.negative.get? key = some f) :
    c.negative.get? key = some f := by
  rcases h with ⟨-, hn⟩ | ⟨-, -, hn⟩
  · rw [← hn, hf]
  · rw [hn] at hf
    cases hf

theorem vacant (h : Keeps c d key) (hc : c.Vacant key) : d.Vacant key :=
  ⟨h.noFailure hc.1, fun e he => hc.2 e (h.positive_get? he)⟩

/-- The record set of a key that answers with data is not touched. -/
theorem positive_of_found? (h : Keeps c d key) {f : Entry} (hf : c.found? key = some f) :
    d.positive.get? key = some f := by
  rcases h with ⟨hp, -⟩ | ⟨hx, -, -⟩
  · rw [hp]
    exact (found?_eq_some_iff.1 hf).2.1
  · unfold found? at hf
    rw [hx] at hf
    cases hf

end Keeps

/-- `d` is `c` after expired keys have been removed, up to the counters. -/
structure Sweeps (c d : Cache) : Prop where
  now_eq : d.now = c.now
  positiveTtl_eq : d.positiveTtl = c.positiveTtl
  negativeTtl_eq : d.negativeTtl = c.negativeTtl
  keeps : ∀ key, Keeps c d key

namespace Sweeps

variable {c d e : Cache} {key : String}

theorem refl (c : Cache) : Sweeps c c :=
  ⟨rfl, rfl, rfl, fun _ => .inl ⟨rfl, rfl⟩⟩

theorem trans (hcd : Sweeps c d) (hde : Sweeps d e) : Sweeps c e := by
  refine ⟨hde.now_eq.trans hcd.now_eq, hde.positiveTtl_eq.trans hcd.positiveTtl_eq,
    hde.negativeTtl_eq.trans hcd.negativeTtl_eq, ?_⟩
  intro key
  -- A key that is swept in the second part and kept in the first was expired from the start.
  rcases hcd.keeps key with ⟨hp, hn⟩ | ⟨hx, hp, hn⟩
  · rcases hde.keeps key with ⟨hp', hn'⟩ | ⟨hx', hp', hn'⟩
    · exact .inl ⟨hp'.trans hp, hn'.trans hn⟩
    · exact .inr ⟨read_congr hcd.now_eq hp hn ▸ hx', hp', hn'⟩
  · rcases hde.keeps key with ⟨hp', hn'⟩ | ⟨-, hp', hn'⟩
    · exact .inr ⟨hx, hp'.trans hp, hn'.trans hn⟩
    · exact .inr ⟨hx, hp', hn'⟩

/-- Sweeping never changes what a key answers. -/
theorem found?_eq (h : Sweeps c d) (key : String) : d.found? key = c.found? key := by
  rcases h.keeps key with ⟨hp, hn⟩ | ⟨hx, hp, hn⟩
  · unfold found?
    rw [read_congr h.now_eq hp hn]
  · have hd : d.read key = .absent := by
      simp [read, hp, hn, Slot.of]
    simp [found?, hx, hd]

theorem noFailure (h : Sweeps c d) (hc : c.NoFailure key) : d.NoFailure key :=
  (h.keeps key).noFailure hc

theorem hidden (h : Sweeps c d) (hc : c.Hidden key) : d.Hidden key :=
  (h.keeps key).hidden hc

theorem vacant (h : Sweeps c d) (hc : c.Vacant key) : d.Vacant key :=
  (h.keeps key).vacant hc

theorem positive_get? (h : Sweeps c d) {f : Entry} (hf : d.positive.get? key = some f) :
    c.positive.get? key = some f :=
  (h.keeps key).positive_get? hf

theorem negative_get? (h : Sweeps c d) {f : Entry} (hf : d.negative.get? key = some f) :
    c.negative.get? key = some f :=
  (h.keeps key).negative_get? hf

theorem positive_of_found? (h : Sweeps c d) {f : Entry} (hf : c.found? key = some f) :
    d.positive.get? key = some f :=
  (h.keeps key).positive_of_found? hf

end Sweeps

/-! ### The reads -/

theorem sweeps_count (c : Cache) (f : Metrics → Metrics) : Sweeps c (c.count f) :=
  ⟨rfl, rfl, rfl, fun _ => .inl ⟨rfl, rfl⟩⟩

theorem sweeps_remove {c : Cache} {key : String} (h : c.read key = .expired) :
    Sweeps c (c.remove key) := by
  refine ⟨rfl, rfl, rfl, fun k => ?_⟩
  by_cases hk : key = k
  · subst hk
    exact .inr ⟨h, Table.get?_erase_self _ _, Table.get?_erase_self _ _⟩
  · simp [Keeps, remove, Table.get?_erase, hk]

theorem sweeps_lookup (c : Cache) (name : String) (type : RecordType) :
    Sweeps c (c.lookup name type).2 := by
  unfold lookup
  dsimp only
  cases h : c.read (makeKey name type) with
  | negative e =>
      dsimp only
      exact sweeps_count c _
  | positive e =>
      dsimp only
      exact sweeps_count c _
  | expired =>
      dsimp only
      exact (sweeps_remove h).trans (sweeps_count _ _)
  | absent =>
      dsimp only
      exact sweeps_count c _

theorem Sweeps.lookup_fst_eq {c d : Cache} (h : Sweeps c d) (name : String) (type : RecordType) :
    (d.lookup name type).1 = (c.lookup name type).1 := by
  unfold lookup
  dsimp only
  rcases h.keeps (makeKey name type) with ⟨hp, hn⟩ | ⟨hx, hp, hn⟩
  · rw [read_congr h.now_eq hp hn]
    cases c.read (makeKey name type) <;> rfl
  · have hd : d.read (makeKey name type) = .absent := by
      simp [read, hp, hn, Slot.of]
    rw [hx, hd]

/-- A read that meets an expired entry first misses and removes the key from both tables. -/
theorem lookup_of_read_eq_expired {c : Cache} {name : String} {type : RecordType}
    (h : c.read (makeKey name type) = .expired) :
    (c.lookup name type).1 = none ∧
      (c.lookup name type).2.positive.get? (makeKey name type) = none ∧
      (c.lookup name type).2.negative.get? (makeKey name type) = none := by
  unfold lookup
  dsimp only
  rw [h]
  exact ⟨rfl, Table.get?_erase_self _ _, Table.get?_erase_self _ _⟩

/-- After a read that misses, the key is vacant: if it was expired, it is gone. -/
theorem vacant_lookup {c : Cache} {name : String} {type : RecordType}
    (h : (c.lookup name type).1 = none) : (c.lookup name type).2.Vacant (makeKey name type) := by
  unfold lookup at h ⊢
  dsimp only at h ⊢
  cases hread : c.read (makeKey name type) with
  | negative e =>
      rw [hread] at h
      cases h
  | positive e =>
      rw [hread] at h
      cases h
  | expired => simp [Vacant, NoFailure, count, remove]
  | absent =>
      have hslots : Slot.of c.now (c.negative.get? (makeKey name type)) = .absent ∧
          Slot.of c.now (c.positive.get? (makeKey name type)) = .absent := by
        unfold read at hread
        split at hread
        · cases hread
        · cases hread
        · rename_i hneg
          split at hread
          · cases hread
          · cases hread
          · rename_i hpos
            exact ⟨hneg, hpos⟩
      exact ⟨slot_eq_absent_iff.1 hslots.1, slot_eq_absent_iff.1 hslots.2⟩

/-- A lookup answers with data exactly when the key does. -/
theorem lookup_eq_some_false_iff {c : Cache} {name : String} {type : RecordType} {e : Entry} :
    (c.lookup name type).1 = some ⟨e, false⟩ ↔ c.found? (makeKey name type) = some e := by
  unfold lookup found?
  dsimp only
  cases c.read (makeKey name type) <;> simp

theorem lookup_eq_some_true_iff {c : Cache} {name : String} {type : RecordType} {e : Entry} :
    (c.lookup name type).1 = some ⟨e, true⟩ ↔ c.read (makeKey name type) = .negative e := by
  unfold lookup
  dsimp only
  cases c.read (makeKey name type) <;> simp

@[simp] theorem getPositive?_fst (c : Cache) (name : String) (type : RecordType) :
    (c.getPositive? name type).1 = c.found? (makeKey name type) := by
  unfold getPositive? lookup found?
  dsimp only
  cases c.read (makeKey name type) <;> rfl

theorem getPositive?_snd (c : Cache) (name : String) (type : RecordType) :
    (c.getPositive? name type).2 = (c.lookup name type).2 := rfl

theorem sweeps_getPositive? (c : Cache) (name : String) (type : RecordType) :
    Sweeps c (c.getPositive? name type).2 :=
  sweeps_lookup c name type

theorem sweeps_get? (c : Cache) (name : String) (type : RecordType) :
    Sweeps c (c.get? name type).2 :=
  sweeps_lookup c name type

theorem sweeps_isNegative (c : Cache) (name : String) (type : RecordType) :
    Sweeps c (c.isNegative name type).2 :=
  sweeps_lookup c name type

/-- A key that was just read without a value is hidden from then on. -/
theorem hidden_getPositive? {c : Cache} {name : String} {type : RecordType}
    (h : ∀ e, c.found? (makeKey name type) = some e → e.values = []) :
    (c.getPositive? name type).2.Hidden (makeKey name type) := by
  intro hnone e he
  have hsweeps := sweeps_getPositive? c name type
  rcases hsweeps.keeps (makeKey name type) with ⟨hp, hn⟩ | ⟨-, hp, -⟩
  · -- The key was kept, so it was not expired, and without a failure it answered with `e`.
    have hnone' : c.NoFailure (makeKey name type) := by
      intro f hf
      exact hnone f (hn.trans hf)
    by_cases hv : e.isVacant = true
    · simp only [Entry.isVacant, Bool.and_eq_true, List.isEmpty_iff] at hv
      exact hv.2
    · have hv : e.isVacant = false := by simpa using hv
      by_cases hx : e.isExpired c.now = true
      · -- An expired key is removed by the read.
        exfalso
        have hread : c.read (makeKey name type) = .expired := by
          have hneg := (noFailure_iff_slot c.now).1 hnone'
          have hpos : Slot.of c.now (c.positive.get? (makeKey name type)) = .expired := by
            rw [← hp, he]
            simp [Slot.of, hv, hx]
          unfold read
          rw [hneg, hpos]
        rw [getPositive?_snd] at he
        simp [lookup, hread, count, remove] at he
      · exact h e (found?_eq_some_iff.2 ⟨hnone', hp ▸ he, hv, by simpa using hx⟩)
  · rw [hp] at he
    cases he

/-! ### Up to the counters -/

/-- `d` is `c` up to the counters. -/
def Counted (c d : Cache) : Prop :=
  ∃ f, d = c.count f

theorem Counted.refl (c : Cache) : Counted c c :=
  ⟨id, rfl⟩

theorem Counted.sweeps {c d : Cache} (h : Counted c d) : Sweeps c d := by
  obtain ⟨f, rfl⟩ := h
  exact sweeps_count c f

end CachingResolver.Cache
