import CachingResolver.Lookup.Setup
import CachingResolver.Proofs.Cache.Observation

/-!
# How old an answer can be

Every entry in the tables comes from the last operation that wrote its key, and bears the time of
this operation (`exists_last`, from `positive_get?_apply` and `negative_get?_apply` for one
operation).  While the clock runs forward from zero or later, stamps lie between zero and the
present (`Timely`), so ages do not overflow, and no answer is older than the time to live that it
was stored with.  A key that is found expired has passed that age for good: it misses until it is
written again (`Gone`).  `answers_within_lifetime` puts these together for runs of a new cache.

Root hints and checkpoints are left out.  Hints live longer than other record sets, and a checkpoint
brings stamps of its own.
-/

namespace CachingResolver

namespace Cache

namespace Operation

/-- Neither root hints nor a checkpoint is loaded. -/
def LoadsNothing : Operation → Prop
  | loadRoots _ | load _ => False
  | _ => True

/-- The keys that an operation writes record sets under, with the times to live that it is given for
them. -/
def given : Operation → List (String × UInt32)
  | set name type _ ttl _ => [(makeKey name type, ttl)]
  | addValue name type ttl _ => [(makeKey name type, ttl)]
  | storeWithGlue records additionals _ =>
    (setsWithGlue records additionals).map fun s => (s.key, s.ttl)
  | _ => []

/-- The operation writes a record set under a key. -/
def Writes (op : Operation) (key : String) : Prop :=
  ∃ p ∈ op.given, p.1 = key

/-- The operation writes a record set under a key and is given a time to live for it.  Of several
the last counts. -/
def Gives (op : Operation) (key : String) (ttl : UInt32) : Prop :=
  ((∅ : Table UInt32).insertAll op.given).get? key = some ttl

/-- The operation remembers that a key failed. -/
def Fails (op : Operation) (key : String) : Prop :=
  match op with
  | setNegative name type _ => makeKey name type = key
  | _ => False

/-- The operation deletes a key. -/
def Forgets (op : Operation) (key : String) : Prop :=
  match op with
  | delete name type => makeKey name type = key
  | _ => False

/-- The clock never goes back in a sequence of operations. -/
def Forward (c : Cache) : List Operation → Prop
  | [] => True
  | op :: ops => c.now ≤ (op.apply c).now ∧ Forward (op.apply c) ops

instance decidableForward (c : Cache) : (ops : List Operation) → Decidable (Forward c ops)
  | [] => inferInstanceAs (Decidable True)
  | op :: ops =>
    have := decidableForward (op.apply c) ops
    inferInstanceAs (Decidable (_ ∧ _))

variable {c : Cache} {op : Operation} {ops : List Operation} {key : String} {e : Entry}

/-! ### One operation -/

/-- What is stored has the time to live that is given, up to the limit of the settings. -/
theorem map_ttl_stored (hloads : op.LoadsNothing) :
    (op.stored c).map (fun p => (p.1, p.2.ttl)) = op.given.map fun p => (p.1, c.clampTtl p.2) := by
  cases op with
  | storeWithGlue records additionals rttMs =>
      show ((setsWithGlue records additionals).map _).map _ =
        ((setsWithGlue records additionals).map _).map _
      rw [List.map_map, List.map_map]
      rfl
  | loadRoots | load => exact hloads.elim
  | set | addValue | setNegative | delete | lookup | get | getPositive | isNegative | zoneFor
  | advance => rfl

theorem exists_stored_iff_writes (hloads : op.LoadsNothing) :
    (∃ p ∈ op.stored c, p.1 = key) ↔ op.Writes key := by
  have hkeys := congrArg (List.map Prod.fst) (map_ttl_stored (c := c) hloads)
  rw [List.map_map, List.map_map] at hkeys
  have hmem := congrArg (key ∈ ·) hkeys
  simpa [Writes] using hmem

theorem not_disturbs (hloads : op.LoadsNothing) (hwrites : ¬ op.Writes key)
    (hfails : ¬ op.Fails key) (hforgets : ¬ op.Forgets key) : ¬ op.Disturbs c key := by
  rintro (hstored | hrest)
  · exact hwrites ((exists_stored_iff_writes hloads).1 hstored)
  · cases op with
    | setNegative name type reason => exact hfails hrest
    | delete name type => exact hforgets hrest
    | load octets => exact hloads
    | set | addValue | storeWithGlue | loadRoots | lookup | get | getPositive | isNegative
    | zoneFor | advance => exact hrest

theorem get?_apply_of_forgets (h : op.Forgets key) :
    (op.apply c).positive.get? key = none ∧ (op.apply c).negative.get? key = none := by
  cases op with
  | delete name type =>
      subst h
      exact ⟨Table.get?_erase_self _ _, Table.get?_erase_self _ _⟩
  | set | addValue | storeWithGlue | loadRoots | setNegative | load | lookup | get | getPositive
  | isNegative | zoneFor | advance => exact h.elim

theorem positive_apply_of_fails (h : op.Fails key) : (op.apply c).positive = c.positive := by
  cases op with
  | setNegative name type reason => rfl
  | set | addValue | storeWithGlue | loadRoots | delete | load | lookup | get | getPositive
  | isNegative | zoneFor | advance => exact h.elim

/-- A record set that is there after an operation was written by it, or it was there before and the
operation has not touched it. -/
theorem positive_get?_apply (hloads : op.LoadsNothing)
    (he : (op.apply c).positive.get? key = some e) :
    (∃ ttl, op.Gives key ttl ∧ e.storedAt = c.now ∧ e.ttl = c.clampTtl ttl) ∨
      (¬ op.Writes key ∧ ¬ op.Forgets key) ∧ c.positive.get? key = some e := by
  by_cases hwrites : op.Writes key
  · left
    obtain ⟨ttl, -, hgives⟩ := Table.exists_get?_insertAll hwrites
    obtain ⟨f, hmem, hstores⟩ :=
      Table.exists_get?_insertAll ((exists_stored_iff_writes (c := c) hloads).2 hwrites)
    obtain ⟨hafter, -⟩ := get?_apply_of_stores (hstores ∅)
    obtain rfl : f = e := Option.some.inj (hafter.symm.trans he)
    refine ⟨ttl, hgives ∅, storedAt_of_mem_stored hmem, ?_⟩
    have httl := Table.get?_insertAll_map Entry.ttl key ∅ ∅ (op.stored c) rfl
    have hclamp := Table.get?_insertAll_map c.clampTtl key ∅ ∅ op.given rfl
    rw [map_ttl_stored hloads, hclamp, hstores, hgives] at httl
    exact (Option.some.inj httl).symm
  · right
    have hforgets : ¬ op.Forgets key := by
      intro h
      rw [(get?_apply_of_forgets h).1] at he
      cases he
    refine ⟨⟨hwrites, hforgets⟩, ?_⟩
    by_cases hfails : op.Fails key
    · rwa [positive_apply_of_fails hfails] at he
    · exact (keeps_apply (not_disturbs hloads hwrites hfails hforgets)).positive_get? he

/-- A failure that is on record after an operation was recorded by it, or it was on record before
and the operation has not touched it. -/
theorem negative_get?_apply (hloads : op.LoadsNothing)
    (he : (op.apply c).negative.get? key = some e) :
    (op.Fails key ∧ e.storedAt = c.now ∧ e.ttl = c.negativeTtl) ∨
      (¬ op.Fails key ∧ ¬ op.Forgets key) ∧ c.negative.get? key = some e := by
  by_cases hfails : op.Fails key
  · left
    cases op with
    | setNegative name type reason =>
        subst hfails
        obtain rfl := Option.some.inj ((Table.get?_insert_self _ _ _).symm.trans he)
        exact ⟨rfl, rfl, rfl⟩
    | set | addValue | storeWithGlue | loadRoots | delete | load | lookup | get | getPositive
    | isNegative | zoneFor | advance => exact hfails.elim
  · right
    have hforgets : ¬ op.Forgets key := by
      intro h
      rw [(get?_apply_of_forgets h).2] at he
      cases he
    refine ⟨⟨hfails, hforgets⟩, ?_⟩
    by_cases hstored : op.stored c = []
    · have hwrites : ¬ op.Writes key := by
        intro h
        obtain ⟨p, hp, -⟩ := (exists_stored_iff_writes (c := c) hloads).2 h
        rw [hstored] at hp
        cases hp
      exact (keeps_apply (not_disturbs hloads hwrites hfails hforgets)).negative_get? he
    · rwa [(apply_of_stored hstored).2.1] at he

/-! ### The last operation on a key -/

theorem run_append (c : Cache) (before after : List Operation) :
    run c (before ++ after) = run (run c before) after :=
  List.foldl_append

/-- An entry that is in a table after a run was put there by an operation of the run, and all later
ones were quiet: so it is when it holds of one operation. -/
theorem exists_last {T : Cache → Table Entry} {Origin : Operation → Cache → Prop}
    {Quiet : Operation → Prop} (hnone : (T c).get? key = none)
    (hstep : ∀ op ∈ ops, ∀ d : Cache, (T (op.apply d)).get? key = some e →
      Origin op d ∨ Quiet op ∧ (T d).get? key = some e)
    (he : (T (run c ops)).get? key = some e) :
    ∃ before op after, ops = before ++ op :: after ∧ Origin op (run c before) ∧
      ∀ later ∈ after, Quiet later := by
  induction ops using List.reverseRecOn with
  | nil => exact absurd (hnone.symm.trans he) (by simp)
  | append_singleton ops op ih =>
      rw [run_append] at he
      rcases hstep op (by simp) _ he with horigin | ⟨hquiet, hbefore⟩
      · exact ⟨ops, op, [], rfl, horigin, by simp⟩
      · obtain ⟨before, last, after, rfl, horigin, hafter⟩ :=
          ih (fun op hop => hstep op (List.mem_append_left _ hop)) hbefore
        refine ⟨before, last, after ++ [op], by simp, horigin, fun later hlater => ?_⟩
        rcases List.mem_append.1 hlater with h | h
        · exact hafter later h
        · exact List.mem_singleton.1 h ▸ hquiet

end Operation

/-! ### Stamps -/

/-- The time and all stamps are at least zero, and no stamp lies in the future. -/
structure Timely (c : Cache) : Prop where
  now_nonneg : 0 ≤ c.now.toInt
  positive : ∀ key e, c.positive.get? key = some e →
    0 ≤ e.storedAt.toInt ∧ e.storedAt.toInt ≤ c.now.toInt
  negative : ∀ key e, c.negative.get? key = some e →
    0 ≤ e.storedAt.toInt ∧ e.storedAt.toInt ≤ c.now.toInt

namespace Timely

variable {c : Cache}

theorem newCache (s : CacheSettings) {start : Int64} (h : 0 ≤ start) :
    Timely (s.newCache start) where
  now_nonneg := Int64.le_iff_toInt_le.1 h
  positive _ _ he := nomatch he
  negative _ _ he := nomatch he

theorem apply {op : Operation} (h : Timely c) (hloads : op.LoadsNothing)
    (hclock : c.now ≤ (op.apply c).now) : Timely (op.apply c) := by
  have hclock := Int64.le_iff_toInt_le.1 hclock
  refine ⟨Int.le_trans h.now_nonneg hclock, fun key e he => ?_, fun key e he => ?_⟩
  · rcases Operation.positive_get?_apply hloads he with ⟨ttl, -, hstamp, -⟩ | ⟨-, hbefore⟩
    · rw [hstamp]
      exact ⟨h.now_nonneg, hclock⟩
    · exact ⟨(h.positive key e hbefore).1, Int.le_trans (h.positive key e hbefore).2 hclock⟩
  · rcases Operation.negative_get?_apply hloads he with ⟨-, hstamp, -⟩ | ⟨-, hbefore⟩
    · rw [hstamp]
      exact ⟨h.now_nonneg, hclock⟩
    · exact ⟨(h.negative key e hbefore).1, Int.le_trans (h.negative key e hbefore).2 hclock⟩

theorem run {ops : List Operation} (h : Timely c) (hloads : ∀ op ∈ ops, op.LoadsNothing)
    (hclock : Operation.Forward c ops) : Timely (Operation.run c ops) := by
  induction ops generalizing c with
  | nil => exact h
  | cons op ops ih =>
      exact ih (h.apply (hloads op List.mem_cons_self) hclock.1)
        (fun op hop => hloads op (List.mem_cons_of_mem _ hop)) hclock.2

end Timely

/-! ### Keys that have expired -/

/-- A key has expired, or nothing is left of it. -/
def Gone (c : Cache) (key : String) : Prop :=
  c.Vacant key ∨ c.read key = .expired

theorem lookup_eq_none_of_gone {c : Cache} {name : String} {type : RecordType}
    (h : c.Gone (makeKey name type)) : (c.lookup name type).1 = none := by
  have hread : c.read (makeKey name type) = .absent ∨ c.read (makeKey name type) = .expired := by
    rcases h with ⟨hnegative, hpositive⟩ | hexpired
    · left
      unfold read
      rw [slot_eq_absent_iff.2 hnegative, slot_eq_absent_iff.2 hpositive]
    · exact .inr hexpired
  unfold lookup
  dsimp only
  rcases hread with hread | hread <;> rw [hread]

namespace Gone

variable {c : Cache} {key : String}

/-- The clock does not bring a key back. -/
theorem of_same {d : Cache} (h : c.Gone key) (htimely : Timely c) (hclock : c.now ≤ d.now)
    (hpositive : d.positive.get? key = c.positive.get? key)
    (hnegative : d.negative.get? key = c.negative.get? key) : d.Gone key := by
  have hslot {o : Option Entry}
      (hstamp : ∀ e, o = some e → 0 ≤ e.storedAt.toInt ∧ e.storedAt.toInt ≤ c.now.toInt)
      (hexpired : Slot.of c.now o = .expired) : Slot.of d.now o = .expired := by
    obtain ⟨e, rfl, hvacant, he⟩ := slot_eq_expired_iff.1 hexpired
    exact slot_eq_expired_iff.2 ⟨e, rfl, hvacant, Entry.isExpired_mono (hstamp e rfl) hclock he⟩
  have hnone (h : c.NoFailure key) : d.NoFailure key := fun e he => h e (hnegative ▸ he)
  rcases h with hvacant | hread
  · exact .inl ⟨hnone hvacant.1, fun e he => hvacant.2 e (hpositive ▸ he)⟩
  · right
    rw [read_eq_expired_iff, hpositive, hnegative]
    rcases read_eq_expired_iff.1 hread with hexpired | ⟨hfailure, hexpired⟩
    · exact .inl (hslot (htimely.negative key) hexpired)
    · exact .inr ⟨hnone hfailure, hslot (htimely.positive key) hexpired⟩

theorem apply {op : Operation} (h : c.Gone key) (htimely : Timely c) (hloads : op.LoadsNothing)
    (hwrites : ¬ op.Writes key) (hfails : ¬ op.Fails key) (hclock : c.now ≤ (op.apply c).now) :
    (op.apply c).Gone key := by
  by_cases hforgets : op.Forgets key
  · left
    obtain ⟨hpositive, hnegative⟩ := Operation.get?_apply_of_forgets (c := c) hforgets
    simp [Vacant, NoFailure, hpositive, hnegative]
  · rcases Operation.keeps_apply (Operation.not_disturbs hloads hwrites hfails hforgets) with
      ⟨hpositive, hnegative⟩ | ⟨-, hpositive, hnegative⟩
    · exact h.of_same htimely hclock hpositive hnegative
    · left
      simp [Vacant, NoFailure, hpositive, hnegative]

theorem run {ops : List Operation} (h : c.Gone key) (htimely : Timely c)
    (hquiet : ∀ op ∈ ops, op.LoadsNothing ∧ ¬ op.Writes key ∧ ¬ op.Fails key)
    (hclock : Operation.Forward c ops) : (Operation.run c ops).Gone key := by
  induction ops generalizing c with
  | nil => exact h
  | cons op ops ih =>
      obtain ⟨hloads, hwrites, hfails⟩ := hquiet op List.mem_cons_self
      exact ih (h.apply htimely hloads hwrites hfails hclock.1) (htimely.apply hloads hclock.1)
        (fun op hop => hquiet op (List.mem_cons_of_mem _ hop)) hclock.2

end Gone

/-! ### Runs -/

theorem toNat_clampTtl (c : Cache) (ttl : UInt32) :
    (c.clampTtl ttl).toNat = min ttl.toNat c.positiveTtl.toNat := by
  unfold clampTtl
  split
  · rename_i h
    exact (Nat.min_eq_left (UInt32.le_iff_toNat_le.1 h)).symm
  · rename_i h
    exact (Nat.min_eq_right (Nat.le_of_not_le fun hle => h (UInt32.le_iff_toNat_le.2 hle))).symm

namespace Operation

/-- In a run of a new cache, with a clock that starts at zero or later and never goes back, no
answer is older than it may be.  A record set that a lookup answers was written by the last
operation that wrote its key, not longer ago than the time to live that it was given, nor than the
limit of the settings, and the key was not deleted since.  A failure was recorded by the last
operation that recorded one for the key, not longer ago than failures live.  And a key that is found
expired misses until it is written again. -/
theorem answers_within_lifetime (s : CacheSettings) {start : Int64} (hstart : 0 ≤ start)
    {ops : List Operation} (hloads : ∀ op ∈ ops, op.LoadsNothing)
    (hclock : Forward (s.newCache start) ops) (name : String) (type : RecordType) :
    let past := run (s.newCache start)
    let c := past ops
    let key := makeKey name type
    (∀ e, (c.lookup name type).1 = some ⟨e, false⟩ →
      ∃ before op after ttl, ops = before ++ op :: after ∧ op.Gives key ttl ∧
        (∀ later ∈ after, ¬ later.Writes key ∧ ¬ later.Forgets key) ∧
        c.now.toInt - (past before).now.toInt ≤ min ttl.toNat s.positiveTtl.toNat) ∧
    (∀ e, (c.lookup name type).1 = some ⟨e, true⟩ →
      ∃ before op after, ops = before ++ op :: after ∧ op.Fails key ∧
        (∀ later ∈ after, ¬ later.Fails key ∧ ¬ later.Forgets key) ∧
        c.now.toInt - (past before).now.toInt ≤ s.negativeTtl.toNat) ∧
    (c.read key = .expired → ∀ later,
      (∀ op ∈ later, op.LoadsNothing ∧ ¬ op.Writes key ∧ ¬ op.Fails key) → Forward c later →
      ((run c later).lookup name type).1 = none) := by
  dsimp only
  have htimely := (Timely.newCache s hstart).run hloads hclock
  have hsettings (before : List Operation) := (s.newCache start).sameSettings_run before
  refine ⟨fun e he => ?_, fun e he => ?_, fun hexpired later hquiet hforward => ?_⟩
  · obtain ⟨-, hpositive, -, hlive⟩ := found?_eq_some_iff.1 (lookup_eq_some_false_iff.1 he)
    obtain ⟨before, op, after, hops, ⟨ttl, hgives, hstamp, httl⟩, hafter⟩ :=
      exists_last (T := Cache.positive) rfl
        (fun op hop _ => positive_get?_apply (hloads op hop)) hpositive
    refine ⟨before, op, after, ttl, hops, hgives, hafter, ?_⟩
    have hage := Entry.age_le_of_live (htimely.positive _ _ hpositive) hlive
    rw [httl, toNat_clampTtl, (hsettings before).1, hstamp] at hage
    exact hage
  · obtain ⟨hnegative, -, hlive⟩ := read_eq_negative_iff.1 (lookup_eq_some_true_iff.1 he)
    obtain ⟨before, op, after, hops, ⟨hfails, hstamp, httl⟩, hafter⟩ :=
      exists_last (T := Cache.negative) rfl
        (fun op hop _ => negative_get?_apply (hloads op hop)) hnegative
    refine ⟨before, op, after, hops, hfails, hafter, ?_⟩
    have hage := Entry.age_le_of_live (htimely.negative _ _ hnegative) hlive
    rw [httl, (hsettings before).2, hstamp] at hage
    exact hage
  · exact lookup_eq_none_of_gone (Gone.run (.inr hexpired) htimely hquiet hforward)

/-- A record set that is renewed under another spelling of its name, and one that is not. -/
def renewedOperations : List Operation :=
  [.set "www.example" .a ["192.0.2.1"] 300 12, .set "old.example" .txt ["now"] 5 0, .advance 200,
    .addValue "WWW.Example." .a 7200 "192.0.2.2", .setNegative "www.example" .mx "refused",
    .advance 50]

/-- The theorem at work: what was renewed counts from its renewal, and what was not is gone. -/
theorem answers_within_lifetime_renewed :
    let past := run (({} : CacheSettings).newCache 0)
    let c := past renewedOperations
    (c.lookup "www.example" .a).1 =
      some ⟨{ values := ["192.0.2.1", "192.0.2.2"], ttl := 3600, rttMs := 12, storedAt := 200 },
        false⟩ ∧
    (∃ before op after ttl, renewedOperations = before ++ op :: after ∧
      op.Gives (makeKey "www.example" .a) ttl ∧
      c.now.toInt - (past before).now.toInt ≤ (min ttl.toNat 3600 : Nat)) ∧
    ((run c [.zoneFor "old.example", .advance 100]).lookup "old.example" .txt).1 = none := by
  have hloads : ∀ op ∈ renewedOperations, op.LoadsNothing := by
    simp [renewedOperations, LoadsNothing]
  have hclock : Forward (({} : CacheSettings).newCache 0) renewedOperations := by decide +kernel
  have hfound : ((run (({} : CacheSettings).newCache 0) renewedOperations).lookup
      "www.example" .a).1 = some
        ⟨{ values := ["192.0.2.1", "192.0.2.2"], ttl := 3600, rttMs := 12, storedAt := 200 },
          false⟩ := by decide +kernel
  obtain ⟨hrenewed, -, -⟩ := answers_within_lifetime {} (by decide) hloads hclock "www.example" .a
  obtain ⟨-, -, hgone⟩ := answers_within_lifetime {} (by decide) hloads hclock "old.example" .txt
  obtain ⟨before, op, after, ttl, hops, hgives, -, hage⟩ := hrenewed _ hfound
  refine ⟨hfound, ⟨before, op, after, ttl, hops, hgives, hage⟩, hgone (by decide +kernel) _ ?_ ?_⟩
  · simp [LoadsNothing, Writes, given, Fails]
  · decide +kernel

end Operation

end Cache

end CachingResolver
