import CachingResolver.Cache.RootHints
import CachingResolver.Cache.Snapshot
import CachingResolver.Proofs.Cache.EnclosingZone
import CachingResolver.Proofs.Cache.Storing

/-!
# Runs of operations on the cache

The operations on a cache as values, so that statements can range over their sequences.  Dumping and
listing a cache do not change it, and a file that cannot be read loads nothing, so they are not
among them.

An operation that does not disturb a key leaves it as it was, or removes it as expired
(`keeps_apply`).  A stored record set therefore answers until it expires (`found?_run`), unless a
failure was on record for its key: then no read answers with it, ever (`hidden_run`).
-/

namespace CachingResolver.Cache

inductive Operation where
  | set (name : String) (type : RecordType) (values : List String) (ttl rttMs : UInt32)
  | addValue (name : String) (type : RecordType) (ttl : UInt32) (value : String)
  | storeWithGlue (records additionals : List ResourceRecord) (rttMs : UInt32)
  | loadRoots (octets : List UInt8)
  | setNegative (name : String) (type : RecordType) (reason : String)
  | delete (name : String) (type : RecordType)
  | load (octets : List UInt8)
  | lookup (name : String) (type : RecordType)
  | get (name : String) (type : RecordType)
  | getPositive (name : String) (type : RecordType)
  | isNegative (name : String) (type : RecordType)
  | zoneFor (name : String)
  | advance (seconds : Int64)

/-- The pairs that storing a hint puts into the table of record sets. -/
def hintPairs (c : Cache) (h : RootHint) : List (String × Entry) :=
  (makeKey h.server .a, c.hintEntry [h.v4.text]) ::
    match h.v6 with
    | some x => [(makeKey h.server .aaaa, c.hintEntry [x.text])]
    | none => []

/-- The pairs that storing hints puts into the table of record sets. -/
def hintsPairs (c : Cache) (hints : List RootHint) : List (String × Entry) :=
  let servers := (hints.map (·.server)).eraseDups
  hints.flatMap c.hintPairs ++
    if servers.isEmpty then [] else [(makeKey Name.root .ns, c.hintEntry servers)]

namespace Operation

def apply (c : Cache) : Operation → Cache
  | set name type values ttl rttMs => c.set name type values ttl rttMs
  | addValue name type ttl value => c.addValue name type ttl value
  | storeWithGlue records additionals rttMs => (c.storeWithGlue records additionals rttMs).2
  | loadRoots octets => (c.loadRoots octets).2
  | setNegative name type reason => c.setNegative name type reason
  | delete name type => c.delete name type
  | load octets => (c.load octets).2
  | lookup name type => (c.lookup name type).2
  | get name type => (c.get? name type).2
  | getPositive name type => (c.getPositive? name type).2
  | isNegative name type => (c.isNegative name type).2
  | zoneFor name => (c.zoneFor name).2
  | advance seconds => c.advance seconds

def run (c : Cache) (ops : List Operation) : Cache :=
  ops.foldl apply c

/-- The keys and entries that an operation stores in the table of record sets, in this order. -/
def stored (c : Cache) : Operation → List (String × Entry)
  | set name type values ttl rttMs =>
    [(makeKey name type, { values, ttl := c.clampTtl ttl, rttMs, storedAt := c.now })]
  | addValue name type ttl value =>
    let old := (c.positive.get? (makeKey name type)).getD .vacant
    let kept := if old.isExpired c.now then { old with values := [] } else old
    [(makeKey name type,
      { kept.addValue value with ttl := c.clampTtl ttl, storedAt := c.now })]
  | storeWithGlue records additionals rttMs =>
    (setsWithGlue records additionals).map fun s => (s.key, c.freshEntry rttMs s)
  | loadRoots octets => c.hintsPairs (RootHint.ofFile octets)
  | _ => []

/-- The operation stores an entry under a key.  Of several entries the last counts. -/
def Stores (op : Operation) (c : Cache) (key : String) (e : Entry) : Prop :=
  ((∅ : Table Entry).insertAll (op.stored c)).get? key = some e

/-- The operation stores, forgets or loads something under a key, or remembers that it failed. -/
def Disturbs (op : Operation) (c : Cache) (key : String) : Prop :=
  (∃ p ∈ op.stored c, p.1 = key) ∨
    match op with
    | setNegative name type _ => makeKey name type = key
    | delete name type => makeKey name type = key
    | load octets => ∃ s, Snapshot.decode? octets = some s ∧
        ((s.positive.get? key).isSome = true ∨ (s.negative.get? key).isSome = true)
    | _ => False

/-- No operation of a sequence disturbs a key, and the clock never goes back. -/
def Spares (key : String) (c : Cache) : List Operation → Prop
  | [] => True
  | op :: ops => ¬ op.Disturbs c key ∧ c.now ≤ (op.apply c).now ∧ Spares key (op.apply c) ops

end Operation

/-! ### What the operations store -/

section Storing

variable (c : Cache)

theorem putHint_eq (h : RootHint) :
    c.putHint h = { c with positive := c.positive.insertAll (c.hintPairs h) } := by
  unfold putHint hintPairs
  cases h.v6 <;> rfl

theorem foldl_putHint (hints : List RootHint) :
    hints.foldl putHint c =
      { c with positive := c.positive.insertAll (hints.flatMap c.hintPairs) } := by
  induction hints generalizing c with
  | nil => rfl
  | cons h hints ih =>
      rw [List.foldl_cons, ih, putHint_eq, List.flatMap_cons, Table.insertAll_append]
      rfl

theorem loadHints_snd (hints : List RootHint) :
    (c.loadHints hints).2 = { c with positive := c.positive.insertAll (c.hintsPairs hints) } := by
  unfold loadHints hintsPairs
  dsimp only
  rw [foldl_putHint]
  split
  · rw [List.append_nil]
  · rw [Table.insertAll_append]
    rfl

theorem storedAt_of_mem_hintPairs {h : RootHint} {p : String × Entry} (hp : p ∈ c.hintPairs h) :
    p.2.storedAt = c.now := by
  unfold hintPairs at hp
  cases hv6 : h.v6 with
  | none =>
      rw [hv6] at hp
      obtain rfl := List.mem_singleton.1 hp
      rfl
  | some x =>
      rw [hv6] at hp
      rcases List.mem_cons.1 hp with rfl | hp
      · rfl
      · obtain rfl := List.mem_singleton.1 hp
        rfl

theorem storedAt_of_mem_hintsPairs {hints : List RootHint} {p : String × Entry}
    (hp : p ∈ c.hintsPairs hints) : p.2.storedAt = c.now := by
  unfold hintsPairs at hp
  rcases List.mem_append.1 hp with hp | hp
  · obtain ⟨h, -, hp⟩ := List.mem_flatMap.1 hp
    exact c.storedAt_of_mem_hintPairs hp
  · split at hp
    · cases hp
    · obtain rfl := List.mem_singleton.1 hp
      rfl

end Storing

namespace Operation

variable {c : Cache} {op : Operation} {key : String} {e : Entry}

/-- An operation that stores something does nothing else to the tables. -/
theorem apply_of_stored (h : op.stored c ≠ []) :
    (op.apply c).positive = c.positive.insertAll (op.stored c) ∧
      (op.apply c).negative = c.negative ∧ (op.apply c).now = c.now := by
  cases op with
  | set name type values ttl rttMs => exact ⟨rfl, rfl, rfl⟩
  | addValue name type ttl value => exact ⟨rfl, rfl, rfl⟩
  | storeWithGlue records additionals rttMs =>
      have hafter : (storeWithGlue records additionals rttMs).apply c =
          c.storeAll rttMs (setsWithGlue records additionals) :=
        storeWithGlue_snd c rttMs records additionals
      rw [hafter]
      exact ⟨storeAll_positive c rttMs _, storeAll_negative c rttMs _, storeAll_now c rttMs _⟩
  | loadRoots octets =>
      have hafter := c.loadHints_snd (RootHint.ofFile octets)
      show (c.loadHints (RootHint.ofFile octets)).2.positive = _ ∧
        (c.loadHints (RootHint.ofFile octets)).2.negative = _ ∧
        (c.loadHints (RootHint.ofFile octets)).2.now = _
      rw [hafter]
      exact ⟨rfl, rfl, rfl⟩
  | setNegative | delete | load | lookup | get | getPositive | isNegative | zoneFor | advance =>
      exact absurd rfl h

/-- All that is stored bears the time at which it is stored. -/
theorem storedAt_of_mem_stored {p : String × Entry} (h : p ∈ op.stored c) :
    p.2.storedAt = c.now := by
  cases op with
  | set name type values ttl rttMs =>
      obtain rfl := List.mem_singleton.1 h
      rfl
  | addValue name type ttl value =>
      obtain rfl := List.mem_singleton.1 h
      rfl
  | storeWithGlue records additionals rttMs =>
      obtain ⟨s, -, rfl⟩ := List.mem_map.1 h
      rfl
  | loadRoots octets => exact storedAt_of_mem_hintsPairs c h
  | setNegative | delete | load | lookup | get | getPositive | isNegative | zoneFor | advance =>
      exact absurd h List.not_mem_nil

theorem mem_stored_of_stores (h : op.Stores c key e) :
    (key, e) ∈ op.stored c ∧ ∀ t : Table Entry, (t.insertAll (op.stored c)).get? key = some e := by
  unfold Stores at h
  have hkey : ∃ p ∈ op.stored c, p.1 = key := by
    by_contra hnone
    push Not at hnone
    rw [Table.get?_insertAll_of_forall_ne _ hnone] at h
    cases h
  obtain ⟨f, hmem, hget⟩ := Table.exists_get?_insertAll hkey
  obtain rfl : f = e := Option.some.inj ((hget ∅).symm.trans h)
  exact ⟨hmem, hget⟩

/-- What an operation stores is there afterwards, stamped with the time. -/
theorem get?_apply_of_stores (h : op.Stores c key e) :
    (op.apply c).positive.get? key = some e ∧ e.storedAt = (op.apply c).now := by
  obtain ⟨hmem, hget⟩ := mem_stored_of_stores h
  obtain ⟨hpositive, -, hnow⟩ := apply_of_stored (List.ne_nil_of_mem hmem)
  rw [hpositive, hnow]
  exact ⟨hget _, storedAt_of_mem_stored hmem⟩

/-- An operation that stores something leaves the failures on record alone. -/
theorem negative_apply_of_stores (h : op.Stores c key e) : (op.apply c).negative = c.negative := by
  obtain ⟨hmem, -⟩ := mem_stored_of_stores h
  exact (apply_of_stored (List.ne_nil_of_mem hmem)).2.1

theorem noFailure_apply_of_stores (h : op.Stores c key e) {other : String} :
    (op.apply c).NoFailure other ↔ c.NoFailure other := by
  unfold NoFailure
  rw [negative_apply_of_stores h]

/-- An operation that stores, but not under a key, keeps it. -/
theorem keeps_apply_of_stored (hstored : op.stored c ≠ []) (h : ∀ p ∈ op.stored c, p.1 ≠ key) :
    Keeps c (op.apply c) key := by
  obtain ⟨hpositive, hnegative, -⟩ := apply_of_stored hstored
  refine .inl ⟨?_, by rw [hnegative]⟩
  rw [hpositive, Table.get?_insertAll_of_forall_ne _ h]

theorem keeps_load (octets : List UInt8)
    (h : ∀ s, Snapshot.decode? octets = some s →
      s.positive.get? key = none ∧ s.negative.get? key = none) :
    Keeps c (c.load octets).2 key := by
  unfold Cache.load
  cases hs : Snapshot.decode? octets with
  | none => exact .inl ⟨rfl, rfl⟩
  | some s =>
      obtain ⟨hpositive, hnegative⟩ := h s hs
      exact .inl ⟨Table.get?_overlay_of_eq_none _ hpositive,
        Table.get?_overlay_of_eq_none _ hnegative⟩

/-- An operation that does not disturb a key keeps it, or removes it as expired. -/
theorem keeps_apply (h : ¬ op.Disturbs c key) : Keeps c (op.apply c) key := by
  obtain ⟨hstored, hrest⟩ := not_or.1 h
  have hstored : ∀ p ∈ op.stored c, p.1 ≠ key := fun p hp hkey => hstored ⟨p, hp, hkey⟩
  by_cases hnil : op.stored c = []
  · cases op with
    | set | addValue => cases hnil
    | storeWithGlue records additionals rttMs =>
        -- Only the empty list of records stores nothing.
        cases records with
        | nil => exact .inl ⟨rfl, rfl⟩
        | cons first rest => cases hnil
    | loadRoots octets =>
        have hafter := c.loadHints_snd (RootHint.ofFile octets)
        have hpairs : c.hintsPairs (RootHint.ofFile octets) = [] := hnil
        show Keeps c (c.loadHints (RootHint.ofFile octets)).2 key
        rw [hafter, hpairs]
        exact .inl ⟨rfl, rfl⟩
    | setNegative name type reason =>
        refine .inl ⟨rfl, ?_⟩
        show (c.negative.insert (makeKey name type) _).get? key = _
        rw [Table.get?_insert, if_neg hrest]
    | delete name type =>
        refine .inl ⟨?_, ?_⟩
        · show (c.positive.erase (makeKey name type)).get? key = _
          rw [Table.get?_erase, if_neg hrest]
        · show (c.negative.erase (makeKey name type)).get? key = _
          rw [Table.get?_erase, if_neg hrest]
    | load octets =>
        refine keeps_load octets fun s hs => ?_
        have hnone : ∀ s, Snapshot.decode? octets = some s →
            ¬ ((s.positive.get? key).isSome = true ∨ (s.negative.get? key).isSome = true) :=
          fun s hs hsome => hrest ⟨s, hs, hsome⟩
        simpa using hnone s hs
    | lookup name type => exact (sweeps_lookup c name type).keeps key
    | get name type => exact (sweeps_get? c name type).keeps key
    | getPositive name type => exact (sweeps_getPositive? c name type).keeps key
    | isNegative name type => exact (sweeps_isNegative c name type).keeps key
    | zoneFor name => exact (sweeps_zoneFor c name).keeps key
    | advance seconds => exact .inl ⟨rfl, rfl⟩
  · exact keeps_apply_of_stored hnil hstored

/-! ### Runs -/

theorem now_le_now_run {ops : List Operation} (h : Spares key c ops) : c.now ≤ (run c ops).now := by
  induction ops generalizing c with
  | nil => exact Int64.le_refl _
  | cons op ops ih =>
      obtain ⟨-, hstep, hrest⟩ := h
      exact Int64.le_trans hstep (ih hrest)

/-- A hidden key stays hidden as long as nothing disturbs it. -/
theorem hidden_run {ops : List Operation} (h : Spares key c ops) (hc : c.Hidden key) :
    (run c ops).Hidden key := by
  induction ops generalizing c with
  | nil => exact hc
  | cons op ops ih =>
      obtain ⟨hdisturbs, -, hrest⟩ := h
      exact ih hrest ((keeps_apply hdisturbs).hidden hc)

/-- A record set without a failure on record for its key answers as long as it is not disturbed and
not older than its time to live. -/
theorem found?_run {ops : List Operation} (h : Spares key c ops) (hnone : c.NoFailure key)
    (he : c.positive.get? key = some e) (hne : e.values ≠ [])
    (hfrom : e.storedAt.toInt ≤ c.now.toInt)
    (hto : (run c ops).now.toInt ≤ e.storedAt.toInt + e.ttl.toNat) :
    (run c ops).found? key = some e := by
  induction ops generalizing c with
  | nil => exact found?_of_stored hnone he hne hfrom hto
  | cons op ops ih =>
      have hnow := Int64.le_iff_toInt_le.1 (now_le_now_run h)
      -- The entry is live before the step, so the step does not remove it as expired.
      have hfound := found?_of_stored hnone he hne hfrom (by omega)
      obtain ⟨hdisturbs, hstep, hrest⟩ := h
      have hkeeps := keeps_apply hdisturbs
      have hlater : e.storedAt.toInt ≤ (op.apply c).now.toInt :=
        Int.le_trans hfrom (Int64.le_iff_toInt_le.1 hstep)
      exact ih hrest (hkeeps.noFailure hnone) (hkeeps.positive_of_found? hfound) hlater hto

/-- What the tables hold under a key that nothing disturbs stays there together, or is gone from
both. -/
theorem kept_or_gone_run {ops : List Operation} (h : Spares key c ops) :
    ((run c ops).positive.get? key = c.positive.get? key ∧
      (run c ops).negative.get? key = c.negative.get? key) ∨
    ((run c ops).positive.get? key = none ∧ (run c ops).negative.get? key = none) := by
  induction ops generalizing c with
  | nil => exact .inl ⟨rfl, rfl⟩
  | cons op ops ih =>
      obtain ⟨hdisturbs, -, hrest⟩ := h
      rcases ih hrest with ⟨hpositive, hnegative⟩ | hgone
      · rcases keeps_apply hdisturbs with ⟨hp, hn⟩ | ⟨-, hp, hn⟩
        · exact .inl ⟨hpositive.trans hp, hnegative.trans hn⟩
        · exact .inr ⟨hpositive.trans hp, hnegative.trans hn⟩
      · exact .inr hgone

/-- A stored record set with values answers every lookup of its key up to its time to live later,
if nothing else happens to the key, exactly when no failure was on record for the key as it was
stored.  A failure that is too old counts: it and the record set stay until a read removes both, and
the first read that finds it too old removes both and misses. -/
theorem lookup_run_eq_stored_iff {ops : List Operation} {name : String} {type : RecordType}
    (hstores : op.Stores c (makeKey name type) e) (hne : e.values ≠ [])
    (hspares : Spares (makeKey name type) (op.apply c) ops)
    (hto : (run (op.apply c) ops).now.toInt ≤ e.storedAt.toInt + e.ttl.toNat) :
    let key := makeKey name type
    let d := run (op.apply c) ops
    ((d.lookup name type).1 = some ⟨e, false⟩ ↔ c.NoFailure key) ∧
      ∀ f, c.negative.get? key = some f → f.isVacant = false →
        (d.positive.get? key = some e ∧ d.negative.get? key = some f ∨
          d.positive.get? key = none ∧ d.negative.get? key = none) ∧
        (d.negative.get? key = some f → f.isExpired d.now = true →
          (d.lookup name type).1 = none ∧
            (d.lookup name type).2.positive.get? key = none ∧
            (d.lookup name type).2.negative.get? key = none) := by
  obtain ⟨hpositive, hstamp⟩ := get?_apply_of_stores hstores
  have hnone : (op.apply c).NoFailure (makeKey name type) ↔ c.NoFailure (makeKey name type) :=
    noFailure_apply_of_stores hstores
  dsimp only
  refine ⟨?_, fun f hf hvacant => ⟨?_, fun hstays hexpired => ?_⟩⟩
  · rw [lookup_eq_some_false_iff, ← hnone]
    constructor
    · intro hfound
      by_contra hfailure
      -- The failure stays on record for as long as the record set is there.
      have hhidden : (op.apply c).Hidden (makeKey name type) := fun h => absurd h hfailure
      exact hne (values_eq_nil_of_hidden (hidden_run hspares hhidden) hfound)
    · intro h
      have hfrom := Int.le_of_eq (congrArg Int64.toInt hstamp)
      exact found?_run hspares h hpositive hne hfrom hto
  · rw [← hpositive, ← hf, ← negative_apply_of_stores hstores]
    exact kept_or_gone_run hspares
  · have hread : (run (op.apply c) ops).read (makeKey name type) = .expired :=
      read_eq_expired_iff.2 (.inl (slot_eq_expired_iff.2 ⟨f, hstays, hvacant, hexpired⟩))
    exact lookup_of_read_eq_expired hread

/-- The theorem at work: reads and time do not take away what was stored under a key without a
failure, and the first read after a failure has expired takes away both. -/
theorem lookup_run_stored_alias :
    ((run (apply {} (set "alias.example" .cname ["target.example."] 300 12))
        [.lookup "alias.example" .a, .advance 300, .zoneFor "alias.example"]).lookup
      "ALIAS.example." .cname).1 =
      some ⟨{ values := ["target.example."], ttl := 300, rttMs := 12, storedAt := 0 }, false⟩ ∧
    let c := run {} [.setNegative "alias.example" .cname "refused", .advance 50]
    let d := run (apply c (set "alias.example" .cname ["target.example."] 300 12))
      [.lookup "alias.example" .cname, .advance 11]
    (d.positive.get? (makeKey "ALIAS.example." .cname)).isSome = true ∧
      (d.lookup "ALIAS.example." .cname).1 = none ∧
      (d.lookup "ALIAS.example." .cname).2.positive.get? (makeKey "ALIAS.example." .cname) =
        none := by
  refine ⟨(lookup_run_eq_stored_iff ?_ ?_ ?_ ?_).1.2 ?_, ?_⟩
  · unfold Stores
    decide +kernel
  · decide
  · refine ⟨?_, by decide +kernel, ?_, by decide +kernel, ?_, by decide +kernel, trivial⟩
    all_goals
      rintro (⟨p, hp, -⟩ | h)
      · cases hp
      · exact h
  · decide +kernel
  · intro f hf
    cases hf
  · intro c d
    have hstores : Stores (set "alias.example" .cname ["target.example."] 300 12) c
        (makeKey "ALIAS.example." .cname)
        { values := ["target.example."], ttl := 300, rttMs := 12, storedAt := 50 } := by
      unfold Stores
      decide +kernel
    have hspares : Spares (makeKey "ALIAS.example." .cname)
        (apply c (set "alias.example" .cname ["target.example."] 300 12))
        [.lookup "alias.example" .cname, .advance 11] := by
      refine ⟨?_, by decide +kernel, ?_, by decide +kernel, trivial⟩
      all_goals
        rintro (⟨p, hp, -⟩ | h)
        · cases hp
        · exact h
    obtain ⟨-, hfailure⟩ :=
      lookup_run_eq_stored_iff hstores (by decide) hspares (by decide +kernel)
    obtain ⟨-, hmisses⟩ :=
      hfailure { values := ["refused"], ttl := 60 } (by decide +kernel) (by decide)
    obtain ⟨hmiss, hgone, -⟩ := hmisses (by decide +kernel) (by decide +kernel)
    exact ⟨by decide +kernel, hmiss, hgone⟩

/-- A failure that is too old, but was not read since, makes a fresh record set disappear on the
next read of its key. -/
theorem lost_behind_expired_failure :
    ¬ ∀ (c : Cache) (op : Operation) (ops : List Operation) (name : String) (type : RecordType)
        (e : Entry), op.Stores c (makeKey name type) e → e.values ≠ [] →
        (∀ f, c.read (makeKey name type) ≠ .negative f) →
        Spares (makeKey name type) (op.apply c) ops →
        (run (op.apply c) ops).now.toInt ≤ e.storedAt.toInt + e.ttl.toNat →
        ((run (op.apply c) ops).lookup name type).1 = some ⟨e, false⟩ := by
  intro hclaim
  let c := run {} [.setNegative "x.example" .a "refused", .advance 61]
  have hread : c.read (makeKey "x.example" .a) = .expired := by decide +kernel
  have hlookup := hclaim c (.set "x.example" .a ["192.0.2.7"] 300 0) [] "x.example" .a
    { values := ["192.0.2.7"], ttl := 300, storedAt := 61 } (by unfold Stores; decide +kernel)
    (by decide) (by simp [hread]) trivial (by decide +kernel)
  exact absurd hlookup (by decide +kernel)

end Operation

end CachingResolver.Cache
