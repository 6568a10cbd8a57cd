import CachingResolver.Proofs.Cache.History

/-!
# What operations on the cache answer

`answers` lists what a sequence of operations answers, one after the other.  No operation looks at
the counters, so caches that differ in nothing else give the same answers and stay alike
(`Counted.answers_eq`, `Counted.run`).  No operation changes the settings (`sameSettings_run`).
-/

namespace CachingResolver.Cache

/-- What an operation tells the one who asked for it. -/
inductive Answer where
  | done
  | found (answer : Option CachedAnswer)
  | entry (entry : Option Entry)
  | flag (isNegative : Bool)
  | zone (zone : Zone)
  | stored (count : Nat)
  | loaded (count : Except Failure Nat)

namespace Operation

def answer (c : Cache) : Operation → Answer
  | set .. | addValue .. | setNegative .. | delete .. | advance .. => .done
  | storeWithGlue records additionals rttMs =>
    .stored (c.storeWithGlue records additionals rttMs).1
  | loadRoots octets => .stored (c.loadRoots octets).1
  | load octets => .loaded (c.load octets).1
  | lookup name type => .found (c.lookup name type).1
  | get name type => .entry (c.get? name type).1
  | getPositive name type => .entry (c.getPositive? name type).1
  | isNegative name type => .flag (c.isNegative name type).1
  | zoneFor name => .zone (c.zoneFor name).1

/-- What a sequence of operations answers. -/
def answers (c : Cache) : List Operation → List Answer
  | [] => []
  | op :: ops => op.answer c :: answers (op.apply c) ops

end Operation

/-! ### Settings -/

/-- The settings of two caches are the same. -/
def SameSettings (c d : Cache) : Prop :=
  d.positiveTtl = c.positiveTtl ∧ d.negativeTtl = c.negativeTtl

theorem Sweeps.sameSettings {c d : Cache} (h : Sweeps c d) : SameSettings c d :=
  ⟨h.positiveTtl_eq, h.negativeTtl_eq⟩

section Settings

variable (c : Cache)

theorem storeAll_negativeTtl (rttMs : UInt32) (sets : List RecordSet) :
    (c.storeAll rttMs sets).negativeTtl = c.negativeTtl := by
  induction sets generalizing c with
  | nil => rfl
  | cons s sets ih =>
      rw [storeAll_cons, ih]
      rfl

theorem sameSettings_storeWithGlue (records additionals : List ResourceRecord) (rttMs : UInt32) :
    SameSettings c (c.storeWithGlue records additionals rttMs).2 := by
  rw [storeWithGlue_snd]
  exact ⟨storeAll_positiveTtl c rttMs _, storeAll_negativeTtl c rttMs _⟩

theorem sameSettings_loadRoots (octets : List UInt8) : SameSettings c (c.loadRoots octets).2 := by
  unfold loadRoots
  rw [loadHints_snd]
  exact ⟨rfl, rfl⟩

theorem sameSettings_load (octets : List UInt8) : SameSettings c (c.load octets).2 := by
  unfold load
  split <;> exact ⟨rfl, rfl⟩

theorem sameSettings_apply (op : Operation) : SameSettings c (op.apply c) := by
  cases op with
  | set | addValue | setNegative | delete | advance => exact ⟨rfl, rfl⟩
  | storeWithGlue records additionals rttMs =>
      exact c.sameSettings_storeWithGlue records additionals rttMs
  | loadRoots octets => exact c.sameSettings_loadRoots octets
  | load octets => exact c.sameSettings_load octets
  | lookup name type => exact (sweeps_lookup c name type).sameSettings
  | get name type => exact (sweeps_get? c name type).sameSettings
  | getPositive name type => exact (sweeps_getPositive? c name type).sameSettings
  | isNegative name type => exact (sweeps_isNegative c name type).sameSettings
  | zoneFor name => exact (sweeps_zoneFor c name).sameSettings

theorem sameSettings_run (ops : List Operation) : SameSettings c (Operation.run c ops) := by
  induction ops generalizing c with
  | nil => exact ⟨rfl, rfl⟩
  | cons op ops ih =>
      obtain ⟨hpositive, hnegative⟩ := c.sameSettings_apply op
      obtain ⟨ihpositive, ihnegative⟩ := ih (op.apply c)
      exact ⟨ihpositive.trans hpositive, ihnegative.trans hnegative⟩

end Settings

/-! ### Reads up to the counters -/

namespace Counted

variable {c d : Cache}

theorem lookup_snd (h : Counted c d) (name : String) (type : RecordType) :
    Counted (c.lookup name type).2 (d.lookup name type).2 := by
  obtain ⟨f, rfl⟩ := h
  have hsame : (c.count f).read (makeKey name type) = c.read (makeKey name type) := rfl
  unfold lookup
  dsimp only
  rw [hsame]
  cases c.read (makeKey name type) with
  | negative e | positive e | expired | absent => exact ⟨fun _ => _, rfl⟩

theorem lookup_fst (h : Counted c d) (name : String) (type : RecordType) :
    (d.lookup name type).1 = (c.lookup name type).1 :=
  h.sweeps.lookup_fst_eq name type

theorem readAddresses_snd (h : Counted c d) (server : String) (type : RecordType) :
    Counted (c.readAddresses server type).2 (d.readAddresses server type).2 := by
  rw [Cache.readAddresses_snd, Cache.readAddresses_snd]
  exact h.lookup_snd server type

theorem foldl_readServer_snd (h : Counted c d) (servers : List String) (zone zone' : Zone) :
    Counted (servers.foldl readServer (zone, c)).2 (servers.foldl readServer (zone', d)).2 := by
  induction servers generalizing c d zone zone' with
  | nil => exact h
  | cons server servers ih =>
      exact ih ((h.readAddresses_snd server .a).readAddresses_snd server .aaaa) _ _

theorem firstCachedZone_snd (h : Counted c d) (names : List String) :
    Counted (c.firstCachedZone names).2 (d.firstCachedZone names).2 := by
  induction names generalizing c d with
  | nil => exact h
  | cons name names ih =>
      have hread : Counted (c.getPositive? name .ns).2 (d.getPositive? name .ns).2 :=
        h.lookup_snd name .ns
      unfold firstCachedZone
      dsimp only
      rw [getPositive?_fst, getPositive?_fst, h.sweeps.found?_eq]
      cases c.found? (makeKey name .ns) with
      | none => exact ih hread
      | some e =>
          dsimp only
          split
          · exact ih hread
          · exact hread.foldl_readServer_snd _ _ _

theorem zoneFor_fst (h : Counted c d) (name : String) :
    (d.zoneFor name).1 = (c.zoneFor name).1 := by
  rw [Cache.zoneFor_fst, Cache.zoneFor_fst, h.sweeps.firstZone_eq]

/-! ### Operations up to the counters -/

theorem load_snd (h : Counted c d) (octets : List UInt8) :
    Counted (c.load octets).2 (d.load octets).2 := by
  obtain ⟨f, rfl⟩ := h
  unfold load
  cases Snapshot.decode? octets with
  | none | some s => exact ⟨f, rfl⟩

theorem load_fst (c d : Cache) (octets : List UInt8) :
    (d.load octets).1 = (c.load octets).1 := by
  unfold load
  cases Snapshot.decode? octets with
  | none | some s => rfl

theorem store (h : Counted c d) (rttMs : UInt32) (s : RecordSet) :
    Counted (c.store rttMs s) (d.store rttMs s) := by
  obtain ⟨f, rfl⟩ := h
  exact ⟨fun _ => _, rfl⟩

theorem storeAll (h : Counted c d) (rttMs : UInt32) (sets : List RecordSet) :
    Counted (c.storeAll rttMs sets) (d.storeAll rttMs sets) := by
  induction sets generalizing c d with
  | nil => exact h
  | cons s sets ih => exact ih (h.store rttMs s)

theorem storeWithGlue_fst (c d : Cache) (records additionals : List ResourceRecord)
    (rttMs : UInt32) :
    (d.storeWithGlue records additionals rttMs).1 =
      (c.storeWithGlue records additionals rttMs).1 := by
  cases records with
  | nil => rfl
  | cons first rest =>
      unfold storeWithGlue
      dsimp only
      split <;> rfl

theorem storeWithGlue_snd (h : Counted c d) (records additionals : List ResourceRecord)
    (rttMs : UInt32) :
    Counted (c.storeWithGlue records additionals rttMs).2
      (d.storeWithGlue records additionals rttMs).2 := by
  rw [Cache.storeWithGlue_snd, Cache.storeWithGlue_snd]
  exact h.storeAll rttMs _

theorem loadRoots_fst (c d : Cache) (octets : List UInt8) :
    (d.loadRoots octets).1 = (c.loadRoots octets).1 := by
  unfold loadRoots loadHints
  dsimp only
  split <;> rfl

theorem loadRoots_snd (h : Counted c d) (octets : List UInt8) :
    Counted (c.loadRoots octets).2 (d.loadRoots octets).2 := by
  obtain ⟨f, rfl⟩ := h
  unfold loadRoots
  rw [loadHints_snd, loadHints_snd]
  exact ⟨f, rfl⟩

theorem answer_eq (h : Counted c d) (op : Operation) : op.answer d = op.answer c := by
  cases op with
  | set | addValue | setNegative | delete | advance => rfl
  | storeWithGlue records additionals rttMs =>
      exact congrArg Answer.stored (storeWithGlue_fst c d records additionals rttMs)
  | loadRoots octets => exact congrArg Answer.stored (loadRoots_fst c d octets)
  | load octets => exact congrArg Answer.loaded (load_fst c d octets)
  | lookup name type => exact congrArg Answer.found (h.lookup_fst name type)
  | get name type =>
      exact congrArg (fun a => Answer.entry (a.map (·.entry))) (h.lookup_fst name type)
  | getPositive name type =>
      exact congrArg (fun a => Answer.entry ((a.filter fun a => !a.isNegative).map (·.entry)))
        (h.lookup_fst name type)
  | isNegative name type =>
      exact congrArg (fun a => Answer.flag (a.any (·.isNegative))) (h.lookup_fst name type)
  | zoneFor name => exact congrArg Answer.zone (h.zoneFor_fst name)

theorem apply (h : Counted c d) (op : Operation) : Counted (op.apply c) (op.apply d) := by
  cases op with
  | set | addValue =>
      obtain ⟨f, rfl⟩ := h
      exact ⟨fun _ => _, rfl⟩
  | setNegative | delete | advance =>
      obtain ⟨f, rfl⟩ := h
      exact ⟨f, rfl⟩
  | storeWithGlue records additionals rttMs => exact h.storeWithGlue_snd records additionals rttMs
  | loadRoots octets => exact h.loadRoots_snd octets
  | load octets => exact h.load_snd octets
  | lookup name type | get name type | getPositive name type | isNegative name type =>
      exact h.lookup_snd name type
  | zoneFor name => exact h.firstCachedZone_snd _

/-- Caches that differ in their counters only stay so. -/
theorem run (h : Counted c d) (ops : List Operation) :
    Counted (Operation.run c ops) (Operation.run d ops) := by
  induction ops generalizing c d with
  | nil => exact h
  | cons op ops ih => exact ih (h.apply op)

/-- Caches that differ in their counters only answer alike. -/
theorem answers_eq (h : Counted c d) (ops : List Operation) :
    Operation.answers d ops = Operation.answers c ops := by
  induction ops generalizing c d with
  | nil => rfl
  | cons op ops ih =>
      unfold Operation.answers
      rw [h.answer_eq op, ih (h.apply op)]

end Counted

end CachingResolver.Cache
