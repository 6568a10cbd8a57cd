import CachingResolver.Lookup.Setup
import CachingResolver.Proofs.Cache.Observation
import CachingResolver.Proofs.Cbor.Truncation

/-!
# Checkpoints read back

The octets of a checkpoint are read as the checkpoint (`Snapshot.decode?_encode`).  A checkpoint is
written as an item in which four maps and arrays nest, and `entryItem`, `tableItem` and `item` are
the items that its parts are read as.  Each part has two lemmas: that its octets are read as its
item, and that its item is understood as the part.  The head of an item holds numbers below
`2 ^ 64`; a checkpoint `Fits` when its lengths and counts are below that bound, as lengths in memory
are.

Whatever octets are loaded, a cache is left as it was or restored as a whole
(`Cache.load_restores_or_keeps`), and a checkpoint that is cut off is never loaded
(`Cache.load_take_dump`).  A new cache that loads the checkpoint of another is the other up to the
counters, and therefore answers whatever comes later as the other would have
(`Cache.reloaded_continues`).  The counters themselves are not in a checkpoint and start again from
zero.
-/

namespace CachingResolver

open CachingResolver.Cbor CachingResolver.Text

/-- A list is taken through steps that all succeed. -/
theorem mapM_map_eq_some {α β γ : Type} {f : β → Option γ} {g : α → β} {k : α → γ} {xs : List α}
    (h : ∀ x ∈ xs, f (g x) = some (k x)) : (xs.map g).mapM f = some (xs.map k) := by
  induction xs with
  | nil => rfl
  | cons x xs ih =>
      have hrest := ih fun y hy => h y (List.mem_cons_of_mem _ hy)
      simp [h x List.mem_cons_self, hrest]

namespace Cbor

/-- Texts as the keys of a map. -/
def textPairs (fields : List (String × Item)) : List (Item × Item) :=
  fields.map fun p => (.text p.1, p.2)

/-- A map whose keys are known names of fields is understood as these fields. -/
theorem asRecord?_textPairs {known : List String} {fields : List (String × Item)}
    (hknown : ∀ p ∈ fields, p.1 ∈ known)
    (hlength : ∀ name ∈ known, (Utf8.encode name).length ≤ Item.maxFieldName) (depth : Nat) :
    (Item.map (textPairs fields)).asRecord? known depth =
      some (fields.map fun p => (Utf8.encode p.1, p.2)) := by
  have hfields : (Item.map (textPairs fields)).asFields? =
      some (fields.map fun p => (Utf8.encode p.1, p.2)) := by
    refine mapM_map_eq_some fun p hp => ?_
    simp [Item.asFieldName?, Item.untagged, hlength _ (hknown p hp)]
  have hall : (fields.map fun p => (Utf8.encode p.1, p.2)).all
      (fun f => (known.map Utf8.encode).contains f.1 || f.2.canSkip depth) = true := by
    refine List.all_eq_true.2 fun f hf => ?_
    obtain ⟨p, hp, rfl⟩ := List.mem_map.1 hf
    simp [List.mem_map_of_mem (hknown p hp)]
  unfold Item.asRecord?
  rw [hfields, Option.bind_eq_bind, Option.bind_some]
  exact if_pos hall

/-- The field of a name, when there is one. -/
theorem theField?_textFields {fields : List (String × Item)} {name : String} {item : Item}
    (h : fields.filter (fun p => p.1 == name) = [(name, item)]) :
    theField? (fields.map fun p => (Utf8.encode p.1, p.2)) name = some item := by
  have hfilter : (fields.map fun p => (Utf8.encode p.1, p.2)).filter
      (fun f => f.1 == Utf8.encode name) = [(Utf8.encode name, item)] := by
    rw [List.filter_map]
    have hsame : (fun f : List UInt8 × Item => f.1 == Utf8.encode name) ∘
        (fun p : String × Item => (Utf8.encode p.1, p.2)) = fun p => p.1 == name := by
      funext p
      rw [Function.comp_apply, Bool.eq_iff_iff, beq_iff_eq, beq_iff_eq, Utf8.encode_inj]
    rw [hsame, h]
    rfl
  unfold theField?
  rw [hfilter]

end Cbor

namespace Snapshot

/-- The values of an entry can be written. -/
def EntryFits (e : Entry) : Prop :=
  e.values.length < 2 ^ 64 ∧ ∀ value ∈ e.values, (Utf8.encode value).length < 2 ^ 64

instance (e : Entry) : Decidable (EntryFits e) :=
  inferInstanceAs (Decidable (_ ∧ _))

def TableFits (t : Table Entry) : Prop :=
  t.size < 2 ^ 64 ∧ ∀ p ∈ t.entries, (Utf8.encode p.1).length < 2 ^ 64 ∧ EntryFits p.2

instance (t : Table Entry) : Decidable (TableFits t) :=
  inferInstanceAs (Decidable (_ ∧ _))

/-- All lengths and counts of a checkpoint can be written. -/
def Fits (s : Snapshot) : Prop :=
  TableFits s.positive ∧ TableFits s.negative

instance (s : Snapshot) : Decidable s.Fits :=
  inferInstanceAs (Decidable (_ ∧ _))

/-! ### Numbers -/

theorem readsAs_word32 (n : UInt32) (depth : Nat) :
    ReadsAs depth (encodeInt n.toNat) (.ofInt n.toNat) := by
  have hlt := n.toNat_lt
  exact readsAs_encodeInt (by omega) (by omega) depth

theorem word32?_ofInt (n : UInt32) : word32? (.ofInt n.toNat) = some n := by
  have hlt := n.toNat_lt
  unfold word32?
  rw [Item.asInt?_ofInt, Option.bind_some, if_pos ⟨by omega, by exact_mod_cast hlt⟩]
  simp

theorem readsAs_signed64 (n : Int64) (depth : Nat) :
    ReadsAs depth (encodeInt n.toInt) (.ofInt n.toInt) := by
  have hlow := n.le_toInt
  have hhigh := n.toInt_lt
  exact readsAs_encodeInt (by omega) (by omega) depth

theorem signed64?_ofInt (n : Int64) : signed64? (.ofInt n.toInt) = some n := by
  have hlow := n.le_toInt
  have hhigh : n.toInt ≤ 9223372036854775807 := by
    have := n.toInt_lt
    omega
  unfold signed64?
  rw [Item.asInt?_ofInt, Option.bind_some, if_pos ⟨hlow, hhigh⟩, Int64.ofInt_toInt]

/-! ### Entries -/

def entryFields (e : Entry) : List (String × Item) :=
  [("values", .array (e.values.map .text)), ("ttl", .ofInt e.ttl.toNat),
    ("rtt_ms", .ofInt e.rttMs.toNat), ("stored_at", .ofInt e.storedAt.toInt)]

def entryItem (e : Entry) : Item :=
  .map (textPairs (entryFields e))

theorem readsAs_encodeEntry {e : Entry} (h : EntryFits e) (depth : Nat) :
    ReadsAs (depth + 2) (encodeEntry e) (entryItem e) := by
  have hvalues : ReadsAs (depth + 1) (encodeArray (e.values.map encodeText))
      (.array (e.values.map .text)) := by
    refine readsAs_encodeArray ?_ (by simpa using h.1)
    refine List.forall₂_map_left_iff.2 (List.forall₂_map_right_iff.2 ?_)
    exact List.forall₂_same.2 fun value hvalue => readsAs_encodeText (h.2 value hvalue) depth
  exact readsAs_encodeMap
    (.cons (.of_value (by decide) hvalues)
      (.cons (.of_value (by decide) (readsAs_word32 _ _))
        (.cons (.of_value (by decide) (readsAs_word32 _ _))
          (.cons (.of_value (by decide) (readsAs_signed64 _ _)) .nil))))
    (show 4 < 2 ^ 64 by decide)

theorem entry?_entryItem (e : Entry) : entry? (entryItem e) = some e := by
  have hfields : (Item.map (textPairs (entryFields e))).asRecord?
      ["values", "ttl", "rtt_ms", "stored_at"] (maxDepth - entryDepth) =
        some ((entryFields e).map fun p => (Utf8.encode p.1, p.2)) :=
    asRecord?_textPairs (by simp [entryFields]) (by decide) _
  have hvalues : (e.values.map Item.text).mapM Item.asText? = some (e.values.map id) :=
    mapM_map_eq_some fun _ _ => rfl
  rw [List.map_id] at hvalues
  have hfield (name : String) {item : Item}
      (h : (entryFields e).filter (fun p => p.1 == name) = [(name, item)]) :=
    theField?_textFields h
  unfold entry? entryItem
  rw [hfields]
  simp only [Option.bind_eq_bind, Option.bind_some]
  rw [hfield "values" rfl, Option.bind_some, Item.asArray?_array, Option.bind_some,
    hvalues, Option.bind_some]
  rw [hfield "ttl" rfl, Option.bind_some, word32?_ofInt, Option.bind_some]
  rw [hfield "rtt_ms" rfl, Option.bind_some, word32?_ofInt, Option.bind_some]
  rw [hfield "stored_at" rfl, Option.bind_some, signed64?_ofInt]
  rfl

/-! ### Tables -/

def tableItem (t : Table Entry) : Item :=
  .map (textPairs (t.entries.map fun p => (p.1, entryItem p.2)))

theorem readsAs_encodeTable {t : Table Entry} (h : TableFits t) (depth : Nat) :
    ReadsAs (depth + 3) (encodeTable t) (tableItem t) := by
  refine readsAs_encodeMap ?_ (by simpa [Table.size] using h.1)
  unfold textPairs
  rw [List.map_map]
  refine List.forall₂_map_left_iff.2 (List.forall₂_map_right_iff.2 ?_)
  refine List.forall₂_same.2 fun p hp => ?_
  obtain ⟨hkey, hentry⟩ := h.2 p hp
  exact .of_value hkey (readsAs_encodeEntry hentry depth)

theorem table?_tableItem (t : Table Entry) : table? (tableItem t) = some t := by
  have hpairs : (t.entries.map fun p => (Item.text p.1, entryItem p.2)).mapM
      (fun q => q.1.asText?.bind fun key => Option.bind ( entry? q.2) fun e => pure (key, e)) =
        some (t.entries.map id) :=
    mapM_map_eq_some fun p _ => by
      rw [entry?_entryItem]
      rfl
  unfold table? tableItem textPairs
  simp only [Item.asMap?, Item.untagged, Option.bind_eq_bind, Option.bind_some, List.map_map]
  rw [show (fun p : String × Item => (Item.text p.1, p.2)) ∘
      (fun p : String × Entry => (p.1, entryItem p.2)) =
      fun p : String × Entry => (Item.text p.1, entryItem p.2) from rfl, hpairs, List.map_id]
  exact congrArg some (Table.empty_overlay t)

/-! ### Checkpoints -/

def fields (s : Snapshot) : List (String × Item) :=
  [("positive", tableItem s.positive), ("negative", tableItem s.negative)]

def item (s : Snapshot) : Item :=
  .map (textPairs s.fields)

theorem readsAs_encode {s : Snapshot} (h : s.Fits) (depth : Nat) :
    ReadsAs (depth + 4) s.encode s.item :=
  readsAs_encodeMap
    (.cons (.of_value (by decide) (readsAs_encodeTable h.1 depth))
      (.cons (.of_value (by decide) (readsAs_encodeTable h.2 depth)) .nil))
    (show 2 < 2 ^ 64 by decide)

theorem read_encode {s : Snapshot} (h : s.Fits) : Cbor.read s.encode = some (s.item, []) := by
  have hall := readsAs_encode h 252 s.encode.length []
  rwa [List.append_nil] at hall

/-- The octets of a checkpoint are read as this checkpoint. -/
theorem decode?_encode {s : Snapshot} (h : s.Fits) : decode? s.encode = some s := by
  have hfields : (Item.map (textPairs s.fields)).asRecord? ["positive", "negative"]
      (maxDepth - 1) = some (s.fields.map fun p => (Utf8.encode p.1, p.2)) :=
    asRecord?_textPairs (by simp [fields]) (by decide) _
  have hfield (name : String) {item : Item}
      (h : s.fields.filter (fun p => p.1 == name) = [(name, item)]) :=
    theField?_textFields h
  unfold decode?
  rw [read_encode h]
  simp only [Option.bind_eq_bind, Option.bind_some, item]
  rw [hfields, Option.bind_some, hfield "positive" rfl, hfield "negative" rfl]
  simp only [Option.bind_some, table?_tableItem]
  rfl

/-- A checkpoint that is cut off is none. -/
theorem decode?_take_encode {s : Snapshot} (h : s.Fits) {n : Nat} (hn : n < s.encode.length) :
    decode? (s.encode.take n) = none := by
  unfold decode?
  rw [read_take_eq_none (read_encode h) hn]
  rfl

end Snapshot

namespace Cache

open Operation

/-! ### Loading -/

/-- What a checkpoint makes of a cache.  Each of its entries is found under its key in the table
that it was in, in place of what was there, and all else is as it was. -/
structure Restored (c : Cache) (s : Snapshot) (after : Cache) : Prop where
  positive : ∀ key, after.positive.get? key = (s.positive.get? key).or (c.positive.get? key)
  negative : ∀ key, after.negative.get? key = (s.negative.get? key).or (c.negative.get? key)
  rest : after = { c with positive := after.positive, negative := after.negative }

theorem restored_restore (c : Cache) (s : Snapshot) : c.Restored s (c.restore s) where
  positive := Table.get?_overlay c.positive s.positive
  negative := Table.get?_overlay c.negative s.negative
  rest := rfl

/-- Octets are loaded as a whole or not at all: either they are no checkpoint, and the cache is as
it was, or they are one, of which every entry is restored and counted. -/
theorem load_restores_or_keeps (c : Cache) (octets : List UInt8) :
    (Snapshot.decode? octets = none ∧
        ∃ reason, c.load octets = (.error (.checkpoint reason), c)) ∨
      ∃ s after, Snapshot.decode? octets = some s ∧
        c.load octets = (.ok (s.positive.size + s.negative.size), after) ∧ c.Restored s after := by
  unfold load
  cases hdecode : Snapshot.decode? octets with
  | none => exact .inl ⟨rfl, _, rfl⟩
  | some s => exact .inr ⟨s, c.restore s, rfl, rfl, restored_restore c s⟩

/-- A checkpoint that is cut off is not loaded, wherever it is cut. -/
theorem load_take_dump (c : Cache) {d : Cache} (h : d.snapshot.Fits) {n : Nat}
    (hn : n < d.dump.length) :
    ∃ reason, c.load (d.dump.take n) = (.error (.checkpoint reason), c) := by
  unfold load
  rw [dump, Snapshot.decode?_take_encode h hn]
  exact ⟨_, rfl⟩

/-! ### Continuing -/

/-- A checkpoint laid over an empty cache of the same settings and time makes the cache again, up to
the counters. -/
theorem counted_restore_snapshot {c d : Cache} (hpositive : d.positive = ∅)
    (hnegative : d.negative = ∅) (hsettings : SameSettings c d) (hnow : d.now = c.now) :
    Counted c (d.restore c.snapshot) := by
  refine ⟨fun _ => d.metrics, ?_⟩
  unfold restore snapshot count
  rw [hpositive, hnegative, Table.empty_overlay, Table.empty_overlay, hsettings.1, hsettings.2,
    hnow]

/-- A cache that is loaded from the checkpoint of another continues like it, whatever the other has
been through and whatever comes later. -/
theorem reloaded_continues (s : CacheSettings) (start : Int64) (before : List Operation)
    (h : (run (s.newCache start) before).snapshot.Fits) :
    let c := run (s.newCache start) before
    let reloaded := (s.newCache c.now).load c.dump
    reloaded.1 = .ok (c.size + c.negativeSize) ∧
      ∀ later, answers reloaded.2 later = answers c later ∧
        (run reloaded.2 later).size = (run c later).size ∧
        (run reloaded.2 later).negativeSize = (run c later).negativeSize := by
  dsimp only
  have hsettings := (s.newCache start).sameSettings_run before
  generalize run (s.newCache start) before = c at h hsettings
  have hload : (s.newCache c.now).load c.dump =
      (.ok (c.size + c.negativeSize), (s.newCache c.now).restore c.snapshot) := by
    unfold load dump
    rw [Snapshot.decode?_encode h]
    rfl
  have hcounted : Counted c ((s.newCache c.now).restore c.snapshot) :=
    counted_restore_snapshot rfl rfl ⟨hsettings.1.symm, hsettings.2.symm⟩ rfl
  rw [hload]
  refine ⟨rfl, fun later => ⟨hcounted.answers_eq later, ?_⟩⟩
  obtain ⟨f, hf⟩ := hcounted.run later
  rw [hf]
  exact ⟨rfl, rfl⟩

/-- A record set that is live, one that has expired and is still there, one that counts as none, and
a failure. -/
def mixedOperations : List Operation :=
  [.set "blank.example" .mx [] 0 0, .set "WWW.example" .a ["192.0.2.1", "192.0.2.2"] 300 12,
    .addValue "old.example" .txt 5 "for \"now\"", .setNegative "www.example." .aaaa "refused",
    .advance 30]

/-- The theorem at work: four entries are restored, and nothing that comes later tells the caches
apart. -/
theorem reloaded_continues_mixed :
    let c := run (({} : CacheSettings).newCache 0) mixedOperations
    let reloaded := (({} : CacheSettings).newCache 30).load c.dump
    reloaded.1 = .ok 4 ∧ ∀ later, answers reloaded.2 later = answers c later := by
  obtain ⟨hcount, hlater⟩ := reloaded_continues {} 0 mixedOperations (by decide +kernel)
  have hsize : (run (({} : CacheSettings).newCache 0) mixedOperations).size +
      (run (({} : CacheSettings).newCache 0) mixedOperations).negativeSize = 4 := by decide +kernel
  exact ⟨hcount.trans (congrArg Except.ok hsize), fun later => (hlater later).1⟩

end Cache

end CachingResolver
