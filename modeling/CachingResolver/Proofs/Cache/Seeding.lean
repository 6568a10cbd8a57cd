import CachingResolver.Proofs.Cache.RootHints
import CachingResolver.Proofs.Lines

/-!
# What root hints leave in the cache

Which lines of a file count, and as what hint, is said by `RootHint.Counts` from the octets of the
line alone.  Hints are stored one after the other, so of several for one server the last decides.
`loadRoots_exact` tells every entry afterwards from the lines that count: the addresses of their
servers, the name servers of the root, and all else as it was.
-/

namespace CachingResolver

open CachingResolver.Text

namespace RootHint

/-- A line counts, as the hint `h`: it is UTF-8; trimmed it is not empty and no comment; and it has
at least two fields, a server and an IPv4 address.  A third field gives an IPv6 address, if it is
one. -/
def Counts (line : List UInt8) (h : RootHint) : Prop :=
  ∃ text first others name v4 more, Utf8.decode? line = some text ∧
    trim text.toList = first :: others ∧ first ≠ '#' ∧ first ≠ ';' ∧
    words text.toList = name :: v4 :: more ∧
    h.server = Name.canonical (String.ofList name) ∧
    Ipv4.ofText? (String.ofList v4) = some h.v4 ∧
    h.v6 = more.head?.bind fun field => Ipv6.ofText? (String.ofList field)

variable {h : RootHint}

theorem ofWords?_eq_some_iff {fields : List (List Char)} : ofWords? fields = some h ↔
    ∃ name v4 more, fields = name :: v4 :: more ∧
      name.head? ≠ some '#' ∧ name.head? ≠ some ';' ∧
      h.server = Name.canonical (String.ofList name) ∧
      Ipv4.ofText? (String.ofList v4) = some h.v4 ∧
      h.v6 = more.head?.bind fun field => Ipv6.ofText? (String.ofList field) := by
  rcases fields with - | ⟨name, - | ⟨v4, more⟩⟩
  · simp [ofWords?]
  · simp [ofWords?]
  · dsimp only [ofWords?]
    by_cases hcomment : name.head? = some '#' ∨ name.head? = some ';'
    · rw [if_pos hcomment]
      constructor
      · intro hread
        cases hread
      · rintro ⟨_, _, _, hfields, hhash, hsemicolon, -⟩
        obtain ⟨rfl, -⟩ := List.cons.inj hfields
        exact absurd hcomment (not_or.2 ⟨hhash, hsemicolon⟩)
    · rw [if_neg hcomment]
      simp only [Option.bind_eq_bind, Option.bind_eq_some_iff, Option.pure_def, Option.some.injEq]
      constructor
      · rintro ⟨address, haddress, rfl⟩
        exact ⟨name, v4, more, rfl, fun hhash => hcomment (.inl hhash),
          fun hsemicolon => hcomment (.inr hsemicolon), rfl, haddress, rfl⟩
      · rintro ⟨_, _, _, hfields, -, -, hserver, hv4, hv6⟩
        obtain ⟨rfl, hrest⟩ := List.cons.inj hfields
        obtain ⟨rfl, rfl⟩ := List.cons.inj hrest
        refine ⟨h.v4, hv4, ?_⟩
        rw [← hserver, ← hv6]

theorem ofChars?_eq_some_iff {cs : List Char} : ofChars? cs = some h ↔
    ∃ first others name v4 more, trim cs = first :: others ∧ first ≠ '#' ∧ first ≠ ';' ∧
      words cs = name :: v4 :: more ∧ h.server = Name.canonical (String.ofList name) ∧
      Ipv4.ofText? (String.ofList v4) = some h.v4 ∧
      h.v6 = more.head?.bind fun field => Ipv6.ofText? (String.ofList field) := by
  rw [ofChars?_eq_ofWords?, ofWords?_eq_some_iff]
  constructor
  · rintro ⟨name, v4, more, hwords, hhash, hsemicolon, hread⟩
    obtain ⟨first, others, w, htrim, rfl⟩ := exists_trim_eq_cons hwords
    rw [List.head?_cons, Ne, Option.some.injEq] at hhash hsemicolon
    exact ⟨first, others, _, v4, more, htrim, hhash, hsemicolon, hwords, hread⟩
  · rintro ⟨first, others, name, v4, more, htrim, hhash, hsemicolon, hwords, hread⟩
    obtain ⟨c, cs, w, htrim', rfl⟩ := exists_trim_eq_cons hwords
    obtain ⟨rfl, -⟩ := List.cons.inj (htrim.symm.trans htrim')
    refine ⟨_, v4, more, hwords, ?_, ?_, hread⟩ <;>
      rwa [List.head?_cons, Ne, Option.some.injEq]

theorem counts_iff (line : List UInt8) (h : RootHint) : Counts line h ↔ ofLine? line = some h := by
  unfold Counts ofLine?
  simp only [Option.bind_eq_some_iff, ofChars?_eq_some_iff]
  constructor
  · rintro ⟨text, first, others, name, v4, more, htext, hline⟩
    exact ⟨text, htext, first, others, name, v4, more, hline⟩
  · rintro ⟨text, htext, first, others, name, v4, more, hline⟩
    exact ⟨text, first, others, name, v4, more, htext, hline⟩

theorem taken_counts_iff {lines : List (List UInt8)} {hints : List RootHint} :
    Taken Counts lines hints ↔ lines.filterMap ofLine? = hints :=
  taken_iff counts_iff

/-- The server of a hint is in canonical form. -/
theorem canonical_server_of_mem_ofFile {octets : List UInt8} (hmem : h ∈ ofFile octets) :
    Name.canonical h.server = h.server := by
  obtain ⟨line, -, hline⟩ := List.mem_filterMap.1 hmem
  obtain ⟨_, _, _, name, _, _, -, -, -, -, -, hserver, -⟩ := (counts_iff line h).2 hline
  rw [hserver, Name.canonical_canonical]

/-- The hints for a server, however it is spelled. -/
def forServer (name : String) (hints : List RootHint) : List RootHint :=
  hints.filter fun h => h.server = Name.canonical name

theorem forServer_cons (name : String) (h : RootHint) (hints : List RootHint) :
    forServer name (h :: hints) =
      if h.server = Name.canonical name then h :: forServer name hints
      else forServer name hints := by
  unfold forServer
  rw [List.filter_cons]
  simp only [decide_eq_true_eq]

/-- The address of a type that a hint gives, if any. -/
def address? (h : RootHint) : RecordType → Option String
  | .a => some h.v4.text
  | .aaaa => h.v6.map Ipv6.text
  | _ => none

end RootHint

namespace Cache

/-- What the storing of hints makes of a cache. -/
structure Seeded (c : Cache) (hints : List RootHint) (after : Cache) : Prop where
  v4 : ∀ name, after.positive.get? (makeKey name .a) =
    ((RootHint.forServer name hints).getLast?.map fun h => c.hintEntry [h.v4.text]).or
      (c.positive.get? (makeKey name .a))
  v6 : ∀ name, after.positive.get? (makeKey name .aaaa) =
    (((RootHint.forServer name hints).filterMap (·.v6)).getLast?.map fun x =>
      c.hintEntry [x.text]).or (c.positive.get? (makeKey name .aaaa))
  root : after.positive.get? (makeKey Name.root .ns) =
    if hints = [] then c.positive.get? (makeKey Name.root .ns)
    else some (c.hintEntry (hints.map (·.server)).eraseDups)
  other : ∀ key, (∀ name, key ≠ makeKey name .a ∧ key ≠ makeKey name .aaaa) →
    key ≠ makeKey Name.root .ns → after.positive.get? key = c.positive.get? key
  rest : after = { c with positive := after.positive }

variable (c : Cache) {hints : List RootHint}

/-! ### What is stored under a key -/

theorem valuesAt_hintPairs {h : RootHint} (hserver : Name.canonical h.server = h.server)
    (name : String) (type : RecordType) :
    Table.valuesAt (makeKey name type) (c.hintPairs h) =
      if h.server = Name.canonical name then
        ((h.address? type).map fun text => c.hintEntry [text]).toList
      else [] := by
  have hkey (t : RecordType) : makeKey h.server t = makeKey name type ↔
      h.server = Name.canonical name ∧ t = type := by rw [makeKey_inj, hserver]
  unfold hintPairs
  by_cases hname : h.server = Name.canonical name
  · rw [if_pos hname]
    cases hv6 : h.v6 <;> cases type <;>
      simp only [Table.valuesAt_cons, Table.valuesAt_nil, hkey, eq_true hname, true_and,
        reduceCtorEq, if_true, if_false, RootHint.address?, hv6] <;> rfl
  · cases h.v6 <;>
      simp only [Table.valuesAt_cons, Table.valuesAt_nil, hkey, eq_false hname, false_and, if_false]

/-- The hints for a server store the addresses that they give, in order. -/
theorem valuesAt_flatMap_hintPairs (hservers : ∀ h ∈ hints, Name.canonical h.server = h.server)
    (name : String) (type : RecordType) :
    Table.valuesAt (makeKey name type) (hints.flatMap c.hintPairs) =
      ((RootHint.forServer name hints).filterMap (·.address? type)).map fun text =>
        c.hintEntry [text] := by
  rw [Table.valuesAt_flatMap]
  induction hints with
  | nil => rfl
  | cons h hints ih =>
      obtain ⟨hserver, hrest⟩ := List.forall_mem_cons.1 hservers
      rw [List.flatMap_cons, ih hrest, valuesAt_hintPairs c hserver, RootHint.forServer_cons]
      split
      · rw [List.filterMap_cons]
        cases h.address? type <;> rfl
      · rfl

theorem valuesAt_hintsPairs_of_ne {key : String} (hkey : key ≠ makeKey Name.root .ns) :
    Table.valuesAt key (c.hintsPairs hints) =
      Table.valuesAt key (hints.flatMap c.hintPairs) := by
  unfold hintsPairs
  rw [Table.valuesAt_append]
  split
  · rw [Table.valuesAt_nil, List.append_nil]
  · rw [Table.valuesAt_cons, if_neg (Ne.symm hkey), Table.valuesAt_nil, List.append_nil]

theorem valuesAt_hintsPairs_root (hne : hints ≠ []) :
    (Table.valuesAt (makeKey Name.root .ns) (c.hintsPairs hints)).getLast? =
      some (c.hintEntry (hints.map (·.server)).eraseDups) := by
  have hservers : (hints.map (·.server)).eraseDups.isEmpty = false := by
    rw [List.isEmpty_eq_false_iff, Ne, eraseDups_eq_nil_iff, List.map_eq_nil_iff]
    exact hne
  unfold hintsPairs
  dsimp only
  rw [hservers, if_neg Bool.false_ne_true, Table.valuesAt_append, Table.valuesAt_cons, if_pos rfl,
    Table.valuesAt_nil, List.getLast?_concat]

/-! ### What a cache is made of -/

theorem get?_insertAll_hintsPairs
    (hservers : ∀ h ∈ hints, Name.canonical h.server = h.server) {name : String} {type : RecordType}
    (htype : type ≠ .ns) :
    (c.positive.insertAll (c.hintsPairs hints)).get? (makeKey name type) =
      (((RootHint.forServer name hints).filterMap (·.address? type)).getLast?.map fun text =>
        c.hintEntry [text]).or (c.positive.get? (makeKey name type)) := by
  have hkey : makeKey name type ≠ makeKey Name.root .ns := fun h => htype (makeKey_inj.1 h).2
  rw [Table.get?_insertAll, valuesAt_hintsPairs_of_ne c hkey,
    valuesAt_flatMap_hintPairs c hservers, List.getLast?_map]

theorem seeded_loadHints (hservers : ∀ h ∈ hints, Name.canonical h.server = h.server) :
    c.Seeded hints (c.loadHints hints).2 := by
  rw [loadHints_snd]
  constructor
  · intro name
    dsimp only
    rw [get?_insertAll_hintsPairs c hservers (by decide)]
    have haddresses : (RootHint.forServer name hints).filterMap (·.address? .a) =
        (RootHint.forServer name hints).map fun h => h.v4.text :=
      congrFun List.filterMap_eq_map' _
    rw [haddresses, List.getLast?_map, Option.map_map]
    rfl
  · intro name
    dsimp only
    rw [get?_insertAll_hintsPairs c hservers (by decide)]
    have haddresses : (RootHint.forServer name hints).filterMap (·.address? .aaaa) =
        ((RootHint.forServer name hints).filterMap (·.v6)).map Ipv6.text := by
      rw [List.map_filterMap]
      rfl
    rw [haddresses, List.getLast?_map, Option.map_map]
    rfl
  · dsimp only
    rw [Table.get?_insertAll]
    split
    · rename_i hnil
      subst hnil
      rfl
    · rename_i hne
      rw [valuesAt_hintsPairs_root c hne]
      rfl
  · intro key haddress hroot
    refine Table.get?_insertAll_of_forall_ne _ fun p hp hkey => ?_
    rcases mem_hintsPairs.1 hp with ⟨h, -, hp⟩ | ⟨-, rfl⟩
    · rcases mem_hintPairs.1 hp with rfl | ⟨x, -, rfl⟩
      · exact (haddress h.server).1 hkey.symm
      · exact (haddress h.server).2 hkey.symm
    · exact hroot hkey.symm
  · rfl

theorem loadHints_fst : (c.loadHints hints).1 = (hints.map (·.server)).eraseDups.length := by
  unfold loadHints
  dsimp only
  split
  · rename_i hempty
    rw [List.isEmpty_iff.1 hempty]
    rfl
  · rfl

/-- A file of root hints is read line by line, and each line counts on its own.  The result is the
number of servers; a cache is changed by the hints alone and, without any, not at all; and then a
file of hints is an error. -/
theorem loadRoots_exact (octets : List UInt8) :
    ∃ hints, Taken RootHint.Counts (splitAt 10 octets) hints ∧
      c.Seeded hints (c.loadRoots octets).2 ∧
      (c.loadRoots octets).1 = (hints.map (·.server)).eraseDups.length ∧
      (hints = [] → (c.loadRoots octets).2 = c) ∧
      ∀ path, c.loadRootsFile path (.ok octets) =
        if hints = [] then (.error (.rootHints (path ++ ": no usable root servers")), c)
        else (.ok (c.loadRoots octets).1, (c.loadRoots octets).2) := by
  have hnone : RootHint.ofFile octets = [] → c.loadRoots octets = (0, c) := by
    intro hnil
    unfold loadRoots
    rw [hnil]
    rfl
  refine ⟨RootHint.ofFile octets, RootHint.taken_counts_iff.2 rfl,
    c.seeded_loadHints fun h hmem => RootHint.canonical_server_of_mem_ofFile hmem,
    c.loadHints_fst, fun hnil => congrArg Prod.snd (hnone hnil), fun path => ?_⟩
  unfold loadRootsFile
  dsimp only
  by_cases hnil : RootHint.ofFile octets = []
  · rw [if_pos hnil, hnone hnil]
    rfl
  · rw [if_neg hnil]
    have hpos : (c.loadRoots octets).1 ≠ 0 := by
      unfold loadRoots
      rw [loadHints_fst, Ne, List.length_eq_zero_iff, eraseDups_eq_nil_iff, List.map_eq_nil_iff]
      exact hnil
    generalize c.loadRoots octets = result at hpos
    obtain ⟨n, after⟩ := result
    cases n with
    | zero => exact absurd rfl hpos
    | succ n => rfl

end Cache

end CachingResolver
