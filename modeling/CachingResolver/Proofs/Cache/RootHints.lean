import CachingResolver.Proofs.Cache.History
import CachingResolver.Proofs.Text

/-!
# What root hints are good for

A line of hints is read by its words alone, and the spelling of the server does not matter
(`ofChars?_respelled`).

Loading root hints stores name servers of the root and an address for each of them (`isHint_root`,
`exists_isHint_address`).  As long as the cache answers with these, the root can be reached
(`rootReachable`), and no name is without an enclosing zone (`isUnknown_zoneFor_eq_false`).
-/

namespace CachingResolver

open CachingResolver.Text

namespace RootHint

/-! ### Lines -/

/-- The hint that some words write.  Words that start with `#` or `;` are a comment. -/
def ofWords? : List (List Char) → Option RootHint
  | name :: v4 :: rest =>
    if name.head? = some '#' ∨ name.head? = some ';' then none
    else do
      let v4 ← Ipv4.ofText? (String.ofList v4)
      let v6 := rest.head?.bind fun field => Ipv6.ofText? (String.ofList field)
      return { server := Name.canonical (String.ofList name), v4, v6 }
  | _ => none

theorem ofChars?_eq_ofWords? (line : List Char) : ofChars? line = ofWords? (words line) := by
  unfold ofChars?
  rw [← words_trim line]
  cases htrim : trim line with
  | nil => rfl
  | cons c cs =>
      obtain ⟨w, ws, hwords⟩ := exists_words_cons (isBlank_of_trim_eq_cons htrim) cs
      dsimp only
      rw [hwords]
      cases ws with
      | nil =>
          dsimp only [ofWords?]
          split <;> rfl
      | cons v4 rest => simp [ofWords?]

/-- The first word of a line starts where the trimmed line does. -/
theorem exists_trim_eq_cons {cs name : List Char} {rest : List (List Char)}
    (hwords : words cs = name :: rest) :
    ∃ first others w, trim cs = first :: others ∧ name = first :: w := by
  rw [← words_trim cs] at hwords
  cases htrim : trim cs with
  | nil =>
      rw [htrim] at hwords
      cases hwords
  | cons first others =>
      obtain ⟨w, ws, hcons⟩ := exists_words_cons (isBlank_of_trim_eq_cons htrim) others
      rw [htrim, hcons] at hwords
      exact ⟨first, others, w, rfl, (List.cons.inj hwords).1.symm⟩

/-- Another spelling of the server makes no other hint. -/
theorem ofChars?_respelled {line line' name name' : List Char} {rest : List (List Char)}
    (hline : words line = name :: rest) (hline' : words line' = name' :: rest)
    (h : Name.canonical (String.ofList name) = Name.canonical (String.ofList name')) :
    ofChars? line = ofChars? line' := by
  rw [ofChars?_eq_ofWords?, ofChars?_eq_ofWords?, hline, hline']
  obtain ⟨c, _, cs, htrim, rfl⟩ := exists_trim_eq_cons hline
  obtain ⟨d, _, ds, htrim', rfl⟩ := exists_trim_eq_cons hline'
  have hc := isBlank_of_trim_eq_cons htrim
  have hd := isBlank_of_trim_eq_cons htrim'
  have hhead : c.toLower = d.toLower := by
    have hchars := congrArg (fun s => s.toList.head?) h
    simp only [Name.toList_canonical, String.toList_ofList, Name.head?_canonicalChars hc,
      Name.head?_canonicalChars hd] at hchars
    exact Option.some.inj hchars
  -- The signs of a comment are no letters, so both spellings start with one or neither does.
  have hsame {x : Char} (hx : x.toNat < 65) : c = x ↔ d = x := by
    have hlow : x.toLower = x := by
      apply Char.toNat_inj.1
      rw [Name.toNat_toLower, if_neg (by omega)]
    constructor
    · rintro rfl
      exact Name.eq_of_toLower_eq (by omega) (hhead.symm.trans hlow)
    · rintro rfl
      exact Name.eq_of_toLower_eq (by omega) (hhead.trans hlow)
  cases rest with
  | nil => rfl
  | cons v4 rest =>
      unfold ofWords?
      simp only [List.head?_cons, Option.some.injEq, hsame (x := '#') (by decide),
        hsame (x := ';') (by decide), h]

end RootHint

namespace Cache

/-- Loading a file of root hints stores an entry under a key. -/
def IsHint (c : Cache) (octets : List UInt8) (key : String) (e : Entry) : Prop :=
  (Operation.loadRoots octets).Stores c key e

/-- The root is found, and an address of one of its servers is known. -/
def RootReachable (c : Cache) : Prop :=
  (c.zoneFor Name.root).1.name = Name.root ∧ (c.zoneFor Name.root).1.reachable ≠ []

instance (c : Cache) : Decidable c.RootReachable :=
  inferInstanceAs (Decidable (_ ∧ _))

variable {c d : Cache} {octets : List UInt8} {key : String} {e : Entry}

/-! ### The entries -/

theorem mem_of_isHint (h : c.IsHint octets key e) :
    (key, e) ∈ c.hintsPairs (RootHint.ofFile octets) :=
  (Operation.mem_stored_of_stores h).1

/-- Under every key that loading stores something, some entry counts. -/
theorem exists_isHint {p : String × Entry} (hp : p ∈ c.hintsPairs (RootHint.ofFile octets)) :
    ∃ e, c.IsHint octets p.1 e := by
  obtain ⟨e, -, hget⟩ := Table.exists_get?_insertAll ⟨p, hp, rfl⟩
  exact ⟨e, hget ∅⟩

theorem get?_loadRoots_of_isHint (h : c.IsHint octets key e) :
    (c.loadRoots octets).2.positive.get? key = some e :=
  (Operation.get?_apply_of_stores h).1

theorem negative_loadRoots (c : Cache) (octets : List UInt8) :
    (c.loadRoots octets).2.negative = c.negative := by
  unfold loadRoots
  rw [loadHints_snd]

theorem now_loadRoots (c : Cache) (octets : List UInt8) : (c.loadRoots octets).2.now = c.now := by
  unfold loadRoots
  rw [loadHints_snd]

theorem mem_hintPairs {h : RootHint} {p : String × Entry} :
    p ∈ c.hintPairs h ↔ p = (makeKey h.server .a, c.hintEntry [h.v4.text]) ∨
      ∃ x, h.v6 = some x ∧ p = (makeKey h.server .aaaa, c.hintEntry [x.text]) := by
  unfold hintPairs
  cases h.v6 <;> simp

theorem mem_hintsPairs {hints : List RootHint} {p : String × Entry} :
    p ∈ c.hintsPairs hints ↔ (∃ h ∈ hints, p ∈ c.hintPairs h) ∨
      (hints ≠ [] ∧
        p = (makeKey Name.root .ns, c.hintEntry (hints.map (·.server)).eraseDups)) := by
  unfold hintsPairs
  simp only [List.mem_append, List.mem_flatMap, List.isEmpty_iff, eraseDups_eq_nil_iff,
    List.map_eq_nil_iff]
  by_cases hnil : hints = []
  · simp [hnil]
  · simp [hnil]

/-- Hints last a year from their time, and have values. -/
theorem eq_hintEntry_of_isHint (h : c.IsHint octets key e) :
    ∃ values, values ≠ [] ∧ e = c.hintEntry values := by
  rcases mem_hintsPairs.1 (mem_of_isHint h) with ⟨hint, -, hp⟩ | ⟨hne, hp⟩
  · rcases mem_hintPairs.1 hp with hp | ⟨x, -, hp⟩
    · exact ⟨_, List.cons_ne_nil _ _, (Prod.mk.inj hp).2⟩
    · exact ⟨_, List.cons_ne_nil _ _, (Prod.mk.inj hp).2⟩
  · refine ⟨_, ?_, (Prod.mk.inj hp).2⟩
    rw [Ne, eraseDups_eq_nil_iff, List.map_eq_nil_iff]
    exact hne

/-- If any hint was loaded, the root has name servers. -/
theorem isHint_root (hloaded : 0 < (c.loadRoots octets).1) :
    ∃ h ∈ RootHint.ofFile octets, ∃ servers, h.server ∈ servers ∧
      c.IsHint octets (makeKey Name.root .ns) (c.hintEntry servers) := by
  have hne : RootHint.ofFile octets ≠ [] := by
    intro hnil
    unfold loadRoots at hloaded
    rw [hnil] at hloaded
    exact Nat.lt_irrefl 0 hloaded
  have hpair : (makeKey Name.root .ns,
      c.hintEntry ((RootHint.ofFile octets).map (·.server)).eraseDups) ∈
        c.hintsPairs (RootHint.ofFile octets) := mem_hintsPairs.2 (.inr ⟨hne, rfl⟩)
  obtain ⟨e, he⟩ := exists_isHint hpair
  rcases mem_hintsPairs.1 (mem_of_isHint he) with ⟨other, -, hp⟩ | ⟨-, hp⟩
  · rcases mem_hintPairs.1 hp with hp | ⟨x, -, hp⟩
    · exact absurd (makeKey_inj.1 (Prod.mk.inj hp).1).2 (by decide)
    · exact absurd (makeKey_inj.1 (Prod.mk.inj hp).1).2 (by decide)
  · obtain ⟨h, more, hcons⟩ := List.exists_cons_of_ne_nil hne
    have hmem : h ∈ RootHint.ofFile octets := hcons ▸ List.mem_cons_self
    refine ⟨h, hmem, _, ?_, (Prod.mk.inj hp).2 ▸ he⟩
    rw [List.mem_eraseDups]
    exact List.mem_map_of_mem hmem

/-- A server of the hints has an address. -/
theorem exists_isHint_address {h : RootHint} (hmem : h ∈ RootHint.ofFile octets) :
    ∃ x : Ipv4, c.IsHint octets (makeKey h.server .a) (c.hintEntry [x.text]) := by
  have hpair : (makeKey h.server .a, c.hintEntry [h.v4.text]) ∈
      c.hintsPairs (RootHint.ofFile octets) :=
    mem_hintsPairs.2 (.inl ⟨h, hmem, mem_hintPairs.2 (.inl rfl)⟩)
  obtain ⟨e, he⟩ := exists_isHint hpair
  -- Of several addresses for a server the last counts, and keys of other types are others.
  rcases mem_hintsPairs.1 (mem_of_isHint he) with ⟨other, -, hp⟩ | ⟨-, hp⟩
  · rcases mem_hintPairs.1 hp with hp | ⟨x, -, hp⟩
    · exact ⟨other.v4, (Prod.mk.inj hp).2 ▸ he⟩
    · exact absurd (makeKey_inj.1 (Prod.mk.inj hp).1).2 (by decide)
  · exact absurd (makeKey_inj.1 (Prod.mk.inj hp).1).2 (by decide)

/-! ### What they do for a search -/

/-- When the cache answers with name servers of the root, every name has an enclosing zone. -/
theorem isUnknown_zoneFor_eq_false (hroot : c.found? (makeKey Name.root .ns) = some e)
    (hne : e.values ≠ []) (name : String) : (c.zoneFor name).1.isUnknown = false := by
  have hzone : ∀ names, Name.root ∈ names → (c.firstZone names).isUnknown = false := by
    intro names hmem
    induction names with
    | nil => cases hmem
    | cons n names ih =>
        by_cases hempty : ∀ f, c.found? (makeKey n .ns) = some f → f.values = []
        · rw [firstZone_cons_of_empty names hempty]
          rcases List.mem_cons.1 hmem with rfl | hmem
          · exact absurd (hempty e hroot) hne
          · exact ih hmem
        · push Not at hempty
          obtain ⟨f, hf, hfne⟩ := hempty
          rw [firstZone_cons_of_found names hf hfne]
          unfold Zone.isUnknown
          rw [name_zoneAt]
          simp [Name.canonical_ne_empty]
  rw [zoneFor_fst]
  exact hzone _ (Name.root_mem_ancestors name)

/-- When the cache answers with a name server of the root and an address for it, the root can be
reached. -/
theorem rootReachable_of_found? {server : String} {f : Entry} {ip : IpAddress} {type : RecordType}
    (hroot : c.found? (makeKey Name.root .ns) = some e) (hserver : server ∈ e.values)
    (htype : type.isAddress = true) (haddress : c.found? (makeKey server type) = some f)
    (hip : ip.text ∈ f.values) : c.RootReachable := by
  have hzone : (c.zoneFor Name.root).1 = c.zoneAt Name.root e := by
    rw [zoneFor_fst]
    exact firstZone_cons_of_found [] hroot (List.ne_nil_of_mem hserver)
  have hin : ip ∈ c.addressesIn server type := by
    unfold addressesIn
    rw [haddress]
    exact List.mem_filterMap.2 ⟨_, hip, IpAddress.ofText?_text ip⟩
  have hmem : ip ∈ (c.zoneAt Name.root e).addressesOf server :=
    mem_addressesOf_zoneAt htype hserver hin
  unfold RootReachable
  rw [hzone]
  exact ⟨name_zoneAt c Name.root e, Zone.reachable_ne_nil_of_mem_addressesOf hmem⟩

end Cache

end CachingResolver
