import CachingResolver.Proofs.Cache.ZoneSearch
import CachingResolver.Proofs.NameOrder

/-!
# Which zones enclose a name

Referrals and answers are held against a zone by the suffix test, and the search for the enclosing
zone climbs from the name to the root.  Both agree on the zones that enclose a name, and the search
never passes over one of them that the cache serves (`below_of_serves`).  But it looks up each name
on its way in canonical form, without the blanks at its front, so that it can end at a zone that
does not enclose the name.  `enclosing_zones_agree_iff` says for which names this cannot happen.
-/

namespace CachingResolver.Cache

open CachingResolver.Name (ancestors canonical isSubdomain root Climbs)

/-- A cache that holds the name servers of one zone and nothing else. -/
def holding (zone : String) (servers : Entry) : Cache :=
  ({} : Cache).put zone .ns servers

/-- One name server, the root itself. -/
def oneServer : Entry := { values := [root], ttl := 300 }

section

variable {c : Cache} {name zone above : String} {servers e : Entry}

theorem serves_holding_iff {other : String} :
    (holding zone servers).Serves other e ↔
      canonical other = canonical zone ∧ e = servers ∧ servers.values ≠ [] ∧
        servers.isExpired 0 = false := by
  have hget : (holding zone servers).positive.get? (makeKey other .ns) =
      if makeKey zone .ns = makeKey other .ns then some servers else none :=
    Table.get?_insert _ _ _ _
  rw [serves_iff, found?_eq_some_iff, hget]
  constructor
  · rintro ⟨⟨-, hsome, -, hfresh⟩, hne⟩
    split at hsome
    · obtain rfl := Option.some.inj hsome
      exact ⟨(makeKey_inj.1 ‹_›).1.symm, rfl, hne, hfresh⟩
    · cases hsome
  · rintro ⟨hname, rfl, hne, hfresh⟩
    refine ⟨⟨fun f hf => ?_, if_pos (makeKey_inj.2 ⟨hname.symm, rfl⟩), isVacant_eq_false hne,
      hfresh⟩, hne⟩
    cases hf

/-- The zone found lies at or below every zone that encloses the name and has servers in the
cache. -/
theorem below_of_serves (hin : isSubdomain (canonical name) (canonical zone) = true)
    (hserves : c.Serves (canonical zone) servers) :
    (c.zoneFor name).1 ≠ .unknown ∧
      isSubdomain (c.zoneFor name).1.name (canonical zone) = true := by
  have hmem := Name.mem_ancestors_of_isSubdomain hin
  rw [zoneFor_fst]
  have hknown : c.firstZone (ancestors (canonical name)) ≠ .unknown := fun hunknown =>
    firstZone_eq_unknown_iff.1 hunknown _ hmem _ hserves
  obtain hunknown | ⟨pre, above, post, e, hsplit, hpre, -, -, hzone⟩ := c.firstZone_split
    (ancestors (canonical name))
  · exact absurd hunknown hknown
  · refine ⟨hknown, ?_⟩
    rw [hzone, name_zoneAt]
    have habove : above ∈ ancestors (canonical name) := by simp [hsplit]
    refine Name.isSubdomain_canonical_of_mem habove ?_
    have hchain := Name.pairwise_ancestors (canonical name)
    rw [hsplit] at hchain hmem
    rcases List.mem_append.1 hmem with hbefore | hmem
    · -- No name before the zone found has servers in the cache.
      exact absurd hserves (not_serves_iff.2 (hpre _ hbefore) servers)
    · rcases List.mem_cons.1 hmem with heq | hafter
      · rw [heq]
        exact Name.isSubdomain_refl above
      · exact (List.pairwise_cons.1 (List.pairwise_append.1 hchain).2.1).1 _ hafter

/-- The zone found has the canonical form of a name on the way up. -/
theorem exists_name_zoneFor (hknown : (c.zoneFor name).1 ≠ .unknown) :
    ∃ above ∈ ancestors (canonical name), ∃ e, c.Serves above e ∧
      (c.zoneFor name).1.name = canonical above := by
  rw [zoneFor_fst] at hknown ⊢
  obtain hunknown | ⟨above, hmem, e, hfound, hne, hzone⟩ := c.firstZone_cases
    (ancestors (canonical name))
  · exact absurd hunknown hknown
  · exact ⟨above, hmem, e, serves_iff.2 ⟨hfound, hne⟩, by rw [hzone, name_zoneAt]⟩

/-- The search ends at the canonical form of any name on the way up that alone has servers. -/
theorem name_zoneFor_holding (hmem : above ∈ ancestors (canonical name)) :
    ((holding above oneServer).zoneFor name).1 ≠ .unknown ∧
      ((holding above oneServer).zoneFor name).1.name = canonical above := by
  have hserves : (holding above oneServer).Serves above oneServer :=
    serves_holding_iff.2 ⟨rfl, rfl, by decide, by decide⟩
  have hknown : ((holding above oneServer).zoneFor name).1 ≠ .unknown := by
    rw [zoneFor_fst]
    exact fun hunknown => firstZone_eq_unknown_iff.1 hunknown _ hmem _ hserves
  obtain ⟨other, -, e, hother, hname⟩ := exists_name_zoneFor hknown
  exact ⟨hknown, hname.trans (serves_holding_iff.1 hother).1⟩

end

/-- For all names, in canonical form: a zone encloses a name exactly when it is met on the way up
from it, and the way up starts at the name, cuts off one label at a time and ends at the root.
Canonicalising is idempotent, and to lie at or below a zone is a partial order with the root on top,
in which any two zones that enclose a name are comparable.  The search for the enclosing zone finds
a zone whenever the cache serves one that encloses the name, and one at or below it.  That the zone
it finds encloses the name, with every cache, holds exactly when all names on the way up are in
canonical form, up to blanks in front of the root. -/
theorem enclosing_zones_agree_iff (x y w : String) :
    (isSubdomain (canonical x) (canonical y) = true ↔ canonical y ∈ ancestors (canonical x)) ∧
    Climbs (canonical x) (ancestors (canonical x)) ∧
    canonical (canonical x) = canonical x ∧
    (isSubdomain (canonical x) (canonical x) = true ∧ isSubdomain (canonical x) root = true ∧
      (isSubdomain (canonical x) (canonical y) = true →
        isSubdomain (canonical y) (canonical x) = true → canonical x = canonical y) ∧
      (isSubdomain (canonical x) (canonical y) = true →
        isSubdomain (canonical y) (canonical w) = true →
          isSubdomain (canonical x) (canonical w) = true) ∧
      (isSubdomain (canonical x) (canonical y) = true →
        isSubdomain (canonical x) (canonical w) = true →
          isSubdomain (canonical y) (canonical w) = true ∨
            isSubdomain (canonical w) (canonical y) = true)) ∧
    (∀ (cache : Cache) (servers : Entry), isSubdomain (canonical x) (canonical y) = true →
      cache.Serves (canonical y) servers → (cache.zoneFor x).1 ≠ .unknown ∧
        isSubdomain (cache.zoneFor x).1.name (canonical y) = true) ∧
    ((∀ cache : Cache, (cache.zoneFor x).1 ≠ .unknown →
        isSubdomain (canonical x) (cache.zoneFor x).1.name = true) ↔
      ∀ above ∈ ancestors (canonical x), canonical above = above ∨ canonical above = root) := by
  refine ⟨Name.isSubdomain_iff_mem_ancestors, Name.climbs_ancestors x, Name.canonical_canonical x,
    ⟨Name.isSubdomain_refl _, Name.isSubdomain_root _, Name.isSubdomain_antisymm,
      Name.isSubdomain_trans, Name.isSubdomain_or_of_encloses⟩,
    fun cache servers => below_of_serves, ?_, ?_⟩
  · intro hall above hmem
    obtain ⟨hknown, hname⟩ := name_zoneFor_holding hmem
    have hin := hall _ hknown
    rw [hname] at hin
    exact Name.canonical_of_mem_of_encloses hmem hin
  · intro hcanonical cache hknown
    obtain ⟨above, hmem, e, -, hname⟩ := exists_name_zoneFor hknown
    rw [hname]
    rcases hcanonical above hmem with heq | hroot
    · rw [heq]
      exact Name.isSubdomain_of_mem_ancestors_self hmem
    · rw [hroot]
      exact Name.isSubdomain_root _

/-- With the servers of `b.` in the cache, the search from `a. b.` ends at `b.`, which is no name on
the way up from `a. b.` and which the suffix test rejects. -/
theorem enclosed_by_trimmed_zone :
    let cache := ({} : Cache).set "b." .ns ["ns.b."] 300 0
    (cache.zoneFor "a. b.").1.name = "b." ∧
      ancestors (canonical "a. b.") = ["a. b.", " b.", "."] ∧
      isSubdomain (canonical "a. b.") "b." = false := by
  decide +kernel

end CachingResolver.Cache
