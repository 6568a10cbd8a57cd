import CachingResolver.Proofs.Name
import Mathlib.Data.List.Chain
import Mathlib.Data.List.Infix

/-!
# The order of names and the way up from a name

On names in canonical form the suffix test is a partial order with the root on top, in which the
zones that enclose one name are a chain (`isSubdomain_antisymm`, `isSubdomain_trans`,
`isSubdomain_or_of_encloses`).  The zones that enclose a name are those met on the way up from it,
one label at a time (`isSubdomain_iff_mem_ancestors`, `climbs_ancestors`).

A name met on the way up need not be in canonical form, because a label may start with blanks.  Its
canonical form is then no zone that encloses the name, unless it is the root
(`canonical_of_mem_of_encloses`).
-/

namespace CachingResolver.Name

open CachingResolver.Text

/-- `above` is what remains of `below` when something is cut off at its front. -/
def ProperSuffix (above below : String) : Prop :=
  above.toList <:+ below.toList ∧ above ≠ below

/-- The names from `name` up to the root, each the next one with its first label cut off. -/
structure Climbs (name : String) (names : List String) : Prop where
  starts : names.head? = some name
  ends : names.getLast? = some root
  steps : names.IsChain fun below above => parent? below = some above ∧ ProperSuffix above below

/-! ### The order on characters -/

section Characters

variable {cs ds zone other : List Char}

theorem isSubdomainChars_antisymm (hcs : Rooted cs) (hzone : Rooted zone)
    (h : isSubdomainChars cs zone = true) (h' : isSubdomainChars zone cs = true) : cs = zone := by
  have hdown := suffix_of_isSubdomainChars hzone h'
  exact hdown.eq_of_length_le (suffix_of_isSubdomainChars hcs h).length_le

theorem isSubdomainChars_trans (hother : other ≠ []) (h : isSubdomainChars cs zone = true)
    (h' : isSubdomainChars zone other = true) : isSubdomainChars cs other = true := by
  rw [isSubdomainChars_iff] at h h' ⊢
  rcases h' with hroot | rfl | hs'
  · exact .inl hroot
  · exact h
  · rcases h with rfl | rfl | hs
    · -- Nothing but the root lies above the root.
      have hlen := hs'.length_le
      simp only [List.length_cons, List.length_nil] at hlen
      exact absurd (List.length_eq_zero_iff.1 (by omega)) hother
    · exact .inr (.inr hs')
    · exact .inr (.inr (hs'.trans ((List.suffix_cons _ _).trans hs)))

/-- Of two texts that follow a dot of one name, one encloses the other. -/
theorem isSubdomainChars_of_suffix (h : '.' :: zone <:+ '.' :: other) :
    isSubdomainChars other zone = true := by
  rcases List.suffix_cons_iff.1 h with heq | hs
  · exact isSubdomainChars_iff.2 (.inr (.inl (List.cons.inj heq).2.symm))
  · exact isSubdomainChars_iff.2 (.inr (.inr hs))

theorem isSubdomainChars_or_of_encloses (h : isSubdomainChars cs zone = true)
    (h' : isSubdomainChars cs other = true) :
    isSubdomainChars zone other = true ∨ isSubdomainChars other zone = true := by
  rcases isSubdomainChars_iff.1 h with rfl | rfl | hs
  · exact .inr (isSubdomainChars_iff.2 (.inl rfl))
  · exact .inl h'
  · rcases isSubdomainChars_iff.1 h' with rfl | rfl | hs'
    · exact .inl (isSubdomainChars_iff.2 (.inl rfl))
    · exact .inr h
    · exact (List.suffix_or_suffix_of_suffix hs hs').symm.imp isSubdomainChars_of_suffix
        isSubdomainChars_of_suffix

/-! ### The way up on characters -/

theorem head?_aboveChars (cs : List Char) :
    (aboveChars cs).head? =
      match (cs.dropWhile (· != '.')).drop 1 with
      | [] => some ['.']
      | rest => some rest := by
  induction cs with
  | nil => rfl
  | cons c cs ih =>
      rw [aboveChars]
      split
      · rename_i hdot
        subst hdot
        cases cs with
        | nil => rfl
        | cons d ds =>
            split
            · rename_i hroot
              rw [hroot.resolve_left (List.cons_ne_nil d ds)]
              rfl
            · rfl
      · rename_i hdot
        rw [ih, List.dropWhile_cons_of_pos (by simp [hdot])]

theorem parentChars?_eq_head? (h : ¬ (cs = [] ∨ cs = ['.'])) :
    parentChars? cs = (aboveChars cs).head? := by
  rw [head?_aboveChars]
  exact if_neg h

theorem getLast?_aboveChars (cs : List Char) : (aboveChars cs).getLast? = some ['.'] := by
  induction cs with
  | nil => rfl
  | cons c cs ih =>
      rw [aboveChars]
      split
      · split
        · rfl
        · rw [List.getLast?_cons, ih, Option.getD_some]
      · exact ih

theorem isChain_cons_aboveChars (h : ¬ (cs = [] ∨ cs = ['.']))
    (hchain : (aboveChars cs).IsChain fun below above => parentChars? below = some above) :
    (cs :: aboveChars cs).IsChain fun below above => parentChars? below = some above := by
  refine List.isChain_cons.2 ⟨fun above habove => ?_, hchain⟩
  rw [parentChars?_eq_head? h]
  exact habove

theorem isChain_aboveChars (cs : List Char) :
    (aboveChars cs).IsChain fun below above => parentChars? below = some above := by
  induction cs with
  | nil => exact List.isChain_singleton _
  | cons c cs ih =>
      rw [aboveChars]
      split
      · split
        · exact List.isChain_singleton _
        · exact isChain_cons_aboveChars ‹_› ih
      · exact ih

theorem isChain_ancestorChars (cs : List Char) :
    (ancestorChars cs).IsChain fun below above => parentChars? below = some above := by
  unfold ancestorChars
  split
  · exact List.isChain_singleton _
  · exact isChain_cons_aboveChars ‹_› (isChain_aboveChars cs)

theorem head?_ancestorChars (cs : List Char) : (ancestorChars cs).head? = some cs := by
  unfold ancestorChars
  split <;> rfl

theorem getLast?_ancestorChars (h : cs ≠ []) : (ancestorChars cs).getLast? = some ['.'] := by
  unfold ancestorChars
  split
  · rename_i hroot
    simp [hroot.resolve_left h]
  · rw [List.getLast?_cons, getLast?_aboveChars, Option.getD_some]

/-- The name one label above a rooted name is a part of it. -/
theorem suffix_of_parentChars? (hcs : Rooted cs) (h : parentChars? cs = some ds) :
    ds <:+ cs ∧ ds ≠ cs := by
  unfold parentChars? at h
  split at h
  · cases h
  · rename_i hroot
    split at h
    · -- No dot comes before the last character, so that the root is next.
      obtain rfl := Option.some.inj h
      exact ⟨suffix_of_isSubdomainChars hcs (isSubdomainChars_iff.2 (.inl rfl)),
        fun heq => hroot (.inr heq.symm)⟩
    · rename_i hne
      obtain rfl := Option.some.inj h
      have hdrop : cs.dropWhile (· != '.') <:+ cs := List.dropWhile_suffix _
      refine ⟨(List.drop_suffix 1 _).trans hdrop, fun heq => ?_⟩
      have hlen := congrArg List.length heq
      have hle := hdrop.length_le
      have hpos : 0 < cs.length := List.length_pos_iff.2 hcs.ne_nil
      rw [List.length_drop] at hlen
      omega

/-- When the canonical form of a name on the way up encloses the name at its foot, the name is in
canonical form already, or is the root with blanks in front. -/
theorem canonicalChars_of_mem_of_encloses (hcs : Rooted cs) (hmem : ds ∈ ancestorChars cs)
    (h : isSubdomainChars cs (canonicalChars ds) = true) :
    canonicalChars ds = ds ∨ canonicalChars ds = ['.'] := by
  have hds : Rooted ds := hcs.of_mem_ancestorChars hmem
  have hfoot := suffix_of_isSubdomainChars hcs (isSubdomainChars_of_mem_ancestorChars hmem)
  have htrim : canonicalChars ds <:+ ds := hds.canonicalChars_eq ▸ List.dropWhile_suffix _
  rcases isSubdomainChars_iff.1 h with hroot | hself | hs
  · exact .inr hroot
  · rw [← hself] at htrim ⊢
    exact .inl (htrim.eq_of_length_le hfoot.length_le)
  · have hreach : '.' :: canonicalChars ds <:+ ds ∨ ds <:+ canonicalChars ds := by
      rcases List.suffix_or_suffix_of_suffix hs hfoot with hdot | hshort
      · exact .inl hdot
      · refine (List.suffix_cons_iff.1 hshort).imp_left fun (heq : ds = _) => ?_
        rw [← heq]
    left
    rcases hreach with hdot | hshort
    · -- Trimming would stop at the dot in front of the canonical form.
      have hlen := (suffix_dropWhile (p := isBlank) hdot (by decide)).length_le
      rw [← hds.canonicalChars_eq, List.length_cons] at hlen
      omega
    · exact htrim.eq_of_length_le hshort.length_le

/-- Dropping the blanks in front of a name keeps it below the canonical zones that enclose it. -/
theorem isSubdomainChars_canonicalChars (hds : Rooted ds) (hzone : canonicalChars zone = zone)
    (h : isSubdomainChars ds zone = true) : isSubdomainChars (canonicalChars ds) zone = true := by
  rw [isSubdomainChars_iff] at h ⊢
  rcases h with hroot | rfl | hs
  · exact .inl hroot
  · exact .inr (.inl hzone)
  · refine .inr (.inr ?_)
    rw [hds.canonicalChars_eq]
    exact suffix_dropWhile hs (by decide)

end Characters

/-! ### The order on names -/

section Names

variable {name zone other above : String}

@[simp] theorem isSubdomain_refl (name : String) : isSubdomain name name = true := by
  simp [isSubdomain, isSubdomainChars]

@[simp] theorem isSubdomain_root (name : String) : isSubdomain name root = true :=
  isSubdomainChars_iff.2 (.inl rfl)

theorem isSubdomain_antisymm (h : isSubdomain (canonical name) (canonical zone) = true)
    (h' : isSubdomain (canonical zone) (canonical name) = true) :
    canonical name = canonical zone :=
  String.toList_inj.1 (isSubdomainChars_antisymm (rooted_canonical _) (rooted_canonical _) h h')

theorem isSubdomain_trans (h : isSubdomain name zone = true)
    (h' : isSubdomain zone (canonical other) = true) : isSubdomain name (canonical other) = true :=
  isSubdomainChars_trans (rooted_canonical other).ne_nil h h'

theorem isSubdomain_or_of_encloses (h : isSubdomain name zone = true)
    (h' : isSubdomain name other = true) :
    isSubdomain zone other = true ∨ isSubdomain other zone = true :=
  isSubdomainChars_or_of_encloses h h'

/-! ### The way up from a name -/

theorem isSubdomain_of_mem_ancestors_self (h : zone ∈ ancestors name) :
    isSubdomain name zone = true := by
  obtain ⟨ds, hds, rfl⟩ := List.mem_map.1 h
  unfold isSubdomain
  rw [String.toList_ofList]
  exact isSubdomainChars_of_mem_ancestorChars hds

theorem isSubdomain_iff_mem_ancestors :
    isSubdomain (canonical name) (canonical zone) = true ↔
      canonical zone ∈ ancestors (canonical name) :=
  ⟨mem_ancestors_of_isSubdomain, isSubdomain_of_mem_ancestors_self⟩

theorem climbs_ancestors (name : String) :
    Climbs (canonical name) (ancestors (canonical name)) := by
  have hroot := rooted_canonical name
  refine ⟨?_, ?_, ?_⟩
  · simp [ancestors, head?_ancestorChars]
  · rw [ancestors, List.getLast?_map, getLast?_ancestorChars hroot.ne_nil]
    rfl
  · refine (List.isChain_map _).2 ((isChain_ancestorChars _).imp_of_mem_imp ?_)
    intro below above hbelow _ hparent
    obtain ⟨hs, hne⟩ := suffix_of_parentChars? (hroot.of_mem_ancestorChars hbelow) hparent
    refine ⟨by simp [parent?, hparent], by simpa using hs, fun heq => hne ?_⟩
    simpa using congrArg String.toList heq

theorem canonical_of_mem_of_encloses (hmem : above ∈ ancestors (canonical name))
    (h : isSubdomain (canonical name) (canonical above) = true) :
    canonical above = above ∨ canonical above = root := by
  obtain ⟨ds, hds, rfl⟩ := List.mem_map.1 hmem
  rw [isSubdomain, toList_canonical (String.ofList ds), String.toList_ofList] at h
  rw [canonical, String.toList_ofList]
  exact (canonicalChars_of_mem_of_encloses (rooted_canonical name) hds h).imp
    (congrArg String.ofList) (congrArg String.ofList)

theorem isSubdomain_canonical_of_mem (hmem : above ∈ ancestors (canonical name))
    (h : isSubdomain above (canonical zone) = true) :
    isSubdomain (canonical above) (canonical zone) = true := by
  obtain ⟨ds, hds, rfl⟩ := List.mem_map.1 hmem
  rw [isSubdomain, String.toList_ofList] at h
  rw [isSubdomain, toList_canonical, String.toList_ofList]
  refine isSubdomainChars_canonicalChars ((rooted_canonical name).of_mem_ancestorChars hds) ?_ h
  rw [toList_canonical, canonicalChars_canonicalChars]

end Names

end CachingResolver.Name
