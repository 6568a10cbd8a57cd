import CachingResolver.Name
import Mathlib.Data.List.DropRight

/-!
# Canonical names and the names above them

A canonical name is *rooted*: it ends in exactly one dot and holds no upper-case letter.  So are the
names above it, and canonicalising one of those only drops the blanks at its front.  The module
proves that canonicalising is idempotent (`canonical_canonical`), that the list of names above a
name is a chain of suffixes cut at dots (`pairwise_aboveChars`), and that it holds every zone that
the suffix test accepts (`mem_ancestorChars_of_isSubdomainChars`) and, for a name without blanks, no
others (`isSubdomain_of_mem_ancestors`).
-/

namespace CachingResolver.Name

open CachingResolver.Text

/-! ### Canonical characters -/

theorem toNat_toLower (c : Char) :
    c.toLower.toNat = if 65 ≤ c.toNat ∧ c.toNat ≤ 90 then c.toNat + 32 else c.toNat := by
  have hiff : c.val ≥ 'A'.val ∧ c.val ≤ 'Z'.val ↔ 65 ≤ c.toNat ∧ c.toNat ≤ 90 := by
    simp only [ge_iff_le, UInt32.le_iff_toNat_le]
    rfl
  unfold Char.toLower
  split
  · rename_i h
    rw [if_pos (hiff.1 h)]
    show (c.val + 32).toNat = c.toNat + 32
    have := (hiff.1 h).2
    rw [UInt32.toNat_add]
    show (c.toNat + 32) % 4294967296 = c.toNat + 32
    omega
  · rename_i h
    rw [if_neg (fun hc => h (hiff.2 hc))]

theorem toLower_toLower (c : Char) : c.toLower.toLower = c.toLower := by
  apply Char.toNat_inj.1
  by_cases h : 65 ≤ c.toNat ∧ c.toNat ≤ 90
  · have hlow : c.toLower.toNat = c.toNat + 32 := by rw [toNat_toLower, if_pos h]
    rw [toNat_toLower, if_neg (by omega)]
  · rw [toNat_toLower, toNat_toLower, if_neg h, if_neg h]

@[simp] theorem isBlank_toLower (c : Char) : isBlank c.toLower = isBlank c := by
  unfold isBlank
  rw [toNat_toLower]
  split
  · rename_i h
    rw [Bool.eq_iff_iff]
    simp only [Bool.or_eq_true, Bool.and_eq_true, decide_eq_true_eq, beq_iff_eq]
    omega
  · rfl

/-- Only a small letter is another character in lower case. -/
theorem eq_of_toLower_eq {c d : Char} (hd : d.toNat < 97) (h : c.toLower = d) : c = d := by
  apply Char.toNat_inj.1
  have hlow := toNat_toLower c
  rw [h] at hlow
  split at hlow <;> omega

theorem toLower_eq_dot {c : Char} (h : c.toLower = '.') : c = '.' :=
  eq_of_toLower_eq (by decide) h

/-- Characters that end in exactly one dot and hold no upper-case letter. -/
def Rooted (cs : List Char) : Prop :=
  ∃ body, cs = body ++ ['.'] ∧ body.getLast? ≠ some '.' ∧ ∀ c ∈ body, c.toLower = c

theorem Rooted.ne_nil {cs : List Char} (h : Rooted cs) : cs ≠ [] := by
  obtain ⟨body, rfl, -, -⟩ := h
  simp

/-- What remains of rooted characters at their end is rooted. -/
theorem Rooted.of_suffix {cs ds : List Char} (h : Rooted cs) (hs : ds <:+ cs) (hd : ds ≠ []) :
    Rooted ds := by
  obtain ⟨body, rfl, hlast, hlower⟩ := h
  obtain ⟨front, hfront⟩ := hs
  obtain ⟨rest, last, rfl⟩ : ∃ rest last, ds = rest ++ [last] :=
    ⟨ds.dropLast, ds.getLast hd, (List.dropLast_append_getLast hd).symm⟩
  rw [← List.append_assoc] at hfront
  obtain ⟨hbody, hdot⟩ := List.append_inj' hfront rfl
  obtain rfl : last = '.' := by simpa using hdot
  subst hbody
  refine ⟨rest, rfl, ?_, fun c hc => hlower c (List.mem_append_right _ hc)⟩
  intro hrest
  exact hlast (by simp [List.getLast?_append, hrest])

theorem rooted_canonicalChars (cs : List Char) : Rooted (canonicalChars cs) := by
  refine ⟨_, rfl, ?_, ?_⟩
  · intro hlast
    rw [List.getLast?_map, Option.map_eq_some_iff] at hlast
    obtain ⟨c, hc, hdot⟩ := hlast
    obtain rfl := toLower_eq_dot hdot
    obtain ⟨hne, hget⟩ : ∃ hne, (List.rdropWhile (· == '.') (trim cs)).getLast hne = '.' := by
      obtain ⟨front, hfront⟩ := List.getLast?_eq_some_iff.1 hc
      refine ⟨by rw [show List.rdropWhile _ _ = _ from hfront]; simp, ?_⟩
      simp only [show List.rdropWhile _ _ = _ from hfront, List.getLast_append_singleton]
    exact List.rdropWhile_last_not (· == '.') (trim cs) hne (by simpa using hget)
  · intro c hc
    obtain ⟨d, -, rfl⟩ := List.mem_map.1 hc
    exact toLower_toLower d

theorem dropTrailing_dot_append (cs : List Char) :
    dropTrailing (· == '.') (cs ++ ['.']) = dropTrailing (· == '.') cs :=
  List.rdropWhile_concat_pos (· == '.') cs '.' (by decide)

theorem dropTrailing_dot_eq_self {cs : List Char} (h : cs.getLast? ≠ some '.') :
    dropTrailing (· == '.') cs = cs := by
  refine List.rdropWhile_eq_self_iff.2 fun hne hdot => h ?_
  have hdot : cs.getLast hne = '.' := by simpa using hdot
  rw [List.getLast?_eq_getLast_of_ne_nil hne, hdot]

/-- Canonicalising rooted characters drops the blanks at their front and no more. -/
theorem Rooted.canonicalChars_eq {cs : List Char} (h : Rooted cs) :
    canonicalChars cs = cs.dropWhile isBlank := by
  -- The dot at the end is no blank, so something is left that ends in it.
  have hdrop : Rooted (cs.dropWhile isBlank) := by
    refine h.of_suffix (List.dropWhile_suffix _) ?_
    obtain ⟨body, rfl, -, -⟩ := h
    intro hnil
    have := List.dropWhile_eq_nil_iff.1 hnil '.' (by simp)
    exact absurd this (by decide)
  obtain ⟨body, hbody, hlast, hlower⟩ := hdrop
  unfold canonicalChars trim
  rw [hbody]
  have htrim : dropTrailing isBlank (body ++ ['.']) = body ++ ['.'] :=
    List.rdropWhile_concat_neg isBlank body '.' (by decide)
  rw [htrim, dropTrailing_dot_append, dropTrailing_dot_eq_self hlast, List.map_congr_left hlower,
    List.map_id']

theorem dropWhile_isBlank_canonicalChars (cs : List Char) :
    (canonicalChars cs).dropWhile isBlank = canonicalChars cs := by
  -- A canonical name starts with the first character that is not blank, or is the root.
  have hfront : ∀ ds : List Char, ds <+: cs.dropWhile isBlank →
      (ds.map Char.toLower ++ ['.']).dropWhile isBlank = ds.map Char.toLower ++ ['.'] := by
    intro ds hds
    cases ds with
    | nil => rfl
    | cons d ds =>
        obtain ⟨rest, hrest⟩ := hds
        have hd : isBlank d = false := by
          have := List.head?_dropWhile_not isBlank cs
          rw [← hrest] at this
          simpa using this
        simp [hd]
  exact hfront _ ((List.rdropWhile_prefix _ _).trans (List.rdropWhile_prefix _ _))

theorem canonicalChars_canonicalChars (cs : List Char) :
    canonicalChars (canonicalChars cs) = canonicalChars cs := by
  rw [(rooted_canonicalChars cs).canonicalChars_eq, dropWhile_isBlank_canonicalChars]

/-- A canonical name starts like the name, in lower case, when the name does not start with a
blank. -/
theorem head?_canonicalChars {c : Char} (hc : isBlank c = false) (cs : List Char) :
    (canonicalChars (c :: cs)).head? = some c.toLower := by
  obtain ⟨ds, hds⟩ : ∃ ds, trim (c :: cs) = c :: ds := by
    unfold trim
    rw [List.dropWhile_cons_of_neg (by simp [hc])]
    have hne : dropTrailing isBlank (c :: cs) ≠ [] := fun hnil => by
      have hall := List.rdropWhile_eq_nil_iff.1 hnil c List.mem_cons_self
      rw [hc] at hall
      cases hall
    obtain ⟨d, ds, hcons⟩ := List.exists_cons_of_ne_nil hne
    have hprefix : d :: ds <+: c :: cs := hcons ▸ List.rdropWhile_prefix isBlank (c :: cs)
    exact ⟨ds, (List.cons_prefix_cons.1 hprefix).1 ▸ hcons⟩
  unfold canonicalChars
  rw [hds]
  cases hdots : dropTrailing (· == '.') (c :: ds) with
  | nil =>
      -- A name of dots only is the root.
      have hall := List.rdropWhile_eq_nil_iff.1 hdots c List.mem_cons_self
      obtain rfl : c = '.' := by simpa using hall
      rfl
  | cons d rest =>
      have hprefix : d :: rest <+: c :: ds := hdots ▸ List.rdropWhile_prefix (· == '.') (c :: ds)
      rw [(List.cons_prefix_cons.1 hprefix).1]
      rfl

theorem toList_canonical (name : String) :
    (canonical name).toList = canonicalChars name.toList := by
  simp [canonical]

/-- Canonicalising twice is canonicalising once. -/
@[simp] theorem canonical_canonical (name : String) :
    canonical (canonical name) = canonical name := by
  unfold canonical
  rw [String.toList_ofList, canonicalChars_canonicalChars]

theorem rooted_canonical (name : String) : Rooted (canonical name).toList := by
  rw [toList_canonical]
  exact rooted_canonicalChars _

theorem canonical_ne_empty (name : String) : canonical name ≠ "" := by
  intro h
  exact (rooted_canonical name).ne_nil (congrArg String.toList h)

/-! ### The names above a name -/

/-- `b` stands above `a`: it is the root, or what follows a dot of `a`. -/
def Above (a b : List Char) : Prop :=
  b = ['.'] ∨ (b ≠ [] ∧ '.' :: b <:+ a)

theorem Above.cons {a b : List Char} (h : Above a b) (c : Char) : Above (c :: a) b :=
  h.imp_right fun hs => ⟨hs.1, hs.2.trans (List.suffix_cons c a)⟩

theorem above_of_mem_aboveChars {cs b : List Char} (h : b ∈ aboveChars cs) : Above cs b := by
  induction cs with
  | nil => exact .inl (by simpa [aboveChars] using h)
  | cons c cs ih =>
      rw [aboveChars] at h
      split at h
      · rename_i hdot
        subst hdot
        split at h
        · exact .inl (by simpa using h)
        · rename_i hcs
          rcases List.mem_cons.1 h with rfl | h
          · exact .inr ⟨fun hnil => hcs (.inl hnil), List.suffix_rfl⟩
          · exact (ih h).cons '.'
      · exact (ih h).cons c

/-- The names above a name are a chain: each stands above all those before it. -/
theorem pairwise_aboveChars (cs : List Char) : (aboveChars cs).Pairwise Above := by
  induction cs with
  | nil => simp [aboveChars]
  | cons c cs ih =>
      rw [aboveChars]
      split
      · split
        · simp
        · exact List.pairwise_cons.2 ⟨fun b hb => above_of_mem_aboveChars hb, ih⟩
      · exact ih

theorem pairwise_ancestorChars (cs : List Char) : (ancestorChars cs).Pairwise Above := by
  unfold ancestorChars
  split
  · simp
  · exact List.pairwise_cons.2 ⟨fun b hb => above_of_mem_aboveChars hb, pairwise_aboveChars cs⟩

theorem root_mem_aboveChars (cs : List Char) : ['.'] ∈ aboveChars cs := by
  induction cs with
  | nil => simp [aboveChars]
  | cons c cs ih =>
      rw [aboveChars]
      split
      · split
        · simp
        · exact List.mem_cons_of_mem _ ih
      · exact ih

theorem mem_aboveChars_of_suffix {cs b : List Char} (h : '.' :: b <:+ cs) (hb : b ≠ []) :
    b ∈ aboveChars cs := by
  induction cs with
  | nil => simp at h
  | cons c cs ih =>
      rw [aboveChars]
      rcases List.suffix_cons_iff.1 h with heq | hs
      · -- `b` is what follows the first dot.
        obtain ⟨rfl, rfl⟩ := List.cons.inj heq
        rw [if_pos rfl]
        split
        · rename_i hroot
          simpa [hb] using hroot
        · exact List.mem_cons_self
      · split
        · rw [if_neg]
          · exact List.mem_cons_of_mem _ (ih hs)
          · rintro (rfl | rfl)
            · simp at hs
            · have := hs.length_le
              exact hb (List.length_eq_zero_iff.1 (by simpa using this))
        · exact ih hs

theorem isSubdomainChars_iff {cs zone : List Char} :
    isSubdomainChars cs zone = true ↔ zone = ['.'] ∨ cs = zone ∨ '.' :: zone <:+ cs := by
  simp [isSubdomainChars, or_assoc]

theorem suffix_of_isSubdomainChars {cs zone : List Char} (hcs : Rooted cs)
    (h : isSubdomainChars cs zone = true) : zone <:+ cs := by
  rcases isSubdomainChars_iff.1 h with rfl | rfl | hs
  · obtain ⟨body, rfl, -, -⟩ := hcs
    exact List.suffix_append body ['.']
  · exact List.suffix_rfl
  · exact (List.suffix_cons _ _).trans hs

/-- Every zone that the suffix test accepts is among the names at or above a name. -/
theorem mem_ancestorChars_of_isSubdomainChars {cs zone : List Char} (hcs : cs ≠ [])
    (hzone : zone ≠ []) (h : isSubdomainChars cs zone = true) : zone ∈ ancestorChars cs := by
  rw [isSubdomainChars_iff] at h
  unfold ancestorChars
  split
  · -- Nothing but the root itself lies above the root.
    rename_i hroot
    obtain rfl : cs = ['.'] := hroot.resolve_left hcs
    rcases h with rfl | rfl | hs
    · simp
    · simp
    · have := hs.length_le
      exact absurd (List.length_eq_zero_iff.1 (by simpa using this)) hzone
  · rcases h with rfl | rfl | hs
    · exact List.mem_cons_of_mem _ (root_mem_aboveChars cs)
    · exact List.mem_cons_self
    · exact List.mem_cons_of_mem _ (mem_aboveChars_of_suffix hs hzone)

theorem Rooted.of_mem_ancestorChars {cs ds : List Char} (h : Rooted cs)
    (hd : ds ∈ ancestorChars cs) : Rooted ds := by
  have habove : ds = cs ∨ Above cs ds := by
    unfold ancestorChars at hd
    split at hd
    · exact .inl (by simpa using hd)
    · exact (List.mem_cons.1 hd).imp_right above_of_mem_aboveChars
  have hroot : Rooted ['.'] := ⟨[], rfl, by simp, by simp⟩
  rcases habove with rfl | rfl | ⟨hne, hs⟩
  · exact h
  · exact hroot
  · exact h.of_suffix ((List.suffix_cons _ _).trans hs) hne

theorem suffix_dropWhile {p : Char → Bool} {c : Char} {cs ds : List Char} (h : c :: cs <:+ ds)
    (hc : p c = false) : c :: cs <:+ ds.dropWhile p := by
  induction ds with
  | nil => simp at h
  | cons d ds ih =>
      rcases List.suffix_cons_iff.1 h with heq | hs
      · obtain ⟨rfl, rfl⟩ := List.cons.inj heq
        simp [hc]
      · rw [List.dropWhile_cons]
        split
        · exact ih hs
        · exact h

/-- On the way up from a name, a zone strictly below the canonical form of `ds` comes before
`ds`. -/
theorem mem_before_of_isSubdomainChars {cs ds zone : List Char} {pre post : List (List Char)}
    (hcs : Rooted cs) (hsplit : ancestorChars cs = pre ++ ds :: post)
    (hzone : canonicalChars zone = zone) (hin : isSubdomainChars cs zone = true)
    (hbelow : isSubdomainChars zone (canonicalChars ds) = true) (hne : zone ≠ canonicalChars ds) :
    zone ∈ pre := by
  have hnil : zone ≠ [] := hzone ▸ (rooted_canonicalChars zone).ne_nil
  have hmem := mem_ancestorChars_of_isSubdomainChars hcs.ne_nil hnil hin
  have hds : Rooted ds := hcs.of_mem_ancestorChars (by simp [hsplit])
  rw [isSubdomainChars_iff] at hbelow
  rw [hsplit] at hmem
  rcases List.mem_append.1 hmem with hpre | hmem
  · exact hpre
  · rcases List.mem_cons.1 hmem with rfl | hpost
    · exact absurd hzone.symm hne
    · -- A zone after `ds` is too short to lie below the canonical form of `ds`.
      exfalso
      have hchain := pairwise_ancestorChars cs
      rw [hsplit] at hchain
      have habove : Above ds zone :=
        (List.pairwise_cons.1 (List.pairwise_append.1 hchain).2.1).1 zone hpost
      have hpos : 0 < zone.length := List.length_pos_iff.2 hnil
      have hpos' : 0 < (canonicalChars ds).length :=
        List.length_pos_iff.2 (rooted_canonicalChars ds).ne_nil
      rcases hbelow with hroot | heq | hs
      · rcases habove with rfl | ⟨-, hs⟩
        · exact hne hroot.symm
        · have hlen := (suffix_dropWhile (p := isBlank) hs (by decide)).length_le
          rw [← hds.canonicalChars_eq, hroot] at hlen
          simp only [List.length_cons, List.length_nil] at hlen
          omega
      · exact hne heq
      · have hlen' := hs.length_le
        rcases habove with rfl | ⟨-, hs⟩
        · simp only [List.length_cons, List.length_nil] at hlen'
          omega
        · have hlen := (suffix_dropWhile (p := isBlank) hs (by decide)).length_le
          rw [← hds.canonicalChars_eq] at hlen
          simp only [List.length_cons] at hlen hlen'
          omega

theorem mem_before_of_isSubdomain {name above zone : String} {pre post : List String}
    (hsplit : ancestors (canonical name) = pre ++ above :: post) (hzone : canonical zone = zone)
    (hin : isSubdomain (canonical name) zone = true)
    (hbelow : isSubdomain zone (canonical above) = true) (hne : zone ≠ canonical above) :
    zone ∈ pre := by
  unfold ancestors at hsplit
  obtain ⟨pre, rest, hchars, rfl, hrest⟩ := List.map_eq_append_iff.1 hsplit
  obtain ⟨ds, post, rfl, rfl, -⟩ := List.map_eq_cons_iff.1 hrest
  have hds : (canonical (String.ofList ds)).toList = canonicalChars ds := by
    rw [toList_canonical, String.toList_ofList]
  have hcs := rooted_canonical name
  have hzone' : canonicalChars zone.toList = zone.toList := by
    rw [← toList_canonical, hzone]
  have hne' : zone.toList ≠ canonicalChars ds := by
    intro heq
    rw [← hds, String.toList_inj] at heq
    exact hne heq
  rw [isSubdomain, hds] at hbelow
  have hmem := mem_before_of_isSubdomainChars hcs hchars hzone' hin hbelow hne'
  exact List.mem_map.2 ⟨zone.toList, hmem, String.ofList_toList⟩

/-! ### Names without blanks -/

theorem isSubdomainChars_of_above {cs ds : List Char} (h : Above cs ds) :
    isSubdomainChars cs ds = true :=
  isSubdomainChars_iff.2 (h.imp_right fun hs => .inr hs.2)

theorem isSubdomainChars_of_mem_ancestorChars {cs ds : List Char} (h : ds ∈ ancestorChars cs) :
    isSubdomainChars cs ds = true := by
  unfold ancestorChars at h
  split at h
  · obtain rfl := List.mem_singleton.1 h
    simp [isSubdomainChars]
  · rcases List.mem_cons.1 h with rfl | h
    · simp [isSubdomainChars]
    · exact isSubdomainChars_of_above (above_of_mem_aboveChars h)

/-- Each of the names above a name lies at or below those after it. -/
theorem pairwise_ancestors (name : String) :
    (ancestors name).Pairwise fun below above => isSubdomain below above = true := by
  refine List.pairwise_map.2 ((pairwise_ancestorChars name.toList).imp fun habove => ?_)
  unfold isSubdomain
  rw [String.toList_ofList, String.toList_ofList]
  exact isSubdomainChars_of_above habove

theorem mem_ancestors_of_isSubdomain {name zone : String}
    (h : isSubdomain (canonical name) (canonical zone) = true) :
    canonical zone ∈ ancestors (canonical name) := by
  have hmem := mem_ancestorChars_of_isSubdomainChars (rooted_canonical name).ne_nil
    (rooted_canonical zone).ne_nil h
  exact List.mem_map.2 ⟨_, hmem, String.ofList_toList⟩

theorem dropWhile_isBlank_eq_self {cs : List Char} (h : ∀ c ∈ cs, isBlank c = false) :
    cs.dropWhile isBlank = cs := by
  cases cs with
  | nil => rfl
  | cons c cs => rw [List.dropWhile_cons_of_neg (by simp [h c List.mem_cons_self])]

theorem trim_eq_self {cs : List Char} (h : ∀ c ∈ cs, isBlank c = false) : trim cs = cs := by
  unfold trim dropTrailing
  rw [dropWhile_isBlank_eq_self h,
    dropWhile_isBlank_eq_self fun c hc => h c (List.mem_reverse.1 hc), List.reverse_reverse]

theorem Rooted.canonicalChars_eq_self {cs : List Char} (h : Rooted cs)
    (hblank : ∀ c ∈ cs, isBlank c = false) : canonicalChars cs = cs := by
  rw [h.canonicalChars_eq, dropWhile_isBlank_eq_self hblank]

theorem mem_of_mem_ancestorChars {cs ds : List Char} (h : ds ∈ ancestorChars cs) (hcs : Rooted cs)
    {c : Char} (hc : c ∈ ds) : c ∈ cs :=
  (suffix_of_isSubdomainChars hcs (isSubdomainChars_of_mem_ancestorChars h)).subset hc

/-- Without blanks, the names above a name in canonical form are in canonical form too. -/
theorem canonical_of_mem_ancestors {name above : String}
    (hblank : ∀ c ∈ (canonical name).toList, isBlank c = false)
    (h : above ∈ ancestors (canonical name)) : canonical above = above := by
  obtain ⟨ds, hds, rfl⟩ := List.mem_map.1 h
  have hcs := rooted_canonical name
  unfold canonical
  rw [String.toList_ofList]
  exact congrArg String.ofList <| (hcs.of_mem_ancestorChars hds).canonicalChars_eq_self fun c hc =>
    hblank c (mem_of_mem_ancestorChars hds hcs hc)

/-- Without blanks, a name lies at or below each of the names above it. -/
theorem isSubdomain_of_mem_ancestors {name above : String}
    (hblank : ∀ c ∈ (canonical name).toList, isBlank c = false)
    (h : above ∈ ancestors (canonical name)) :
    isSubdomain (canonical name) (canonical above) = true := by
  rw [canonical_of_mem_ancestors hblank h]
  obtain ⟨ds, hds, rfl⟩ := List.mem_map.1 h
  unfold isSubdomain
  rw [String.toList_ofList]
  exact isSubdomainChars_of_mem_ancestorChars hds

theorem root_mem_ancestors (name : String) : root ∈ ancestors (canonical name) := by
  refine List.mem_map.2 ⟨['.'], ?_, rfl⟩
  exact mem_ancestorChars_of_isSubdomainChars (rooted_canonical name).ne_nil (by simp)
    (by simp [isSubdomainChars])

end CachingResolver.Name
