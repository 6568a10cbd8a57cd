import CachingResolver.Proofs.NameText
import Mathlib.Data.List.Infix

/-!
# Zone cuts and labels

The resolver compares names and climbs from a name to those above it on canonical texts, where a dot
stands for the end of a label.  The dot of an octet inside a label, which is written after a
backslash, looks the same.

`zone_cuts_iff` says for every name what follows: a name passes for one below a zone exactly when
the labels of the zone, in lower case, end its own, or when the zone is what follows a dot octet of
one of its labels; and the names above it are the texts of its label suffixes exactly when no label
holds a dot octet before the very end of the name.
-/

namespace CachingResolver.DomainName

open CachingResolver.Text CachingResolver.Name

/-- The octet `-`, which is written after a backslash at the front of a label only. -/
def hyphen : UInt8 := 0x2d

/-- The octet `*`, which is written as it is at the front of a label only. -/
def asterisk : UInt8 := 0x2a

/-- The labels of a name with ASCII letters in lower case. -/
def folded (n : DomainName) : List (List UInt8) :=
  foldLabels n.labels

theorem labelsSize_drop_le (labels : List (List UInt8)) (k : Nat) :
    labelsSize (labels.drop k) ≤ labelsSize labels := by
  induction labels generalizing k with
  | nil => rw [List.drop_nil]
  | cons label rest ih =>
      cases k with
      | zero => exact le_rfl
      | succ k =>
          have hrest : labelsSize rest ≤ labelsSize (label :: rest) := Nat.le_add_left _ _
          exact (ih k).trans hrest

theorem areLabels_drop {labels : List (List UInt8)} (h : AreLabels labels) (k : Nat) :
    AreLabels (labels.drop k) :=
  ⟨fun label hlabel => h.1 label (List.mem_of_mem_drop hlabel),
    (labelsSize_drop_le labels k).trans h.2⟩

/-- The name of the labels from the `k`-th on. -/
def fromLabel (n : DomainName) (k : Nat) : DomainName where
  labels := n.labels.drop k
  isComplete := n.isComplete
  areLabels := areLabels_drop n.areLabels k

/-- A name and those that its labels put above it, from the bottom up to the root. -/
def suffixes (n : DomainName) : List DomainName :=
  (List.range (n.labels.length + 1)).map n.fromLabel

/-- The zone is what follows a dot octet of a label, with the labels above. -/
def CutsInside (labels zone : List (List UInt8)) : Prop :=
  ∃ left b right post, (left ++ dotOctet :: b :: right) :: post <:+ labels ∧
    zone = (b :: right) :: post ∧ b ≠ hyphen ∧ b ≠ asterisk

/-- A label holds a dot octet before the very end of the name. -/
def HasInnerDot (labels : List (List UInt8)) : Prop :=
  ∃ left right post, (left ++ dotOctet :: right) :: post <:+ labels ∧ (right ≠ [] ∨ post ≠ [])

section Texts

variable {l : List UInt8} {labels zone post : List (List UInt8)} {ds : List Char}

/-! ### Dots in the text of a name -/

theorem nameChars_suffix (h : post <:+ labels) (hpost : post ≠ []) :
    nameChars post <:+ nameChars labels := by
  induction labels with
  | nil => exact absurd (List.suffix_nil.1 h) hpost
  | cons l rest ih =>
      rcases List.suffix_cons_iff.1 h with rfl | h
      · exact List.suffix_rfl
      · have hrest : rest ≠ [] := by
          rintro rfl
          exact hpost (List.suffix_nil.1 h)
        rw [nameChars_cons, endChars, if_pos hrest]
        exact (ih h).trans ((List.suffix_cons _ _).trans (List.suffix_append _ _))

theorem dot_suffix_endChars (hds : ds ≠ []) :
    '.' :: ds <:+ endChars l post ↔
      post ≠ [] ∧ (ds = nameChars post ∨ '.' :: ds <:+ nameChars post) := by
  unfold endChars
  split
  · rename_i hpost
    rw [List.suffix_cons_iff, List.cons.injEq]
    simp [hpost]
  · rename_i hpost
    refine iff_of_false (fun h => ?_) fun h => hpost h.1
    split at h
    · exact absurd h.length_le (by simp)
    · have := h.length_le
      exact hds (List.length_eq_zero_iff.1 (by simpa using this))

/-- What follows a dot in the text of a name, other than the last one: the text of labels above, or
what follows a dot octet. -/
theorem dot_suffix_nameChars (hds : ds ≠ []) :
    '.' :: ds <:+ nameChars labels ↔
      (∃ l post, l :: post <:+ labels ∧ post ≠ [] ∧ ds = nameChars post) ∨
        ∃ left right post, (left ++ dotOctet :: right) :: post <:+ labels ∧
          ds = cellChars false right ++ endChars (left ++ dotOctet :: right) post := by
  refine ⟨fun h => ?_, ?_⟩
  · induction labels with
    | nil =>
        have := h.length_le
        exact absurd (List.length_eq_zero_iff.1 (by simpa [nameChars] using this)) hds
    | cons l post ih =>
        rw [nameChars_cons, dot_suffix_cellChars_append, dot_suffix_endChars hds] at h
        rcases h with ⟨left, right, rfl, rfl⟩ | ⟨hpost, rfl | h⟩
        · exact .inr ⟨left, right, post, List.suffix_rfl, rfl⟩
        · exact .inl ⟨l, post, List.suffix_rfl, hpost, rfl⟩
        · rcases ih h with ⟨k, more, hs, h⟩ | ⟨left, right, more, hs, h⟩
          · exact .inl ⟨k, more, hs.trans (List.suffix_cons _ _), h⟩
          · exact .inr ⟨left, right, more, hs.trans (List.suffix_cons _ _), h⟩
  · rintro (⟨l, post, hs, hpost, rfl⟩ | ⟨left, right, post, hs, rfl⟩)
    all_goals
      refine List.IsSuffix.trans ?_ (nameChars_suffix hs (List.cons_ne_nil _ _))
      rw [nameChars_cons, dot_suffix_cellChars_append]
    · exact .inr ((dot_suffix_endChars hds).2 ⟨hpost, .inl rfl⟩)
    · exact .inl ⟨left, right, rfl, rfl⟩

/-! ### What follows a dot octet, as the text of a name -/

theorem octetChars_true_eq_false {b : UInt8} :
    octetChars true b = octetChars false b ↔ b ≠ hyphen ∧ b ≠ asterisk := by
  refine ⟨fun h => ⟨?_, ?_⟩, fun ⟨hhyphen, hasterisk⟩ => ?_⟩
  · rintro rfl
    exact absurd h (by decide)
  · rintro rfl
    exact absurd h (by decide)
  · have hplain : isPlain true b = isPlain false b := by
      rw [← UInt8.toNat_inj.ne] at hhyphen hasterisk
      have hhyphen : b.toNat ≠ 45 := hhyphen
      have hasterisk : b.toNat ≠ 42 := hasterisk
      rw [Bool.eq_iff_iff, isPlain_iff, isPlain_iff]
      simp [hhyphen, hasterisk]
    unfold octetChars
    rw [hplain]

theorem endChars_append_dotOctet (left : List UInt8) (b : UInt8) (right : List UInt8)
    (post : List (List UInt8)) :
    endChars (left ++ dotOctet :: b :: right) post = endChars (b :: right) post := by
  unfold endChars
  rw [List.getLast?_append_cons, List.getLast?_cons_cons]

/-- What follows a dot octet is the text of a name when the rest of the label is not empty and is
written like a label of its own. -/
theorem cellChars_append_eq_nameChars {left right : List UInt8} (hpost : ∀ k ∈ post, k ≠ [])
    (hzone : ∀ k ∈ zone, k ≠ []) :
    cellChars false right ++ endChars (left ++ dotOctet :: right) post = nameChars zone ↔
      ∃ b rest, right = b :: rest ∧ zone = right :: post ∧ b ≠ hyphen ∧ b ≠ asterisk := by
  refine ⟨fun h => ?_, ?_⟩
  · cases zone with
    | nil =>
        exfalso
        by_cases hright : right = []
        · subst hright
          unfold endChars at h
          split at h
          · exact nameChars_ne_nil hpost (List.cons.inj h).2
          · rw [List.getLast?_concat, if_pos rfl] at h
            cases h
        · exact dot_ne_cellChars_append hright h.symm
    | cons m more =>
        rw [nameChars_cons] at h
        obtain ⟨rfl, htext, hend⟩ := cellChars_append_inj (ends_endChars _ _) (ends_endChars _ _) h
        obtain ⟨b, rest, rfl⟩ := List.exists_cons_of_ne_nil (hzone right List.mem_cons_self)
        rw [endChars_append_dotOctet] at hend
        have hmore : ∀ k ∈ more, k ≠ [] := fun k hk => hzone k (List.mem_cons_of_mem _ hk)
        have hlabels : post = more := by
          rcases endChars_inj hpost hmore hend with ⟨rfl, rfl⟩ | ⟨hname, -, -⟩
          · rfl
          · exact (nameChars_inj hpost hmore).1 hname
        have hflag : octetChars true b = octetChars false b := (List.append_cancel_right htext).symm
        exact ⟨b, rest, rfl, by rw [hlabels], octetChars_true_eq_false.1 hflag⟩
  · rintro ⟨b, rest, rfl, rfl, hb⟩
    rw [nameChars_cons, endChars_append_dotOctet, cellChars, cellChars,
      octetChars_true_eq_false.2 hb]

/-! ### The test for subdomains -/

theorem isSubdomainChars_nameChars (hlabels : ∀ k ∈ labels, k ≠ []) (hzone : ∀ k ∈ zone, k ≠ []) :
    isSubdomainChars (nameChars labels) (nameChars zone) = true ↔
      zone <:+ labels ∨ CutsInside labels zone := by
  have hroot : nameChars zone = nameChars [] ↔ zone = [] := nameChars_inj hzone (by simp)
  simp only [isSubdomainChars, Bool.or_eq_true, beq_iff_eq, List.isSuffixOf_iff_suffix]
  rw [show ['.'] = nameChars [] from rfl, hroot, nameChars_inj hlabels hzone,
    dot_suffix_nameChars (nameChars_ne_nil hzone)]
  refine ⟨?_, ?_⟩
  · rintro ((rfl | rfl) | ⟨l, post, hs, hpost, heq⟩ | ⟨left, right, post, hs, heq⟩)
    · exact .inl List.nil_suffix
    · exact .inl List.suffix_rfl
    · have hs : post <:+ labels := (List.suffix_cons l post).trans hs
      have hne : ∀ k ∈ post, k ≠ [] := fun k hk => hlabels k (hs.subset hk)
      exact .inl ((nameChars_inj hzone hne).1 heq ▸ hs)
    · have hne : ∀ k ∈ post, k ≠ [] :=
        fun k hk => hlabels k (hs.subset (List.mem_cons_of_mem _ hk))
      obtain ⟨b, rest, rfl, rfl, hb⟩ := (cellChars_append_eq_nameChars hne hzone).1 heq.symm
      exact .inr ⟨left, b, rest, post, hs, rfl, hb⟩
  · rintro (hs | ⟨left, b, right, post, hs, rfl, hb⟩)
    · obtain ⟨front, rfl⟩ := hs
      rcases List.eq_nil_or_concat' front with rfl | ⟨front, l, rfl⟩
      · exact .inl (.inr rfl)
      · by_cases hnil : zone = []
        · exact .inl (.inl hnil)
        · refine .inr (.inl ⟨l, zone, ?_, hnil, rfl⟩)
          rw [List.append_assoc]
          exact List.suffix_append front (l :: zone)
    · have hne : ∀ k ∈ post, k ≠ [] :=
        fun k hk => hlabels k (hs.subset (List.mem_cons_of_mem _ hk))
      exact .inr (.inr ⟨left, b :: right, post, hs,
        ((cellChars_append_eq_nameChars hne hzone).2 ⟨b, right, rfl, rfl, hb⟩).symm⟩)

/-! ### The names above a name -/

theorem aboveChars_append {cs xs : List Char} (h : '.' ∉ cs) :
    aboveChars (cs ++ xs) = aboveChars xs := by
  induction cs with
  | nil => rfl
  | cons c cs ih =>
      have hc : c ≠ '.' := fun heq => h (heq ▸ List.mem_cons_self)
      rw [List.cons_append, aboveChars, if_neg hc, ih fun hmem => h (List.mem_cons_of_mem _ hmem)]

theorem not_dot_mem_cellChars {f : Bool} (h : dotOctet ∉ l) : '.' ∉ cellChars f l := by
  intro hmem
  obtain ⟨front, ds, hds⟩ := List.append_of_mem hmem
  have hs : '.' :: ds <:+ cellChars f l ++ [] := ⟨front, by rw [List.append_nil, hds]⟩
  rcases dot_suffix_cellChars_append.1 hs with ⟨left, right, rfl, -⟩ | hs
  · exact h (List.mem_append_right _ List.mem_cons_self)
  · exact absurd hs.length_le (by simp)

theorem aboveChars_nameChars_singleton (hdots : ¬ HasInnerDot [l]) :
    aboveChars (nameChars [l]) = [['.']] := by
  rw [nameChars]
  split
  · rename_i hlast
    obtain ⟨left, rfl⟩ := List.getLast?_eq_some_iff.1 hlast
    have hleft : dotOctet ∉ left := by
      intro hmem
      obtain ⟨first, rest, rfl⟩ := List.append_of_mem hmem
      refine hdots ⟨first, rest ++ [dotOctet], [], ?_, .inl (by simp)⟩
      rw [List.append_assoc]
      exact List.suffix_rfl
    rw [cellChars_append_dotOctet, aboveChars_append (not_dot_mem_cellChars hleft)]
    rfl
  · rename_i hlast
    have hl : dotOctet ∉ l := by
      intro hmem
      obtain ⟨left, right, rfl⟩ := List.append_of_mem hmem
      refine hdots ⟨left, right, [], List.suffix_rfl, .inl ?_⟩
      rintro rfl
      exact hlast List.getLast?_concat
    rw [aboveChars_append (not_dot_mem_cellChars hl)]
    rfl

theorem not_dot_of_not_hasInnerDot (hdots : ¬ HasInnerDot (l :: post)) (hpost : post ≠ []) :
    dotOctet ∉ l := by
  intro hmem
  obtain ⟨left, right, rfl⟩ := List.append_of_mem hmem
  exact hdots ⟨left, right, post, List.suffix_rfl, .inr hpost⟩

theorem not_root_nameChars_cons (hlabels : ∀ k ∈ l :: post, k ≠ []) :
    ¬ (nameChars (l :: post) = [] ∨ nameChars (l :: post) = ['.']) := by
  rintro (hnil | hroot)
  · exact nameChars_ne_nil hlabels hnil
  · rw [nameChars_cons] at hroot
    exact dot_ne_cellChars_append (hlabels l List.mem_cons_self) hroot.symm

/-- Without a dot octet inside, the names above a name are the texts of its label suffixes. -/
theorem ancestorChars_nameChars (hlabels : ∀ k ∈ labels, k ≠ []) (hdots : ¬ HasInnerDot labels) :
    ancestorChars (nameChars labels) = labels.tails.map nameChars := by
  induction labels with
  | nil => rfl
  | cons l post ih =>
      rw [ancestorChars, if_neg (not_root_nameChars_cons hlabels), List.tails_cons, List.map_cons]
      congr 1
      cases post with
      | nil => exact aboveChars_nameChars_singleton hdots
      | cons m rest =>
          have hrest : ∀ k ∈ m :: rest, k ≠ [] := fun k hk => hlabels k (List.mem_cons_of_mem _ hk)
          have hl : dotOctet ∉ l := not_dot_of_not_hasInnerDot hdots (List.cons_ne_nil _ _)
          have hrec := ih hrest fun ⟨left, right, post, hs, h⟩ =>
            hdots ⟨left, right, post, hs.trans (List.suffix_cons _ _), h⟩
          rw [nameChars, aboveChars_append (not_dot_mem_cellChars hl), ← hrec]
          -- Past the dot, the climb is the one from the labels above.
          have hname := not_root_nameChars_cons hrest
          rw [aboveChars, if_pos rfl, if_neg hname, ancestorChars, if_neg hname]

/-- A dot octet inside puts a text among the names above that no label suffix has. -/
theorem not_subset_of_hasInnerDot (hlabels : ∀ k ∈ labels, k ≠ []) (h : HasInnerDot labels) :
    ¬ ancestorChars (nameChars labels) ⊆ labels.tails.map nameChars := by
  obtain ⟨left, right, post, hs, hinner⟩ := h
  intro hsubset
  have hpost : ∀ k ∈ post, k ≠ [] := fun k hk => hlabels k (hs.subset (List.mem_cons_of_mem _ hk))
  have hne : cellChars false right ++ endChars (left ++ dotOctet :: right) post ≠ [] := by
    rw [Ne, List.append_eq_nil_iff, cellChars_eq_nil]
    rintro ⟨hright, hend⟩
    rw [endChars, if_pos (hinner.resolve_left (not_not.2 hright))] at hend
    cases hend
  have hin : isSubdomainChars (nameChars labels)
      (cellChars false right ++ endChars (left ++ dotOctet :: right) post) = true :=
    isSubdomainChars_of_above
      (.inr ⟨hne, (dot_suffix_nameChars hne).2 (.inr ⟨left, right, post, hs, rfl⟩)⟩)
  have hmem := mem_ancestorChars_of_isSubdomainChars (nameChars_ne_nil hlabels) hne hin
  obtain ⟨zone, hzone, htext⟩ := List.mem_map.1 (hsubset hmem)
  have hzone : zone <:+ labels := (List.mem_tails _ _).1 hzone
  obtain ⟨b, rest, rfl, rfl, -⟩ :=
    (cellChars_append_eq_nameChars hpost fun k hk => hlabels k (hzone.subset hk)).1 htext.symm
  -- Label suffixes of one length are equal.
  have hsame := (List.suffix_of_suffix_length_le hzone hs (by simp)).eq_of_length (by simp)
  have hlen := congrArg List.length (List.cons.inj hsame).1
  simp only [List.length_append, List.length_cons] at hlen
  omega

end Texts

/-! ### Names -/

theorem ne_nil_of_mem_folded (n : DomainName) : ∀ k ∈ n.folded, k ≠ [] := by
  intro k hk
  obtain ⟨l, hl, rfl⟩ := List.mem_map.1 hk
  exact fun hnil => (n.areLabels.1 l hl).1 (List.map_eq_nil_iff.1 hnil)

theorem toList_canonical_text (n : DomainName) :
    (canonical n.text).toList = nameChars n.folded := by
  rw [toList_canonical, text, String.toList_ofList]
  exact canonicalChars_charsWith n

theorem map_canonical_suffixes (n : DomainName) :
    n.suffixes.map (fun s => canonical s.text) =
      (n.folded.tails.map nameChars).map String.ofList := by
  have htext : ∀ k, canonical (n.fromLabel k).text =
      String.ofList (nameChars (n.folded.drop k)) := by
    intro k
    rw [← String.toList_inj, toList_canonical_text, String.toList_ofList]
    exact congrArg nameChars List.map_drop
  refine List.ext_getElem (by simp [suffixes, folded, foldLabels]) fun k hk hk' => ?_
  simp only [suffixes, List.map_map, List.getElem_map, List.getElem_range, Function.comp_apply,
    htext, List.getElem_tails]

theorem ancestors_canonical_text {n : DomainName} (hdots : ¬ HasInnerDot n.folded) :
    ancestors (canonical n.text) = n.suffixes.map (fun s => canonical s.text) := by
  rw [map_canonical_suffixes, ancestors, toList_canonical_text,
    ancestorChars_nameChars (ne_nil_of_mem_folded n) hdots]

theorem exists_ancestor_of_hasInnerDot {n : DomainName} (hdot : HasInnerDot n.folded) :
    ∃ above ∈ ancestors (canonical n.text), ∀ s ∈ n.suffixes, canonical s.text ≠ above := by
  by_contra hnone
  push Not at hnone
  refine not_subset_of_hasInnerDot (ne_nil_of_mem_folded n) hdot fun cs hcs => ?_
  have hcs : String.ofList cs ∈ ancestors (canonical n.text) := by
    rw [ancestors, toList_canonical_text]
    exact List.mem_map_of_mem hcs
  obtain ⟨s, hs, htext⟩ := hnone _ hcs
  have hmem : String.ofList cs ∈ n.suffixes.map (fun s => canonical s.text) :=
    htext ▸ List.mem_map_of_mem hs
  rw [map_canonical_suffixes, List.mem_map_of_injective fun _ _ => String.ofList_injective] at hmem
  exact hmem

/-- A name passes for one below a zone exactly when the labels of the zone end its own or are what
follows a dot octet inside one of them.  The names above it are the texts of its label suffixes, in
order, exactly when it has no dot octet inside, and else there is one that is no such text. -/
theorem zone_cuts_iff (c z : DomainName) :
    (isSubdomain (canonical c.text) (canonical z.text) = true ↔
      z.folded <:+ c.folded ∨ CutsInside c.folded z.folded) ∧
    (ancestors (canonical c.text) = c.suffixes.map (fun s => canonical s.text) ↔
      ¬ HasInnerDot c.folded) ∧
    ((∃ above ∈ ancestors (canonical c.text), ∀ s ∈ c.suffixes, canonical s.text ≠ above) ↔
      HasInnerDot c.folded) := by
  have hlisted : ancestors (canonical c.text) = c.suffixes.map (fun s => canonical s.text) →
      ¬ ∃ above ∈ ancestors (canonical c.text), ∀ s ∈ c.suffixes, canonical s.text ≠ above := by
    rintro heq ⟨above, habove, hnone⟩
    rw [heq] at habove
    obtain ⟨s, hs, htext⟩ := List.mem_map.1 habove
    exact hnone s hs htext
  refine ⟨?_, ⟨fun heq hdot => hlisted heq (exists_ancestor_of_hasInnerDot hdot),
    ancestors_canonical_text⟩, fun hextra => ?_, exists_ancestor_of_hasInnerDot⟩
  · unfold isSubdomain
    rw [toList_canonical_text, toList_canonical_text]
    exact isSubdomainChars_nameChars (ne_nil_of_mem_folded c) (ne_nil_of_mem_folded z)
  · by_contra hdots
    exact hlisted (ancestors_canonical_text hdots) hextra

/-- The name of the one label `a.b`. -/
def dottedLabel : DomainName where
  labels := [[0x61, dotOctet, 0x62]]
  isComplete := true
  areLabels := by decide

/-- The name of the one label `b`. -/
def plainLabel : DomainName where
  labels := [[0x62]]
  isComplete := true
  areLabels := by decide

/-- The dot of the label `a.b` makes it a name below `b`. -/
theorem dottedLabel_below_plainLabel :
    (isSubdomain (canonical dottedLabel.text) (canonical plainLabel.text) = true ∧
      ¬ plainLabel.folded <:+ dottedLabel.folded) ∧
    ancestors (canonical dottedLabel.text) ≠
      dottedLabel.suffixes.map (fun s => canonical s.text) := by
  decide

end CachingResolver.DomainName
