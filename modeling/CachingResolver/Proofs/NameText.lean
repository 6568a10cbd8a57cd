import CachingResolver.DomainName
import CachingResolver.Proofs.Name

/-!
# The canonical text of a name in wire form

The canonical text of a name depends only on its labels, with their ASCII letters in lower case
(`canonicalChars_charsWith`), and it tells these labels (`nameChars_inj`).  What makes it so is that
the texts of octets are a prefix-free code without a dot at the front (`octetChars_append_inj`).

A dot inside the text of a label always comes from a dot octet, after a backslash
(`dot_suffix_cellChars_append`).
-/

namespace CachingResolver.DomainName

open CachingResolver.Text CachingResolver.Name

/-- The octet that is written as a dot after a backslash. -/
def dotOctet : UInt8 := 0x2e

/-- An octet with ASCII letters in lower case. -/
def foldOctet (b : UInt8) : UInt8 :=
  if 0x41 ≤ b && b ≤ 0x5a then b + 0x20 else b

/-- Labels with ASCII letters in lower case. -/
def foldLabels (labels : List (List UInt8)) : List (List UInt8) :=
  labels.map (·.map foldOctet)

/-! ### Octets -/

theorem toNat_ofNat_of_lt {n : Nat} (h : n < 256) : (Char.ofNat n).toNat = n := by
  have hvalid : n.isValidChar := .inl (by omega)
  unfold Char.ofNat
  rw [dif_pos hvalid]
  rfl

theorem isPlain_iff {isFirst : Bool} {b : UInt8} :
    isPlain isFirst b = true ↔
      (48 ≤ b.toNat ∧ b.toNat ≤ 57) ∨ (65 ≤ b.toNat ∧ b.toNat ≤ 90) ∨
        (97 ≤ b.toNat ∧ b.toNat ≤ 122) ∨ b.toNat = 95 ∨ (b.toNat = 45 ∧ isFirst = false) ∨
          (b.toNat = 42 ∧ isFirst = true) := by
  unfold isPlain isAlphanumeric
  simp [UInt8.le_iff_toNat_le, ← UInt8.toNat_inj, or_assoc]

theorem toNat_foldOctet (b : UInt8) :
    (foldOctet b).toNat = if 65 ≤ b.toNat ∧ b.toNat ≤ 90 then b.toNat + 32 else b.toNat := by
  unfold foldOctet
  simp only [Bool.and_eq_true, decide_eq_true_eq, UInt8.le_iff_toNat_le]
  show (if 65 ≤ b.toNat ∧ b.toNat ≤ 90 then b + 32 else b).toNat = _
  split
  · rw [UInt8.toNat_add]
    show (b.toNat + 32) % 256 = b.toNat + 32
    omega
  · rfl

/-- The three ways in which an octet is written. -/
inductive OctetText (isFirst : Bool) (b : UInt8) : List Char → Prop
  | plain {c : Char} (hplain : isPlain isFirst b = true) (hc : c.toNat = b.toNat) :
      OctetText isFirst b [c]
  | quoted {c : Char} (hplain : ¬ isPlain isFirst b = true) (hvisible : 32 < b.toNat ∧ b.toNat < 127)
      (hc : c.toNat = b.toNat) : OctetText isFirst b ['\\', c]
  | octal {i j k : Char} (hplain : ¬ isPlain isFirst b = true)
      (hhidden : ¬ (32 < b.toNat ∧ b.toNat < 127)) (hi : i.toNat = 48 + b.toNat / 64 % 8)
      (hj : j.toNat = 48 + b.toNat / 8 % 8) (hk : k.toNat = 48 + b.toNat % 8) :
      OctetText isFirst b ['\\', i, j, k]

theorem octetText (isFirst : Bool) (b : UInt8) : OctetText isFirst b (octetChars isFirst b) := by
  have hlt : b.toNat < 256 := b.toNat_lt
  have hvisible : (0x20 < b && b < 0x7f) = true ↔ 32 < b.toNat ∧ b.toNat < 127 := by
    simp [UInt8.lt_iff_toNat_lt]
  unfold octetChars
  split
  · rename_i hplain
    exact .plain hplain (toNat_ofNat_of_lt hlt)
  · rename_i hplain
    split
    · rename_i h
      exact .quoted hplain (hvisible.1 h) (toNat_ofNat_of_lt hlt)
    · rename_i h
      have hdigit : ∀ n, (Char.ofNat ('0'.toNat + n % 8)).toNat = 48 + n % 8 :=
        fun n => toNat_ofNat_of_lt (by show 48 + n % 8 < 256; omega)
      exact .octal hplain (fun hv => h (hvisible.2 hv)) (hdigit _) (hdigit _) (hdigit _)

section Octets

variable {f g : Bool} {b d : UInt8} {cs ds xs ys : List Char}

theorem OctetText.exists_cons (h : OctetText f b cs) : ∃ c rest, cs = c :: rest ∧ c ≠ '.' := by
  cases h with
  | @plain c hplain hc =>
      refine ⟨c, [], rfl, ?_⟩
      rintro rfl
      have hplain := isPlain_iff.1 hplain
      have hdot : '.'.toNat = 46 := rfl
      omega
  | quoted => exact ⟨'\\', _, rfl, by decide⟩
  | octal => exact ⟨'\\', _, rfl, by decide⟩

/-- The text of an octet holds backslashes, the octet itself if it is visible, and octal digits. -/
theorem OctetText.mem_cases (h : OctetText f b cs) {c : Char} (hc : c ∈ cs) :
    c = '\\' ∨ (c.toNat = b.toNat ∧ 32 < b.toNat ∧ b.toNat < 127) ∨
      (48 ≤ c.toNat ∧ c.toNat ≤ 55) := by
  cases h with
  | plain hplain hnat =>
      obtain rfl := List.mem_singleton.1 hc
      have hplain := isPlain_iff.1 hplain
      exact .inr (.inl ⟨hnat, by omega⟩)
  | quoted _ hrange hnat =>
      rcases List.mem_cons.1 hc with rfl | hc
      · exact .inl rfl
      · obtain rfl := List.mem_singleton.1 hc
        exact .inr (.inl ⟨hnat, hrange⟩)
  | octal _ _ hi hj hk =>
      simp only [List.mem_cons, List.not_mem_nil, or_false] at hc
      rcases hc with rfl | rfl | rfl | rfl
      · exact .inl rfl
      all_goals exact .inr (.inr (by omega))

theorem OctetText.not_blank (h : OctetText f b cs) {c : Char} (hc : c ∈ cs) :
    isBlank c = false := by
  rcases h.mem_cases hc with rfl | hcode
  · decide
  · unfold isBlank
    simp only [Bool.or_eq_false_iff, Bool.and_eq_false_iff, decide_eq_false_iff_not,
      beq_eq_false_iff_ne]
    omega

/-- The texts of octets are a prefix-free code, in whatever places the octets stand. -/
theorem OctetText.append_inj (hb : OctetText f b cs) (hd : OctetText g d ds)
    (h : cs ++ xs = ds ++ ys) : b = d ∧ cs = ds ∧ xs = ys := by
  have hbackslash : ∀ {e : Char} {isFirst : Bool} {o : UInt8}, isPlain isFirst o = true →
      e.toNat = o.toNat → e ≠ '\\' := by
    rintro e isFirst o hplain he rfl
    have hplain := isPlain_iff.1 hplain
    have hback : '\\'.toNat = 92 := rfl
    omega
  -- No digit is quoted.
  have hdigit : ∀ {e i : Char} {isFirst : Bool} {o : UInt8} {n : Nat},
      ¬ isPlain isFirst o = true → e.toNat = o.toNat → i.toNat = 48 + n % 8 → e ≠ i := by
    rintro e i isFirst o n hplain he hi rfl
    exact hplain (isPlain_iff.2 (.inl (by omega)))
  have hblt := b.toNat_lt
  have hdlt := d.toNat_lt
  cases hb with
  | plain hplain hc =>
      cases hd with
      | plain _ hc' =>
          obtain ⟨rfl, rfl⟩ := List.cons.inj h
          exact ⟨UInt8.toNat_inj.1 (hc.symm.trans hc'), rfl, rfl⟩
      | quoted => exact absurd (List.cons.inj h).1 (hbackslash hplain hc)
      | octal => exact absurd (List.cons.inj h).1 (hbackslash hplain hc)
  | quoted hplain _ hc =>
      cases hd with
      | plain hplain' hc' => exact absurd (List.cons.inj h).1.symm (hbackslash hplain' hc')
      | quoted _ _ hc' =>
          obtain ⟨rfl, rfl⟩ := List.cons.inj (List.cons.inj h).2
          exact ⟨UInt8.toNat_inj.1 (hc.symm.trans hc'), rfl, rfl⟩
      | octal _ _ hi =>
          exact absurd (List.cons.inj (List.cons.inj h).2).1 (hdigit hplain hc hi)
  | octal hplain _ hi hj hk =>
      cases hd with
      | plain hplain' hc' => exact absurd (List.cons.inj h).1.symm (hbackslash hplain' hc')
      | quoted hplain' _ hc' =>
          exact absurd (List.cons.inj (List.cons.inj h).2).1.symm (hdigit hplain' hc' hi)
      | octal _ _ hi' hj' hk' =>
          simp only [List.cons_append, List.nil_append, List.cons.injEq, true_and] at h
          obtain ⟨rfl, rfl, rfl, rfl⟩ := h
          exact ⟨UInt8.toNat_inj.1 (by omega), rfl, rfl⟩

/-- A dot in the text of an octet is the last character, and the octet is the dot. -/
theorem OctetText.dot_suffix_append_iff (h : OctetText f b cs) :
    '.' :: ds <:+ cs ++ xs ↔ b = dotOctet ∧ ds = xs ∨ '.' :: ds <:+ xs := by
  have hdot : ∀ {c : Char}, c.toNat = b.toNat → (c = '.' ↔ b = dotOctet) := by
    intro c hc
    rw [← Char.toNat_inj, ← UInt8.toNat_inj, hc]
    rfl
  have hback : ∀ {ys : List Char}, '.' :: ds <:+ '\\' :: ys ↔ '.' :: ds <:+ ys := by
    intro ys
    rw [List.suffix_cons_iff]
    simp
  cases h with
  | @plain c hplain hc =>
      have hne : b ≠ dotOctet := by
        rintro rfl
        exact absurd (isPlain_iff.1 hplain) (by simp [dotOctet])
      rw [List.singleton_append, List.suffix_cons_iff]
      have hc : '.' ≠ c := fun heq => hne ((hdot hc).1 heq.symm)
      simp [hne, hc]
  | @quoted c _ _ hc =>
      rw [List.cons_append, hback, List.singleton_append, List.suffix_cons_iff, List.cons.injEq,
        ← hdot hc]
      simp [eq_comm]
  | @octal i j k _ hhidden hi hj hk =>
      have hne : b ≠ dotOctet := by
        rintro rfl
        exact hhidden (by decide)
      have hdigit : ∀ {e : Char} {n : Nat}, e.toNat = 48 + n % 8 → '.' ≠ e := by
        rintro e n he rfl
        have hval : '.'.toNat = 46 := rfl
        omega
      simp only [List.cons_append, List.nil_append, hback]
      rw [List.suffix_cons_iff, List.suffix_cons_iff, List.suffix_cons_iff]
      simp [hne, hdigit hi, hdigit hj, hdigit hk]

theorem octetChars_append_inj (h : octetChars f b ++ xs = octetChars g d ++ ys) :
    b = d ∧ octetChars f b = octetChars g d ∧ xs = ys :=
  (octetText f b).append_inj (octetText g d) h

theorem isPlain_foldOctet (f : Bool) (b : UInt8) : isPlain f (foldOctet b) = isPlain f b := by
  rw [Bool.eq_iff_iff, isPlain_iff, isPlain_iff, toNat_foldOctet]
  split
  all_goals
    cases f <;> simp <;> omega

/-- Letters change their case in the text of an octet as in the octet. -/
theorem octetChars_foldOctet (f : Bool) (b : UInt8) :
    octetChars f (foldOctet b) = (octetChars f b).map Char.toLower := by
  by_cases hletter : 65 ≤ b.toNat ∧ b.toNat ≤ 90
  · -- A capital letter is written as it is.
    have hb : isPlain f b = true := isPlain_iff.2 (.inr (.inl hletter))
    unfold octetChars
    rw [isPlain_foldOctet, if_pos hb, if_pos hb, List.map_singleton]
    congr 1
    rw [← Char.toNat_inj, toNat_toLower, toNat_ofNat_of_lt (foldOctet b).toNat_lt,
      toNat_ofNat_of_lt b.toNat_lt, toNat_foldOctet]
  · have hfold : foldOctet b = b := by
      rw [← UInt8.toNat_inj, toNat_foldOctet, if_neg hletter]
    have hlower : ∀ c ∈ octetChars f b, c.toLower = c := by
      intro c hc
      rcases (octetText f b).mem_cases hc with rfl | hcode
      · decide
      · rw [← Char.toNat_inj, toNat_toLower, if_neg (by omega)]
    rw [hfold, List.map_congr_left hlower, List.map_id']

end Octets

/-! ### Labels -/

/-- A label as text, or what is left of one after its first octets. -/
def cellChars (isFirst : Bool) : List UInt8 → List Char
  | [] => []
  | b :: bs => octetChars isFirst b ++ cellChars false bs

/-- The text of a name of given labels: a dot after each label, but no second one at the very end,
where the text of the last label ends in a dot already. -/
def nameChars : List (List UInt8) → List Char
  | [] => ['.']
  | [l] => if l.getLast? = some dotOctet then cellChars true l else cellChars true l ++ ['.']
  | l :: m :: rest => cellChars true l ++ '.' :: nameChars (m :: rest)

/-- What follows the text of a label in that of a name, with the labels above. -/
def endChars (l : List UInt8) (post : List (List UInt8)) : List Char :=
  if post ≠ [] then '.' :: nameChars post
  else if l.getLast? = some dotOctet then [] else ['.']

section Labels

variable {f g : Bool} {l m : List UInt8} {post more labels : List (List UInt8)}
  {ds xs ys : List Char}

theorem labelChars_eq (l : List UInt8) : labelChars l = cellChars true l := by
  have hrest : ∀ bs : List UInt8, bs.flatMap (octetChars false) = cellChars false bs := by
    intro bs
    induction bs with
    | nil => rfl
    | cons b bs ih => rw [List.flatMap_cons, ih, cellChars]
  cases l with
  | nil => rfl
  | cons b bs => rw [labelChars, cellChars, hrest]

theorem nameChars_cons (l : List UInt8) (post : List (List UInt8)) :
    nameChars (l :: post) = cellChars true l ++ endChars l post := by
  cases post with
  | nil =>
      unfold nameChars endChars
      rw [if_neg (not_not.2 rfl)]
      split
      · rw [List.append_nil]
      · rfl
  | cons m rest =>
      unfold nameChars endChars
      rw [if_pos (List.cons_ne_nil m rest)]

theorem nameChars_ne_nil (h : ∀ l ∈ labels, l ≠ []) : nameChars labels ≠ [] := by
  cases labels with
  | nil => exact List.cons_ne_nil _ _
  | cons l post =>
      obtain ⟨b, bs, rfl⟩ := List.exists_cons_of_ne_nil (h l List.mem_cons_self)
      obtain ⟨c, rest, hc, -⟩ := (octetText true b).exists_cons
      rw [nameChars_cons, cellChars, hc]
      exact List.cons_ne_nil _ _

/-- Something that may follow the octets of a label. -/
def Ends (xs : List Char) : Prop :=
  xs = [] ∨ ∃ rest, xs = '.' :: rest

theorem ends_endChars (l : List UInt8) (post : List (List UInt8)) : Ends (endChars l post) := by
  unfold endChars
  split
  · exact .inr ⟨_, rfl⟩
  · split
    · exact .inl rfl
    · exact .inr ⟨_, rfl⟩

theorem Ends.ne_octetChars_append (h : Ends xs) {b : UInt8} : xs ≠ octetChars f b ++ ys := by
  obtain ⟨c, rest, hc, hne⟩ := (octetText f b).exists_cons
  rw [hc, List.cons_append]
  rcases h with rfl | ⟨_, rfl⟩
  · exact (List.cons_ne_nil _ _).symm
  · exact fun heq => hne (List.cons.inj heq).1.symm

/-- The text of a label tells its octets, and where it ends. -/
theorem cellChars_append_inj (hx : Ends xs) (hy : Ends ys)
    (h : cellChars f l ++ xs = cellChars g m ++ ys) :
    l = m ∧ cellChars f l = cellChars g m ∧ xs = ys := by
  induction l generalizing m f g with
  | nil =>
      cases m with
      | nil => exact ⟨rfl, rfl, h⟩
      | cons d ds =>
          rw [cellChars, cellChars, List.append_assoc] at h
          exact absurd h hx.ne_octetChars_append
  | cons b bs ih =>
      cases m with
      | nil =>
          rw [cellChars, cellChars, List.append_assoc] at h
          exact absurd h.symm hy.ne_octetChars_append
      | cons d ds =>
          rw [cellChars, cellChars, List.append_assoc, List.append_assoc] at h
          obtain ⟨rfl, hoctet, h⟩ := octetChars_append_inj h
          obtain ⟨rfl, -, hrest⟩ := ih h
          refine ⟨rfl, ?_, hrest⟩
          rw [cellChars, cellChars, hoctet]

theorem dot_ne_cellChars_append (hl : l ≠ []) : ['.'] ≠ cellChars f l ++ xs := by
  obtain ⟨b, bs, rfl⟩ := List.exists_cons_of_ne_nil hl
  rw [cellChars, List.append_assoc]
  exact Ends.ne_octetChars_append (.inr ⟨[], rfl⟩)

/-- The end of the text tells the labels above. -/
theorem endChars_inj (hpost : ∀ k ∈ post, k ≠ []) (hmore : ∀ k ∈ more, k ≠ [])
    (h : endChars l post = endChars l more) : post = [] ∧ more = [] ∨
      nameChars post = nameChars more ∧ post ≠ [] ∧ more ≠ [] := by
  have hshort : ∀ labels : List (List UInt8), (∀ k ∈ labels, k ≠ []) →
      (if l.getLast? = some dotOctet then [] else ['.']) ≠ '.' :: nameChars labels := by
    intro labels hlabels heq
    split at heq
    · cases heq
    · exact nameChars_ne_nil hlabels (List.cons.inj heq).2.symm
  unfold endChars at h
  by_cases hp : post = []
  · by_cases hm : more = []
    · exact .inl ⟨hp, hm⟩
    · rw [if_neg (not_not.2 hp), if_pos hm] at h
      exact absurd h (hshort more hmore)
  · by_cases hm : more = []
    · rw [if_pos hp, if_neg (not_not.2 hm)] at h
      exact absurd h.symm (hshort post hpost)
    · rw [if_pos hp, if_pos hm] at h
      exact .inr ⟨(List.cons.inj h).2, hp, hm⟩

/-- The text of a name tells its labels. -/
theorem nameChars_inj (hlabels : ∀ k ∈ labels, k ≠ []) (hmore : ∀ k ∈ more, k ≠ []) :
    nameChars labels = nameChars more ↔ labels = more := by
  refine ⟨fun h => ?_, congrArg nameChars⟩
  induction labels generalizing more with
  | nil =>
      cases more with
      | nil => rfl
      | cons m more =>
          rw [nameChars_cons m] at h
          exact absurd h (dot_ne_cellChars_append (hmore m List.mem_cons_self))
  | cons l post ih =>
      cases more with
      | nil =>
          rw [nameChars_cons l] at h
          exact absurd h.symm (dot_ne_cellChars_append (hlabels l List.mem_cons_self))
      | cons m more =>
          have hpost : ∀ k ∈ post, k ≠ [] := fun k hk => hlabels k (List.mem_cons_of_mem _ hk)
          have hmore' : ∀ k ∈ more, k ≠ [] := fun k hk => hmore k (List.mem_cons_of_mem _ hk)
          rw [nameChars_cons, nameChars_cons] at h
          obtain ⟨rfl, -, hend⟩ := cellChars_append_inj (ends_endChars _ _) (ends_endChars _ _) h
          rcases endChars_inj hpost hmore' hend with ⟨rfl, rfl⟩ | ⟨hname, -, -⟩
          · rfl
          · rw [ih hpost hmore' hname]

/-! ### Dots inside labels -/

theorem cellChars_eq_nil : cellChars f l = [] ↔ l = [] := by
  cases l with
  | nil => exact iff_of_true rfl rfl
  | cons b bs =>
      obtain ⟨c, rest, hc, -⟩ := (octetText f b).exists_cons
      rw [cellChars, hc]
      simp

theorem octetChars_dotOctet (f : Bool) : octetChars f dotOctet = ['\\', '.'] := by
  cases f <;> rfl

theorem cellChars_append_dotOctet (f : Bool) (left right : List UInt8) :
    cellChars f (left ++ dotOctet :: right) =
      cellChars f left ++ '\\' :: '.' :: cellChars false right := by
  induction left generalizing f with
  | nil =>
      show octetChars f dotOctet ++ cellChars false right = _
      rw [octetChars_dotOctet]
      rfl
  | cons b left ih =>
      show octetChars f b ++ cellChars false (left ++ dotOctet :: right) =
        (octetChars f b ++ cellChars false left) ++ '\\' :: '.' :: cellChars false right
      rw [ih, List.append_assoc]

/-- A dot in the text of a label is that of a dot octet. -/
theorem dot_suffix_cellChars_append :
    '.' :: ds <:+ cellChars f l ++ xs ↔
      (∃ left right, l = left ++ dotOctet :: right ∧ ds = cellChars false right ++ xs) ∨
        '.' :: ds <:+ xs := by
  induction l generalizing f with
  | nil => simp [cellChars]
  | cons b bs ih =>
      rw [cellChars, List.append_assoc, (octetText f b).dot_suffix_append_iff, ih, ← or_assoc]
      refine or_congr_left ⟨?_, ?_⟩
      · rintro (⟨rfl, rfl⟩ | ⟨left, right, rfl, rfl⟩)
        · exact ⟨[], bs, rfl, rfl⟩
        · exact ⟨b :: left, right, rfl, rfl⟩
      · rintro ⟨left, right, hl, rfl⟩
        cases left with
        | nil =>
            obtain ⟨rfl, rfl⟩ := List.cons.inj hl
            exact .inl ⟨rfl, rfl⟩
        | cons c left =>
            obtain ⟨rfl, rfl⟩ := List.cons.inj hl
            exact .inr ⟨left, right, rfl, rfl⟩

/-- The text of a label ends in a dot when its last octet is one. -/
theorem getLast?_cellChars : (cellChars f l).getLast? = some '.' ↔ l.getLast? = some dotOctet := by
  have h : ['.'] <:+ cellChars f l ++ [] ↔ _ := dot_suffix_cellChars_append
  rw [List.append_nil] at h
  rw [List.getLast?_eq_some_iff, List.getLast?_eq_some_iff]
  refine ⟨fun ⟨front, hfront⟩ => ?_, fun ⟨left, hleft⟩ => ?_⟩
  · rcases h.1 ⟨front, hfront.symm⟩ with ⟨left, right, hl, hright⟩ | hdot
    · rw [List.append_nil, eq_comm, cellChars_eq_nil] at hright
      exact ⟨left, hright ▸ hl⟩
    · exact absurd hdot.length_le (by simp)
  · obtain ⟨front, hfront⟩ := h.2 (.inl ⟨left, [], hleft, rfl⟩)
    exact ⟨front, hfront.symm⟩

/-! ### The canonical text -/

theorem not_blank_of_mem_cellChars {c : Char} (hc : c ∈ cellChars f l) : isBlank c = false := by
  induction l generalizing f with
  | nil => cases hc
  | cons b bs ih =>
      rcases List.mem_append.1 hc with hc | hc
      · exact (octetText f b).not_blank hc
      · exact ih hc

theorem joinLabels_true (texts : List (List Char)) :
    joinLabels true texts = joinLabels false texts ++ ['.'] := by
  induction texts with
  | nil => rfl
  | cons text rest ih =>
      cases rest with
      | nil => rfl
      | cons next rest =>
          show text ++ '.' :: joinLabels true (next :: rest) =
            (text ++ '.' :: joinLabels false (next :: rest)) ++ ['.']
          rw [ih, List.append_assoc, List.cons_append]

theorem not_blank_of_mem_joinLabels (isComplete : Bool) :
    ∀ c ∈ joinLabels isComplete (labels.map labelChars), isBlank c = false := by
  have hlabel : ∀ l : List UInt8, ∀ e ∈ labelChars l, isBlank e = false := by
    intro l e he
    rw [labelChars_eq] at he
    exact not_blank_of_mem_cellChars he
  have hopen : ∀ e ∈ joinLabels false (labels.map labelChars), isBlank e = false := by
    induction labels with
    | nil => simp [joinLabels]
    | cons l post ih =>
        intro e he
        cases post with
        | nil => exact hlabel l e he
        | cons m rest =>
            rcases List.mem_append.1 he with he | he
            · exact hlabel l e he
            · rcases List.mem_cons.1 he with rfl | he
              · decide
              · exact ih e he
  cases isComplete with
  | false => exact hopen
  | true =>
      intro c hc
      rw [joinLabels_true] at hc
      rcases List.mem_append.1 hc with hc | hc
      · exact hopen c hc
      · obtain rfl := List.mem_singleton.1 hc
        decide

/-- The joined text of the labels is that of the name less its final dot, which it keeps only where
the last octet is a dot. -/
theorem exists_body (h : ∀ l ∈ labels, l ≠ []) : ∃ body,
    nameChars labels = body ++ ['.'] ∧ body.getLast? ≠ some '.' ∧
      (joinLabels false (labels.map labelChars) = body ∨
        joinLabels false (labels.map labelChars) = body ++ ['.']) := by
  induction labels with
  | nil => exact ⟨[], rfl, by simp, .inl rfl⟩
  | cons l post ih =>
      cases post with
      | nil =>
          have hjoin : joinLabels false ([l].map labelChars) = cellChars true l := labelChars_eq l
          rw [hjoin, nameChars]
          split
          · rename_i hlast
            obtain ⟨left, rfl⟩ := List.getLast?_eq_some_iff.1 hlast
            refine ⟨cellChars true left ++ ['\\'], ?_, by simp, .inr ?_⟩
            all_goals rw [cellChars_append_dotOctet, List.append_assoc]; rfl
          · rename_i hlast
            exact ⟨_, rfl, fun hdot => hlast (getLast?_cellChars.1 hdot), .inl rfl⟩
      | cons m rest =>
          obtain ⟨body, hname, hlast, hjoin⟩ := ih fun k hk => h k (List.mem_cons_of_mem _ hk)
          have hbody : body ≠ [] := by
            rintro rfl
            have hm : m ≠ [] := h m (List.mem_cons_of_mem _ List.mem_cons_self)
            rw [nameChars_cons] at hname
            exact dot_ne_cellChars_append hm hname.symm
          refine ⟨cellChars true l ++ '.' :: body, ?_, ?_, ?_⟩
          · rw [nameChars, hname, List.append_assoc, List.cons_append]
          · rwa [List.getLast?_append_cons, List.getLast?_cons_of_ne_nil hbody]
          · rw [List.map_cons, List.map_cons, joinLabels, labelChars_eq l]
            · rcases hjoin with hjoin | hjoin
              · exact .inl (by rw [← hjoin]; rfl)
              · exact .inr (by rw [← List.map_cons, hjoin, List.append_assoc, List.cons_append])
            · simp

theorem map_toLower_cellChars :
    (cellChars f l).map Char.toLower = cellChars f (l.map foldOctet) := by
  induction l generalizing f with
  | nil => rfl
  | cons b bs ih =>
      rw [cellChars, List.map_append, ih, List.map_cons, cellChars, octetChars_foldOctet]

theorem foldOctet_eq_dotOctet {b : UInt8} : foldOctet b = dotOctet ↔ b = dotOctet := by
  rw [← UInt8.toNat_inj, ← UInt8.toNat_inj, toNat_foldOctet]
  show _ = 46 ↔ _ = 46
  split <;> omega

theorem getLast?_map_foldOctet :
    (l.map foldOctet).getLast? = some dotOctet ↔ l.getLast? = some dotOctet := by
  simp [foldOctet_eq_dotOctet]

theorem map_toLower_nameChars (labels : List (List UInt8)) :
    (nameChars labels).map Char.toLower = nameChars (foldLabels labels) := by
  induction labels with
  | nil => rfl
  | cons l post ih =>
      cases post with
      | nil =>
          show _ = nameChars [l.map foldOctet]
          rw [nameChars, nameChars]
          simp only [getLast?_map_foldOctet]
          split
          · exact map_toLower_cellChars
          · rw [List.map_append, map_toLower_cellChars]
            rfl
      | cons m rest =>
          show _ = nameChars (l.map foldOctet :: m.map foldOctet :: foldLabels rest)
          rw [nameChars, nameChars, List.map_append, map_toLower_cellChars, List.map_cons, ih]
          rfl

/-- The canonical text of a name is that of its labels in lower case. -/
theorem canonicalChars_charsWith (n : DomainName) :
    canonicalChars (n.charsWith labelChars) = nameChars (foldLabels n.labels) := by
  obtain ⟨body, hname, hlast, hjoin⟩ := exists_body fun l hl => (n.areLabels.1 l hl).1
  have htrim : trim (n.charsWith labelChars) = n.charsWith labelChars :=
    trim_eq_self (not_blank_of_mem_joinLabels _)
  have hopen : dropTrailing (· == '.') (joinLabels false (n.labels.map labelChars)) = body := by
    rcases hjoin with hjoin | hjoin
    · rw [hjoin, dropTrailing_dot_eq_self hlast]
    · rw [hjoin, dropTrailing_dot_append, dropTrailing_dot_eq_self hlast]
  have hdots : dropTrailing (· == '.') (n.charsWith labelChars) = body := by
    unfold charsWith
    cases n.isComplete with
    | false => exact hopen
    | true => rw [joinLabels_true, dropTrailing_dot_append, hopen]
  unfold canonicalChars
  rw [htrim, hdots, ← map_toLower_nameChars, hname, List.map_append]
  rfl

end Labels

end CachingResolver.DomainName
