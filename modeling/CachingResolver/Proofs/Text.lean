import CachingResolver.Proofs.IpAddress
import CachingResolver.Message.Record
import Mathlib.Data.List.DropRight
import Mathlib.Data.List.Induction

/-!
# Numbers and words

A number is read back from its decimal form, with or without a sign, by each of the readers of
record values.  Words that are joined with a blank between them are told apart again, in
`words_join`, and no character but the blanks is lost on the way, in `exists_mem_words`.  Blanks at
the ends of a text do not matter to its words (`words_trim`).
-/

namespace CachingResolver.Text

/-! ### Numbers -/

/-- Digits are read one after the other. -/
theorem naturalFrom_of_isSome {cs : List Char} (h : ∀ c ∈ cs, (digit? c).isSome = true) (acc : Nat) :
    naturalFrom acc cs = some ((cs.filterMap digit?).foldl (fun n d => 10 * n + d) acc) := by
  induction cs generalizing acc with
  | nil => rfl
  | cons c cs ih =>
      obtain ⟨d, hd⟩ := Option.isSome_iff_exists.1 (h c List.mem_cons_self)
      have hrest := ih fun e he => h e (List.mem_cons_of_mem _ he)
      rw [naturalFrom, hd, List.filterMap_cons_some hd, List.foldl_cons]
      exact hrest _

theorem toList_decimal (n : Nat) : (decimal n).toList = Nat.toDigits 10 n :=
  String.toList_ofList

theorem decimal_ne_nil (n : Nat) : (decimal n).toList ≠ [] := by
  rw [toList_decimal]
  exact Nat.toDigits_ne_nil

theorem isSome_of_mem_decimal {n : Nat} {c : Char} (h : c ∈ (decimal n).toList) :
    (digit? c).isSome = true := by
  rw [toList_decimal] at h
  exact isSome_of_mem_toDigits (by decide) readsDigits_digit? n c h

theorem not_blank_of_isSome_digit? {c : Char} (h : (digit? c).isSome = true) :
    isBlank c = false := by
  have hrange : 48 ≤ c.toNat ∧ c.toNat ≤ 57 := by
    unfold digit? at h
    split at h
    · rename_i hc
      exact hc
    · cases h
  unfold isBlank
  simp only [Bool.or_eq_false_iff, Bool.and_eq_false_iff, decide_eq_false_iff_not,
    beq_eq_false_iff_ne]
  omega

theorem natural?_decimal (n : Nat) : natural? (decimal n).toList = some n := by
  have hread := naturalFrom_of_isSome (fun _ => isSome_of_mem_decimal (n := n)) 0
  have hvalue := ofDigits_toDigits (by decide) readsDigits_digit? n
  unfold natural?
  split
  · rename_i hnil
    exact absurd hnil (decimal_ne_nil n)
  · rw [hread, toList_decimal]
    exact congrArg some hvalue

/-- A text of digits starts with no sign. -/
theorem exists_digit_cons_decimal (n : Nat) :
    ∃ c cs, (decimal n).toList = c :: cs ∧ c ≠ '+' ∧ c ≠ '-' := by
  obtain ⟨c, cs, hcs⟩ := List.exists_cons_of_ne_nil (decimal_ne_nil n)
  have hdigit := isSome_of_mem_decimal (hcs ▸ List.mem_cons_self : c ∈ (decimal n).toList)
  refine ⟨c, cs, hcs, ?_, ?_⟩
  all_goals
    rintro rfl
    cases hdigit

theorem unsigned?_decimal (n : Nat) : unsigned? (decimal n).toList = some n := by
  obtain ⟨c, cs, hcs, hplus, -⟩ := exists_digit_cons_decimal n
  have hread := natural?_decimal n
  rw [hcs] at hread ⊢
  unfold unsigned?
  split
  · rename_i heq
    exact absurd (List.cons.inj heq).1 hplus
  · exact hread

theorem integer?_decimal (n : Nat) : integer? (decimal n).toList = some (n : Int) := by
  obtain ⟨c, cs, hcs, -, hminus⟩ := exists_digit_cons_decimal n
  have hread := unsigned?_decimal n
  rw [hcs] at hread ⊢
  unfold integer?
  split
  · rename_i heq
    exact absurd (List.cons.inj heq).1 hminus
  · rw [hread]
    rfl

theorem integer?_signedDecimal (n : Int) : integer? (signedDecimal n).toList = some n := by
  unfold signedDecimal
  split
  · rename_i hneg
    have hminus : integer? ("-" ++ decimal n.natAbs).toList =
        (natural? (decimal n.natAbs).toList).map fun n => -(n : Int) := by
      rw [String.toList_append]
      rfl
    rw [hminus, natural?_decimal]
    show some (-(n.natAbs : Int)) = some n
    congr 1
    omega
  · rw [integer?_decimal]
    congr 1
    omega

theorem word16?_decimal (n : UInt16) : word16? (decimal n.toNat).toList = some n := by
  unfold word16?
  rw [unsigned?_decimal, Option.bind_some, if_pos n.toNat_lt, UInt16.ofNat_toNat]

theorem signed64?_decimal (n : UInt32) :
    signed64? (decimal n.toNat).toList = some (n.toNat : Int) := by
  have hlt := n.toNat_lt
  unfold signed64?
  rw [integer?_decimal, Option.bind_some, if_pos]
  constructor
  · show (-9223372036854775808 : Int) ≤ _
    omega
  · show _ ≤ (9223372036854775807 : Int)
    omega

theorem signed64?_signedText (n : Int32) : signed64? (signedText n).toList = some n.toInt := by
  have hle := n.le_toInt
  have hlt := n.toInt_lt
  unfold signed64? signedText
  rw [integer?_signedDecimal, Option.bind_some, if_pos]
  constructor
  · show (-9223372036854775808 : Int) ≤ _
    omega
  · show _ ≤ (9223372036854775807 : Int)
    omega

/-! Every number that is read is an integer. -/

theorem integer?_of_unsigned? {cs : List Char} {n : Nat} (h : unsigned? cs = some n) :
    integer? cs = some (n : Int) := by
  unfold integer?
  split
  · have hminus : ∀ rest, unsigned? ('-' :: rest) = none := fun _ => rfl
    rw [hminus] at h
    cases h
  · rw [h]
    rfl

theorem integer?_of_word16? {cs : List Char} {n : UInt16} (h : word16? cs = some n) :
    integer? cs = some (n.toNat : Int) := by
  obtain ⟨m, hm, hlt⟩ := Option.bind_eq_some_iff.1 h
  split at hlt
  · rename_i hm16
    rw [integer?_of_unsigned? hm, ← Option.some.inj hlt, UInt16.toNat_ofNat_of_lt' hm16]
  · cases hlt

theorem integer?_of_signed64? {cs : List Char} {n : Int} (h : signed64? cs = some n) :
    integer? cs = some n := by
  obtain ⟨m, hm, hrange⟩ := Option.bind_eq_some_iff.1 h
  split at hrange
  · rw [hm, Option.some.inj hrange]
  · cases hrange

/-! Numbers that are read are written in ASCII. -/

section Ascii

variable {cs : List Char}

theorem toNat_lt_of_isSome_digit? {c : Char} (h : (digit? c).isSome = true) : c.toNat < 128 := by
  unfold digit? at h
  split at h
  · rename_i hc
    have hrange : 48 ≤ c.toNat ∧ c.toNat ≤ 57 := hc
    omega
  · cases h

theorem forall_toNat_lt_of_naturalFrom {acc n : Nat} (h : naturalFrom acc cs = some n) :
    ∀ c ∈ cs, c.toNat < 128 := by
  induction cs generalizing acc with
  | nil => exact fun c hc => absurd hc List.not_mem_nil
  | cons c cs ih =>
      unfold naturalFrom at h
      split at h
      · rename_i d hd
        exact List.forall_mem_cons.2 ⟨toNat_lt_of_isSome_digit? (Option.isSome_of_eq_some hd), ih h⟩
      · cases h

theorem forall_toNat_lt_of_natural? {n : Nat} (h : natural? cs = some n) :
    ∀ c ∈ cs, c.toNat < 128 := by
  unfold natural? at h
  split at h
  · cases h
  · exact forall_toNat_lt_of_naturalFrom h

theorem forall_toNat_lt_of_unsigned? {n : Nat} (h : unsigned? cs = some n) :
    ∀ c ∈ cs, c.toNat < 128 := by
  unfold unsigned? at h
  split at h
  · exact List.forall_mem_cons.2 ⟨by decide, forall_toNat_lt_of_natural? h⟩
  · exact forall_toNat_lt_of_natural? h

theorem forall_toNat_lt_of_integer? {n : Int} (h : integer? cs = some n) :
    ∀ c ∈ cs, c.toNat < 128 := by
  unfold integer? at h
  split at h
  · obtain ⟨m, hm, -⟩ := Option.map_eq_some_iff.1 h
    obtain ⟨k, hk, -⟩ := Option.bind_eq_some_iff.1 hm
    exact List.forall_mem_cons.2 ⟨by decide, forall_toNat_lt_of_natural? hk⟩
  · obtain ⟨m, hm, -⟩ := Option.map_eq_some_iff.1 h
    exact forall_toNat_lt_of_unsigned? hm

theorem forall_toNat_lt_of_word16? {n : UInt16} (h : word16? cs = some n) :
    ∀ c ∈ cs, c.toNat < 128 := by
  obtain ⟨m, hm, -⟩ := Option.bind_eq_some_iff.1 h
  exact forall_toNat_lt_of_unsigned? hm

theorem forall_toNat_lt_of_signed64? {n : Int} (h : signed64? cs = some n) :
    ∀ c ∈ cs, c.toNat < 128 := by
  obtain ⟨m, hm, -⟩ := Option.bind_eq_some_iff.1 h
  exact forall_toNat_lt_of_integer? hm

end Ascii

/-! ### Words -/

theorem words_cons_of_isBlank {b : Char} (hb : isBlank b = true) (cs : List Char) :
    words (b :: cs) = words cs := by
  rw [words, if_pos hb]

theorem words_append_of_isBlank {b : Char} (hb : isBlank b = true) (cs : List Char) :
    words (cs ++ [b]) = words cs := by
  induction cs with
  | nil => exact words_cons_of_isBlank hb []
  | cons c cs ih =>
      rw [List.cons_append, words, words, ih]
      cases cs with
      | nil => simp [words, hb]
      | cons d cs => rfl

/-- Trimming does not change the words. -/
theorem words_trim (cs : List Char) : words (trim cs) = words cs := by
  have hfront (cs : List Char) : words (cs.dropWhile isBlank) = words cs := by
    induction cs with
    | nil => rfl
    | cons c cs ih =>
        cases hc : isBlank c with
        | false => rw [List.dropWhile_cons_of_neg (by simp [hc])]
        | true => rw [List.dropWhile_cons_of_pos hc, ih, words_cons_of_isBlank hc]
  have hend (cs : List Char) : words (dropTrailing isBlank cs) = words cs := by
    induction cs using List.reverseRecOn with
    | nil => rfl
    | append_singleton cs c ih =>
        cases hc : isBlank c with
        | false => exact congrArg words (List.rdropWhile_concat_neg isBlank cs c (by simp [hc]))
        | true =>
            rw [words_append_of_isBlank hc, ← ih]
            exact congrArg words (List.rdropWhile_concat_pos isBlank cs c hc)
  unfold trim
  rw [hend, hfront]

/-- A text that does not start with a blank starts with its first word. -/
theorem exists_words_cons {c : Char} (hc : isBlank c = false) (cs : List Char) :
    ∃ w ws, words (c :: cs) = (c :: w) :: ws := by
  rw [words, if_neg (by simp [hc])]
  split
  · exact ⟨_, _, rfl⟩
  · exact ⟨_, _, rfl⟩

theorem isBlank_of_trim_eq_cons {c : Char} {cs rest : List Char} (h : trim cs = c :: rest) :
    isBlank c = false := by
  obtain ⟨more, hmore⟩ : c :: rest <+: cs.dropWhile isBlank :=
    h ▸ List.rdropWhile_prefix isBlank _
  have hhead := List.head?_dropWhile_not isBlank cs
  rw [← hmore] at hhead
  simpa using hhead

/-- A run of characters that are not blank is a word when nothing or a blank follows. -/
theorem words_append {w rest : List Char} (hw : w ≠ []) (hblank : ∀ c ∈ w, isBlank c = false)
    (hrest : ∀ c ∈ rest.head?, isBlank c = true) : words (w ++ rest) = w :: words rest := by
  induction w with
  | nil => exact absurd rfl hw
  | cons c w ih =>
      have hc : ¬ isBlank c = true := by simp [hblank c List.mem_cons_self]
      rw [List.cons_append, words, if_neg hc]
      cases w with
      | nil =>
          cases rest with
          | nil => rfl
          | cons b rest => simp [hrest b rfl]
      | cons d w =>
          have hd : isBlank d = false := hblank d (List.mem_cons_of_mem _ List.mem_cons_self)
          have htail := ih (List.cons_ne_nil d w) fun e he => hblank e (List.mem_cons_of_mem _ he)
          rw [htail]
          simp [hd]

/-- A text that holds no blank and is not empty. -/
def IsWord (s : String) : Prop :=
  s.toList ≠ [] ∧ ∀ c ∈ s.toList, isBlank c = false

theorem isWord_decimal (n : Nat) : IsWord (decimal n) :=
  ⟨decimal_ne_nil n, fun _ hc => not_blank_of_isSome_digit? (isSome_of_mem_decimal hc)⟩

theorem isWord_signedText (n : Int32) : IsWord (signedText n) := by
  unfold signedText signedDecimal
  split
  · obtain ⟨-, hblank⟩ := isWord_decimal n.toInt.natAbs
    unfold IsWord
    have hminus : "-".toList = ['-'] := rfl
    rw [String.toList_append, hminus]
    exact ⟨List.cons_ne_nil _ _, List.forall_mem_cons.2 ⟨by decide, hblank⟩⟩
  · exact isWord_decimal _

theorem toList_join_cons_cons (s t : String) (ss : List String) :
    (join " " (s :: t :: ss)).toList = s.toList ++ ' ' :: (join " " (t :: ss)).toList := by
  rw [join, String.toList_append, String.toList_append, List.append_assoc]
  · rfl
  · exact nofun

/-- The characters of a word are among those of words joined with it. -/
theorem toList_subset_join {s : String} {ss : List String} (h : s ∈ ss) :
    s.toList ⊆ (join " " ss).toList := by
  induction ss with
  | nil => cases h
  | cons t ss ih =>
      cases ss with
      | nil =>
          obtain rfl := List.mem_singleton.1 h
          exact List.Subset.refl _
      | cons u rest =>
          rw [toList_join_cons_cons]
          rcases List.mem_cons.1 h with rfl | h
          · exact List.subset_append_left _ _
          · exact fun c hc => List.mem_append_right _ (List.mem_cons_of_mem _ (ih h hc))

/-- Words with blanks between them are told apart. -/
theorem words_join {ss : List String} (h : ∀ s ∈ ss, IsWord s) :
    words (join " " ss).toList = ss.map String.toList := by
  induction ss with
  | nil => rfl
  | cons s ss ih =>
      have hs := h s List.mem_cons_self
      cases ss with
      | nil =>
          have hend : words (s.toList ++ []) = s.toList :: words [] :=
            words_append hs.1 hs.2 (by simp)
          rwa [List.append_nil] at hend
      | cons t ss =>
          have htail := ih fun u hu => h u (List.mem_cons_of_mem _ hu)
          rw [toList_join_cons_cons, words_append hs.1 hs.2 (by simp; rfl),
            words_cons_of_isBlank (by decide), htail]
          rfl

/-- Every character that is not blank belongs to a word. -/
theorem exists_mem_words {cs : List Char} {c : Char} (hc : c ∈ cs) (hblank : isBlank c = false) :
    ∃ w ∈ words cs, c ∈ w := by
  induction cs with
  | nil => cases hc
  | cons d cs ih =>
      rw [words]
      split
      · rename_i hd
        rcases List.mem_cons.1 hc with rfl | hc
        · rw [hblank] at hd
          cases hd
        · exact ih hc
      · split
        · rename_i w ws _ hwords
          rcases List.mem_cons.1 hc with rfl | hc
          · exact ⟨_, List.mem_cons_self, List.mem_cons_self⟩
          · obtain ⟨v, hv, hmem⟩ := ih hc
            rw [hwords] at hv
            rcases List.mem_cons.1 hv with rfl | hv
            · exact ⟨_, List.mem_cons_self, List.mem_cons_of_mem _ hmem⟩
            · exact ⟨v, List.mem_cons_of_mem _ hv, hmem⟩
        · rcases List.mem_cons.1 hc with rfl | hc
          · exact ⟨_, List.mem_cons_self, List.mem_cons_self⟩
          · obtain ⟨v, hv, hmem⟩ := ih hc
            exact ⟨v, List.mem_cons_of_mem _ hv, hmem⟩

/-- A text is split at the first separator. -/
theorem splitOnce_append {sep : Char} {cs : List Char} (hcs : sep ∉ cs) (rest : List Char) :
    splitOnce sep (cs ++ sep :: rest) = some (cs, rest) := by
  induction cs with
  | nil => simp [splitOnce]
  | cons c cs ih =>
      have hc : ¬ (c == sep) = true := fun h => hcs (by simp_all)
      rw [List.cons_append, splitOnce, if_neg hc, ih fun h => hcs (List.mem_cons_of_mem _ h)]
      rfl

end CachingResolver.Text
