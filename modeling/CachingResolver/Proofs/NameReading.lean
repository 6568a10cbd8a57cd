import CachingResolver.Proofs.DomainName
import CachingResolver.Proofs.ZoneCuts

/-!
# Reading names back

What becomes of the text of a name when it is read as what a user writes.  All escapes are resolved,
but of the characters behind them only the dot may stand in a label.  So a name is read back from
its text when each of its octets is written as it is or is a dot, and its text is refused otherwise:
`ofChars?_charsWith`.  There are three steps, as in the reader: the text of labels resolves to
tokens, the tokens fall into labels at their dots, and each label is taken when its octets are
writable.

The other way round, every name that is read is writable (`isWritable_of_ofChars?`), and when it is
read from a text without escapes, that is its text (`charsWith_of_not_mem`).
-/

namespace CachingResolver.DomainName

open CachingResolver.Text CachingResolver.Name

/-- Octets, from the front of a label or from within, that a user may write: those that are written
as they are, and the dot. -/
def AreWritable (isFirst : Bool) : List UInt8 → Prop
  | [] => True
  | b :: bs => (isPlain isFirst b = true ∨ b = dotOctet) ∧ AreWritable false bs

instance decidableAreWritable :
    (isFirst : Bool) → (bs : List UInt8) → Decidable (AreWritable isFirst bs)
  | _, [] => inferInstanceAs (Decidable True)
  | _, _ :: bs => @instDecidableAnd _ _ _ (decidableAreWritable false bs)

/-- A name whose text a user may write. -/
def IsWritable (n : DomainName) : Prop :=
  ∀ l ∈ n.labels, AreWritable true l

instance (n : DomainName) : Decidable n.IsWritable :=
  inferInstanceAs (Decidable (∀ l ∈ n.labels, AreWritable true l))

/-- The characters with the numbers of some octets. -/
def octetsAsChars (l : List UInt8) : List Char :=
  l.map fun b => Char.ofNat b.toNat

def IsAscii (l : List UInt8) : Prop :=
  ∀ b ∈ l, b.toNat < 128

instance (l : List UInt8) : Decidable (IsAscii l) :=
  inferInstanceAs (Decidable (∀ b ∈ l, b.toNat < 128))

/-! ### Octets -/

section Octets

variable {f : Bool} {b : UInt8} {cs xs : List Char}

theorem toNat_lt_of_isPlain (h : isPlain f b = true) : b.toNat < 128 := by
  have h := isPlain_iff.1 h
  omega

theorem octalDigit?_of_toNat {c : Char} {n : Nat} (h : c.toNat = 48 + n % 8) :
    octalDigit? c = some (n % 8) := by
  have hrange : '0' ≤ c ∧ c ≤ '7' := by
    constructor
    · show 48 ≤ c.toNat
      omega
    · show c.toNat ≤ 55
      omega
  rw [octalDigit?, if_pos hrange]
  show some (c.toNat - 48) = _
  rw [h, Nat.add_sub_cancel_left]

theorem isDigit_iff {c : Char} : c.isDigit = true ↔ 48 ≤ c.toNat ∧ c.toNat ≤ 57 := by
  unfold Char.isDigit
  simp only [Bool.and_eq_true, decide_eq_true_eq, ge_iff_le, UInt32.le_iff_toNat_le]
  rfl

theorem octalDigit?_eq_none {c : Char} (h : ¬ c.isDigit = true) : octalDigit? c = none := by
  refine if_neg fun hc => h (isDigit_iff.2 ?_)
  have hrange : 48 ≤ c.toNat ∧ c.toNat ≤ 55 := hc
  omega

/-- The text of an octet is resolved to the octet, unless that lies beyond ASCII. -/
theorem OctetText.tokens?_append (h : OctetText f b cs) :
    tokens? (cs ++ xs) =
      if b.toNat < 128 then (tokens? xs).map (.char (Char.ofNat b.toNat) :: ·) else none := by
  have hofNat : ∀ {c : Char}, c.toNat = b.toNat → Char.ofNat b.toNat = c := by
    intro c hc
    rw [← hc, Char.ofNat_toNat]
  cases h with
  | @plain c hplain hc =>
      have hlt := toNat_lt_of_isPlain hplain
      have hplain := isPlain_iff.1 hplain
      have hdot : c ≠ '.' := by
        rintro rfl
        have hval : '.'.toNat = 46 := rfl
        omega
      have hback : c ≠ '\\' := by
        rintro rfl
        have hval : '\\'.toNat = 92 := rfl
        omega
      rw [if_pos hlt, hofNat hc, List.singleton_append, tokens?, if_neg (by omega)]
      · exact hdot
      · exact hback
  | @quoted c hplain hvisible hc =>
      have hdigit : ¬ c.isDigit = true := by
        intro hdigit
        have hdigit := isDigit_iff.1 hdigit
        exact hplain (isPlain_iff.2 (.inl (by omega)))
      have hoctal : octalDigit? c = none := octalDigit?_eq_none hdigit
      rw [if_pos (by omega), hofNat hc, List.cons_append, List.singleton_append, tokens?,
        if_neg (by omega), if_neg hdigit]
      exact hoctal
  | @octal i j k hplain hhidden hi hj hk =>
      have hdigit : i.isDigit = true := isDigit_iff.2 (by omega)
      have hvalue : 64 * (b.toNat / 64 % 8) + 8 * (b.toNat / 8 % 8) + b.toNat % 8 = b.toNat := by
        have hlt := b.toNat_lt
        omega
      have htokens := tokens?.eq_7 i _ j k xs (octalDigit?_of_toNat hi)
      rw [if_neg (by omega), if_pos hdigit, octalDigit?_of_toNat hj, octalDigit?_of_toNat hk]
        at htokens
      simp only [hvalue] at htokens
      exact htokens

end Octets

/-! ### Labels -/

section Labels

variable {f c : Bool} {l : List UInt8} {labels : List (List UInt8)} {xs : List Char}
  {ts : List Token}

def labelTokens (l : List UInt8) : List Token :=
  (octetsAsChars l).map .char

theorem tokens?_cellChars_append :
    tokens? (cellChars f l ++ xs) =
      if IsAscii l then (tokens? xs).map (labelTokens l ++ ·) else none := by
  induction l generalizing f with
  | nil =>
      rw [if_pos (by simp [IsAscii])]
      simp [cellChars, labelTokens, octetsAsChars]
  | cons b bs ih =>
      have hiff : IsAscii (b :: bs) ↔ b.toNat < 128 ∧ IsAscii bs := List.forall_mem_cons
      rw [cellChars, List.append_assoc, (octetText f b).tokens?_append, ih]
      by_cases hb : b.toNat < 128
      · by_cases hbs : IsAscii bs
        · rw [if_pos hb, if_pos hbs, if_pos (hiff.2 ⟨hb, hbs⟩), Option.map_map]
          rfl
        · rw [if_pos hb, if_neg hbs, if_neg fun h => hbs (hiff.1 h).2, Option.map_none]
      · rw [if_neg hb, if_neg fun h => hb (hiff.1 h).1]

theorem splitTokens_labelTokens_append :
    splitTokens (labelTokens l ++ ts) =
      match splitTokens ts with
      | ([], rest) => ([], octetsAsChars l ++ rest)
      | (label :: more, rest) => ((octetsAsChars l ++ label) :: more, rest) := by
  induction l with
  | nil =>
      show splitTokens ts = _
      split <;> simp_all [octetsAsChars]
  | cons b bs ih =>
      show splitTokens (.char (Char.ofNat b.toNat) :: (labelTokens bs ++ ts)) = _
      rw [splitTokens, ih]
      generalize splitTokens ts = parts
      obtain ⟨labels, rest⟩ := parts
      cases labels <;> rfl

theorem isAlphanum_iff {c : Char} : c.isAlphanum = true ↔
    (48 ≤ c.toNat ∧ c.toNat ≤ 57) ∨ (65 ≤ c.toNat ∧ c.toNat ≤ 90) ∨
      (97 ≤ c.toNat ∧ c.toNat ≤ 122) := by
  have hupper : c.isUpper = true ↔ 65 ≤ c.toNat ∧ c.toNat ≤ 90 := by
    unfold Char.isUpper
    simp only [decide_eq_true_eq, ge_iff_le, UInt32.le_iff_toNat_le]
    rfl
  have hlower : c.isLower = true ↔ 97 ≤ c.toNat ∧ c.toNat ≤ 122 := by
    unfold Char.isLower
    simp only [Bool.and_eq_true, decide_eq_true_eq, ge_iff_le, UInt32.le_iff_toNat_le]
    rfl
  have halphanum : c.isAlphanum = (c.isUpper || c.isLower || c.isDigit) := rfl
  simp only [halphanum, Bool.or_eq_true, hupper, hlower, isDigit_iff]
  omega

/-- The characters that may stand in a label are those of the octets that are written as they are,
and the dot. -/
theorem isLabelChar_iff {b : UInt8} :
    isLabelChar f (Char.ofNat b.toNat) = true ↔ isPlain f b = true ∨ b = dotOctet := by
  have hcode := toNat_ofNat_of_lt b.toNat_lt
  have hchar : ∀ c : Char, Char.ofNat b.toNat = c ↔ b.toNat = c.toNat := by
    intro c
    rw [← Char.toNat_inj, hcode]
  have hdot : b = dotOctet ↔ b.toNat = 46 := UInt8.toNat_inj.symm
  have hmarks : '_'.toNat = 95 ∧ '.'.toNat = 46 ∧ '-'.toNat = 45 ∧ '*'.toNat = 42 := by decide
  unfold isLabelChar
  simp only [Bool.or_eq_true, Bool.and_eq_true, beq_iff_eq, hchar, isAlphanum_iff, hcode,
    isPlain_iff, hdot, hmarks, Bool.not_eq_true']
  cases f <;> simp <;> omega

theorem all_isLabelChar_iff :
    (octetsAsChars l).all (isLabelChar false) = true ↔ AreWritable false l := by
  induction l with
  | nil => exact iff_of_true rfl trivial
  | cons b bs ih =>
      show (isLabelChar false (Char.ofNat b.toNat) && (octetsAsChars bs).all (isLabelChar false)) =
        true ↔ _
      rw [Bool.and_eq_true, isLabelChar_iff, ih]
      rfl

/-- A label is read from the characters of its octets when these are writable. -/
theorem label?_octetsAsChars (hl : l ≠ []) :
    label? (octetsAsChars l) = if AreWritable true l then some l else none := by
  obtain ⟨b, bs, rfl⟩ := List.exists_cons_of_ne_nil hl
  have hiff : isLabelChar true (Char.ofNat b.toNat) = true ∧
      (octetsAsChars bs).all (isLabelChar false) = true ↔ AreWritable true (b :: bs) := by
    rw [isLabelChar_iff, all_isLabelChar_iff]
    rfl
  have hback : ∀ cs : List UInt8, (octetsAsChars cs).map (fun c => UInt8.ofNat c.toNat) = cs := by
    intro cs
    unfold octetsAsChars
    rw [List.map_map]
    refine (List.map_congr_left fun d _ => ?_).trans (List.map_id cs)
    show UInt8.ofNat (Char.ofNat d.toNat).toNat = d
    rw [toNat_ofNat_of_lt d.toNat_lt, UInt8.ofNat_toNat]
  show (if isLabelChar true (Char.ofNat b.toNat) = true ∧
      (octetsAsChars bs).all (isLabelChar false) = true then
        some ((octetsAsChars (b :: bs)).map fun c => UInt8.ofNat c.toNat) else none) = _
  rw [hback]
  simp only [hiff]

theorem AreWritable.isAscii (h : AreWritable f l) : IsAscii l := by
  induction l generalizing f with
  | nil => exact fun b hb => absurd hb List.not_mem_nil
  | cons b bs ih =>
      refine List.forall_mem_cons.2 ⟨?_, ih h.2⟩
      rcases h.1 with hplain | rfl
      · exact toNat_lt_of_isPlain hplain
      · decide

/-! ### Names -/

/-- The tokens of a name: its labels with dots between them, and one at the end of a complete
name. -/
def nameTokens (isComplete : Bool) : List (List UInt8) → List Token
  | [] => if isComplete then [.dot] else []
  | [l] => labelTokens l ++ if isComplete then [.dot] else []
  | l :: m :: rest => labelTokens l ++ .dot :: nameTokens isComplete (m :: rest)

theorem tokens?_joinLabels (hlabels : labels ≠ []) :
    tokens? (joinLabels c (labels.map labelChars)) =
      if ∀ l ∈ labels, IsAscii l then some (nameTokens c labels) else none := by
  induction labels with
  | nil => exact absurd rfl hlabels
  | cons l post ih =>
      cases post with
      | nil =>
          have hend : tokens? (if c then ['.'] else []) = some (if c then [.dot] else []) := by
            cases c <;> rfl
          have htext : joinLabels c [labelChars l] =
              cellChars true l ++ if c then ['.'] else [] := by
            rw [labelChars_eq]
            cases c with
            | false => exact (List.append_nil _).symm
            | true => rfl
          rw [List.map_singleton, htext, tokens?_cellChars_append, hend]
          simp [nameTokens]
      | cons m rest =>
          have htext : joinLabels c ((l :: m :: rest).map labelChars) =
              cellChars true l ++ '.' :: joinLabels c ((m :: rest).map labelChars) := by
            rw [List.map_cons, labelChars_eq]
            rfl
          rw [htext, tokens?_cellChars_append, tokens?, ih (List.cons_ne_nil _ _), nameTokens]
          by_cases hl : IsAscii l
          · by_cases hpost : ∀ k ∈ m :: rest, IsAscii k
            · rw [if_pos hl, if_pos hpost, if_pos (List.forall_mem_cons.2 ⟨hl, hpost⟩)]
              rfl
            · rw [if_pos hl, if_neg hpost, if_neg fun h => hpost (List.forall_mem_cons.1 h).2]
              rfl
          · rw [if_neg hl, if_neg fun h => hl (List.forall_mem_cons.1 h).1]

/-- The labels that tokens write, the last of which may be open. -/
def written (ts : List Token) : List (List Char) :=
  if (splitTokens ts).2.isEmpty then (splitTokens ts).1
  else (splitTokens ts).1 ++ [(splitTokens ts).2]

theorem splitTokens_nameTokens (hnames : ∀ l ∈ labels, l ≠ []) (hlabels : labels ≠ []) :
    written (nameTokens c labels) = labels.map octetsAsChars ∧
      (splitTokens (nameTokens c labels)).2.isEmpty = c := by
  unfold written
  induction labels with
  | nil => exact absurd rfl hlabels
  | cons l post ih =>
      have hl : (octetsAsChars l).isEmpty = false := by
        simpa [octetsAsChars] using hnames l List.mem_cons_self
      cases post with
      | nil =>
          rw [nameTokens, splitTokens_labelTokens_append]
          cases c <;> simp [splitTokens, hl]
      | cons m rest =>
          obtain ⟨hwritten, hopen⟩ :=
            ih (fun k hk => hnames k (List.mem_cons_of_mem _ hk)) (List.cons_ne_nil m rest)
          rw [nameTokens, splitTokens_labelTokens_append, splitTokens, List.map_cons, ← hwritten]
          generalize splitTokens (nameTokens c (m :: rest)) = parts at hopen ⊢
          refine ⟨?_, hopen⟩
          show (if parts.2.isEmpty then (octetsAsChars l ++ []) :: parts.1
            else ((octetsAsChars l ++ []) :: parts.1) ++ [parts.2]) = _
          rw [List.append_nil]
          split <;> rfl

theorem mapM_label?_octetsAsChars (hnames : ∀ l ∈ labels, l ≠ []) :
    (labels.map octetsAsChars).mapM label? =
      if ∀ l ∈ labels, AreWritable true l then some labels else none := by
  induction labels with
  | nil => rw [if_pos (by simp)]; rfl
  | cons l post ih =>
      have hpost := ih fun k hk => hnames k (List.mem_cons_of_mem _ hk)
      rw [List.map_cons, List.mapM_cons, label?_octetsAsChars (hnames l List.mem_cons_self), hpost]
      by_cases hl : AreWritable true l
      · by_cases hrest : ∀ k ∈ post, AreWritable true k
        · rw [if_pos hl, if_pos hrest, if_pos (List.forall_mem_cons.2 ⟨hl, hrest⟩)]
          rfl
        · rw [if_pos hl, if_neg hrest, if_neg fun h => hrest (List.forall_mem_cons.1 h).2]
          rfl
      · rw [if_neg hl, if_neg fun h => hl (List.forall_mem_cons.1 h).1]
        rfl

theorem exists_joinLabels_cons (c : Bool) (l : List UInt8) (post : List (List UInt8)) :
    ∃ xs, joinLabels c ((l :: post).map labelChars) = cellChars true l ++ xs := by
  cases post with
  | nil =>
      cases c with
      | false => exact ⟨[], (labelChars_eq l).trans (List.append_nil _).symm⟩
      | true => exact ⟨['.'], congrArg (· ++ ['.']) (labelChars_eq l)⟩
  | cons m rest =>
      exact ⟨'.' :: joinLabels c ((m :: rest).map labelChars),
        congrArg (· ++ _) (labelChars_eq l)⟩

/-- The text of a name is read as the name when it is writable, and else not at all. -/
theorem ofChars?_charsWith (n : DomainName) :
    ofChars? (n.charsWith labelChars) = if n.IsWritable then some n else none := by
  have hnames : ∀ l ∈ n.labels, l ≠ [] := fun l hl => (n.areLabels.1 l hl).1
  obtain ⟨labels, c, hare⟩ := n
  have hofLabels : ofLabels? c labels = some ⟨labels, c, hare⟩ := dif_pos hare
  unfold charsWith ofChars?
  dsimp only at hnames ⊢
  cases labels with
  | nil =>
      rw [if_pos (show IsWritable ⟨[], c, hare⟩ from fun l hl => absurd hl List.not_mem_nil)]
      cases c with
      | true => rfl
      | false => exact hofLabels
  | cons l post =>
      have hne : l :: post ≠ [] := List.cons_ne_nil l post
      obtain ⟨xs, hxs⟩ := exists_joinLabels_cons c l post
      have hroot : joinLabels c ((l :: post).map labelChars) ≠ ['.'] := by
        rw [hxs]
        exact (dot_ne_cellChars_append (hnames l List.mem_cons_self)).symm
      have hempty : (joinLabels c ((l :: post).map labelChars)).isEmpty = false := by
        rw [hxs]
        have hcell : cellChars true l ≠ [] :=
          fun h => hnames l List.mem_cons_self (cellChars_eq_nil.1 h)
        simp [hcell]
      rw [if_neg hroot, tokens?_joinLabels hne, hempty]
      obtain ⟨hwritten, hopen⟩ := splitTokens_nameTokens (c := c) hnames hne
      by_cases hascii : ∀ k ∈ l :: post, IsAscii k
      · rw [if_pos hascii]
        show ((written (nameTokens c (l :: post))).mapM label?).bind
          (ofLabels? ((splitTokens (nameTokens c (l :: post))).2.isEmpty && !false)) = _
        rw [hwritten, hopen, mapM_label?_octetsAsChars hnames, Bool.not_false, Bool.and_true]
        by_cases hwritable : ∀ k ∈ l :: post, AreWritable true k
        · rw [if_pos hwritable, if_pos (show IsWritable ⟨l :: post, c, hare⟩ from hwritable)]
          exact hofLabels
        · rw [if_neg hwritable, if_neg (show ¬ IsWritable ⟨l :: post, c, hare⟩ from hwritable)]
          rfl
      · have hwritable : ¬ IsWritable ⟨l :: post, c, hare⟩ :=
          fun h => hascii fun k hk => (h k hk).isAscii
        rw [if_neg hascii, if_neg hwritable]
        rfl

end Labels

/-! ### What is read lies in ASCII -/

section Ascii

variable {cs : List Char} {c : Char}

theorem toNat_lt_of_isDigit (h : c.isDigit = true) : c.toNat < 128 := by
  have h := isDigit_iff.1 h
  omega

theorem toNat_lt_of_octalDigit? (h : octalDigit? c ≠ none) : c.toNat < 128 := by
  by_contra hwide
  refine h (octalDigit?_eq_none fun hdigit => hwide (toNat_lt_of_isDigit hdigit))

theorem forall_toNat_lt_of_tokens? {ts : List Token} (h : tokens? cs = some ts) :
    ∀ c ∈ cs, c.toNat < 128 := by
  have hdot : '.'.toNat < 128 := by decide
  have hslash : '\\'.toNat < 128 := by decide
  fun_induction tokens? cs generalizing ts with
  | case1 => exact fun c hc => absurd hc List.not_mem_nil
  | case2 cs ih =>
      obtain ⟨us, hus, -⟩ := Option.map_eq_some_iff.1 h
      exact List.forall_mem_cons.2 ⟨hdot, ih hus⟩
  | case3 => exact List.forall_mem_singleton.2 hslash
  | case4 | case5 | case8 | case10 | case11 | case13 => cases h
  | case6 c _ hc i _ =>
      exact List.forall_mem_cons.2 ⟨hslash, List.forall_mem_singleton.2 (toNat_lt_of_isDigit hc)⟩
  | case7 c _ hc i d _ hd =>
      have hd : octalDigit? d ≠ none := by simpa [Option.isSome_iff_ne_none] using hd
      exact List.forall_mem_cons.2 ⟨hslash, List.forall_mem_cons.2 ⟨toNat_lt_of_isDigit hc,
        List.forall_mem_singleton.2 (toNat_lt_of_octalDigit? hd)⟩⟩
  | case9 c _ hc i d e cs _ j k hk hj =>
      rename_i ih
      obtain ⟨us, hus, -⟩ := Option.map_eq_some_iff.1 h
      have hd := toNat_lt_of_octalDigit? (c := d) (by simp [hj])
      have he := toNat_lt_of_octalDigit? (c := e) (by simp [hk])
      exact List.forall_mem_cons.2 ⟨hslash, List.forall_mem_cons.2 ⟨toNat_lt_of_isDigit hc,
        List.forall_mem_cons.2 ⟨hd, List.forall_mem_cons.2 ⟨he, ih hus⟩⟩⟩⟩
  | case12 c cs hc _ ih =>
      obtain ⟨us, hus, -⟩ := Option.map_eq_some_iff.1 h
      exact List.forall_mem_cons.2 ⟨hslash, List.forall_mem_cons.2 ⟨by omega, ih hus⟩⟩
  | case14 c cs _ _ hc ih =>
      obtain ⟨us, hus, -⟩ := Option.map_eq_some_iff.1 h
      exact List.forall_mem_cons.2 ⟨by omega, ih hus⟩

theorem forall_toNat_lt_of_ofChars? {n : DomainName} (h : ofChars? cs = some n) :
    ∀ c ∈ cs, c.toNat < 128 := by
  unfold ofChars? at h
  split at h
  · rename_i hroot
    rw [hroot, List.forall_mem_singleton]
    decide
  · simp only [Option.bind_eq_bind, Option.bind_eq_some_iff] at h
    obtain ⟨ts, hts, -⟩ := h
    exact forall_toNat_lt_of_tokens? hts

end Ascii

/-! ### What is read is writable -/

section Written

variable {cs : List Char} {n : DomainName}

theorem toNat_lt_of_isLabelChar {f : Bool} {c : Char} (h : isLabelChar f c = true) :
    c.toNat < 128 := by
  have hmark {d : Char} (hd : d.toNat < 128) (hcd : c = d) : c.toNat < 128 := hcd ▸ hd
  unfold isLabelChar at h
  simp only [Bool.or_eq_true, Bool.and_eq_true, beq_iff_eq] at h
  rcases h with (((halnum | hc) | hc) | ⟨hc, -⟩) | ⟨hc, -⟩
  · have hrange := isAlphanum_iff.1 halnum
    omega
  · exact hmark (by decide) hc
  · exact hmark (by decide) hc
  · exact hmark (by decide) hc
  · exact hmark (by decide) hc

/-- A label that is read holds the octets of its characters, and these are writable. -/
theorem label?_eq_some {l : List UInt8} (h : label? cs = some l) :
    octetsAsChars l = cs ∧ AreWritable true l := by
  cases cs with
  | nil => cases h
  | cons c cs =>
      have hread := h
      rw [label?] at h
      split at h
      · rename_i hchars
        obtain rfl := Option.some.inj h
        have hlow : ∀ d ∈ c :: cs, d.toNat < 128 :=
          List.forall_mem_cons.2 ⟨toNat_lt_of_isLabelChar hchars.1, fun d hd =>
            toNat_lt_of_isLabelChar (List.all_eq_true.1 hchars.2 d hd)⟩
        have hback : octetsAsChars ((c :: cs).map fun d => UInt8.ofNat d.toNat) = c :: cs := by
          unfold octetsAsChars
          rw [List.map_map]
          refine (List.map_congr_left fun d hd => ?_).trans (List.map_id (c :: cs))
          have hd := hlow d hd
          rw [Function.comp_apply, UInt8.toNat_ofNat_of_lt' (by show _ < 256; omega),
            Char.ofNat_toNat, id_eq]
        refine ⟨hback, ?_⟩
        rw [← hback, label?_octetsAsChars (by simp)] at hread
        split at hread
        · assumption
        · cases hread
      · cases h

theorem mapM_label?_eq_some {pieces : List (List Char)} {labels : List (List UInt8)}
    (h : pieces.mapM label? = some labels) :
    labels.map octetsAsChars = pieces ∧ ∀ l ∈ labels, AreWritable true l := by
  induction pieces generalizing labels with
  | nil =>
      obtain rfl := Option.some.inj h
      exact ⟨rfl, fun l hl => absurd hl List.not_mem_nil⟩
  | cons piece pieces ih =>
      rw [List.mapM_cons] at h
      simp only [Option.bind_eq_bind, Option.bind_eq_some_iff, Option.pure_def,
        Option.some.injEq] at h
      obtain ⟨l, hl, rest, hrest, rfl⟩ := h
      obtain ⟨hchars, hwritable⟩ := label?_eq_some hl
      obtain ⟨hpieces, hall⟩ := ih hrest
      exact ⟨by rw [List.map_cons, hchars, hpieces], List.forall_mem_cons.2 ⟨hwritable, hall⟩⟩

/-- A name that is read has the labels that its tokens write. -/
theorem ofChars?_eq_some (h : ofChars? cs = some n) (hroot : cs ≠ ['.']) :
    ∃ ts, tokens? cs = some ts ∧ n.labels.map octetsAsChars = written ts ∧ n.IsWritable ∧
      n.isComplete = ((splitTokens ts).2.isEmpty && !cs.isEmpty) := by
  unfold ofChars? at h
  rw [if_neg hroot] at h
  obtain ⟨ts, hts, h⟩ := Option.bind_eq_some_iff.1 h
  obtain ⟨labels, hlabels, hname⟩ := Option.bind_eq_some_iff.1 h
  obtain ⟨hpieces, hwritable⟩ := mapM_label?_eq_some hlabels
  unfold ofLabels? at hname
  split at hname
  · obtain rfl := Option.some.inj hname
    exact ⟨ts, hts, hpieces, hwritable, rfl⟩
  · cases hname

theorem isWritable_of_ofChars? (h : ofChars? cs = some n) : n.IsWritable := by
  by_cases hroot : cs = ['.']
  · obtain rfl := Option.some.inj (h.symm.trans (if_pos hroot))
    exact fun l hl => absurd hl List.not_mem_nil
  · obtain ⟨-, -, -, hwritable, -⟩ := ofChars?_eq_some h hroot
    exact hwritable

/-- A name that something writes has a text. -/
theorem charsWith_ne_nil_of_ofChars? (h : ofChars? cs = some n) (hcs : cs ≠ []) :
    n.charsWith labelChars ≠ [] := by
  by_cases hroot : cs = ['.']
  · obtain rfl := Option.some.inj (h.symm.trans (if_pos hroot))
    exact List.cons_ne_nil _ _
  · obtain ⟨ts, -, hpieces, -, hcomplete⟩ := ofChars?_eq_some h hroot
    have hnames : ∀ l ∈ n.labels, l ≠ [] := fun l hl => (n.areLabels.1 l hl).1
    unfold charsWith
    cases hlabels : n.labels with
    | nil =>
        rw [hlabels, List.map_nil, written] at hpieces
        split at hpieces
        · rename_i hempty
          rw [hcomplete, hempty]
          cases cs with
          | nil => exact absurd rfl hcs
          | cons c cs => exact List.cons_ne_nil _ _
        · exact absurd hpieces.symm (List.append_ne_nil_of_right_ne_nil _ (List.cons_ne_nil _ _))
    | cons l post =>
        obtain ⟨xs, hxs⟩ := exists_joinLabels_cons n.isComplete l post
        rw [hxs]
        have hl := hnames l (hlabels ▸ List.mem_cons_self)
        exact List.append_ne_nil_of_left_ne_nil (fun hnil => hl (cellChars_eq_nil.1 hnil)) _

/-! Without escapes a text is cut at its dots, and nothing else happens to it. -/

theorem splitTokens_of_not_mem {ts : List Token} (h : tokens? cs = some ts)
    (hback : '\\' ∉ cs) :
    ((splitTokens ts).1.flatMap (· ++ ['.'])) ++ (splitTokens ts).2 = cs ∧
      (∀ piece ∈ (splitTokens ts).1, '.' ∉ piece) ∧ '.' ∉ (splitTokens ts).2 := by
  induction cs generalizing ts with
  | nil =>
      obtain rfl := Option.some.inj h
      simp [splitTokens]
  | cons c cs ih =>
      obtain ⟨hc, hrest⟩ : '\\' ≠ c ∧ '\\' ∉ cs := by simpa using hback
      by_cases hdot : c = '.'
      · subst hdot
        rw [tokens?] at h
        obtain ⟨us, hus, rfl⟩ := Option.map_eq_some_iff.1 h
        obtain ⟨hjoin, hpieces, hopen⟩ := ih hus hrest
        rw [splitTokens]
        exact ⟨congrArg ('.' :: ·) hjoin,
          List.forall_mem_cons.2 ⟨List.not_mem_nil, hpieces⟩, hopen⟩
      · rw [tokens?.eq_8 c cs (fun hd => hdot hd) (fun hs => hc hs.symm)] at h
        split at h
        · cases h
        · obtain ⟨us, hus, rfl⟩ := Option.map_eq_some_iff.1 h
          obtain ⟨hjoin, hpieces, hopen⟩ := ih hus hrest
          rw [splitTokens]
          generalize splitTokens us = parts at hjoin hpieces hopen ⊢
          obtain ⟨pieces, rest⟩ := parts
          cases pieces with
          | nil =>
              exact ⟨congrArg (c :: ·) hjoin, hpieces, by simpa using ⟨Ne.symm hdot, hopen⟩⟩
          | cons piece pieces =>
              obtain ⟨hpiece, hmore⟩ := List.forall_mem_cons.1 hpieces
              exact ⟨congrArg (c :: ·) hjoin, List.forall_mem_cons.2
                ⟨by simpa using ⟨Ne.symm hdot, hpiece⟩, hmore⟩, hopen⟩

theorem cellChars_eq_octetsAsChars {f : Bool} {l : List UInt8} (hwritable : AreWritable f l)
    (hdot : '.' ∉ octetsAsChars l) : cellChars f l = octetsAsChars l := by
  induction l generalizing f with
  | nil => rfl
  | cons b bs ih =>
      obtain ⟨hb, hbs⟩ : '.' ≠ Char.ofNat b.toNat ∧ '.' ∉ octetsAsChars bs := by
        simpa [octetsAsChars] using hdot
      have hplain : isPlain f b = true :=
        hwritable.1.resolve_right fun heq => hb (heq ▸ rfl)
      rw [cellChars, ih hwritable.2 hbs, octetChars, if_pos hplain]
      rfl

theorem joinLabels_false_concat (pieces : List (List Char)) (rest : List Char) :
    joinLabels false (pieces ++ [rest]) = pieces.flatMap (· ++ ['.']) ++ rest := by
  induction pieces with
  | nil => rfl
  | cons piece pieces ih =>
      rw [List.flatMap_cons, List.append_assoc, ← ih]
      cases pieces <;> simp [joinLabels]

theorem joinLabels_true_cons (piece : List Char) (pieces : List (List Char)) :
    joinLabels true (piece :: pieces) = (piece :: pieces).flatMap (· ++ ['.']) := by
  induction pieces generalizing piece with
  | nil => simp [joinLabels]
  | cons next pieces ih =>
      show piece ++ '.' :: joinLabels true (next :: pieces) =
        (piece ++ ['.']) ++ (next :: pieces).flatMap (· ++ ['.'])
      rw [ih, List.append_assoc]
      rfl

/-- A text without escapes is the text of the name that it writes. -/
theorem charsWith_of_not_mem (h : ofChars? cs = some n) (hback : '\\' ∉ cs) :
    n.charsWith labelChars = cs := by
  by_cases hroot : cs = ['.']
  · obtain rfl := Option.some.inj (h.symm.trans (if_pos hroot))
    exact hroot.symm
  · obtain ⟨ts, hts, hpieces, hwritable, hcomplete⟩ := ofChars?_eq_some h hroot
    obtain ⟨hjoin, hdots, hopen⟩ := splitTokens_of_not_mem hts hback
    have hwritten : ∀ piece ∈ written ts, '.' ∉ piece := by
      intro piece hpiece
      unfold written at hpiece
      split at hpiece
      · exact hdots piece hpiece
      · rcases List.mem_append.1 hpiece with hpiece | hpiece
        · exact hdots piece hpiece
        · obtain rfl := List.mem_singleton.1 hpiece
          exact hopen
    have htexts : n.labels.map labelChars = written ts := by
      rw [← hpieces]
      refine List.map_congr_left fun l hl => ?_
      rw [labelChars_eq]
      exact cellChars_eq_octetsAsChars (hwritable l hl)
        (hwritten _ (hpieces ▸ List.mem_map_of_mem hl))
    rw [charsWith, htexts, hcomplete, ← hjoin]
    unfold written
    generalize splitTokens ts = parts
    obtain ⟨pieces, rest⟩ := parts
    cases rest with
    | nil =>
        cases pieces with
        | nil => rfl
        | cons piece pieces =>
            have hsome : ((piece :: pieces).flatMap (· ++ ['.']) ++ []).isEmpty = false := by simp
            rw [hsome, List.append_nil]
            exact joinLabels_true_cons piece pieces
    | cons c rest => simp [joinLabels_false_concat]

end Written

end CachingResolver.DomainName
