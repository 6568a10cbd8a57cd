import CachingResolver.DomainName
import CachingResolver.Text.Utf8

/-!
# What a name in wire form is written with

A text that is read as a name holds no blanks (`isBlank_eq_false_of_ofChars?`): outside escapes they
cannot be written, and an escaped one becomes a character of a label, where it cannot stand.
-/

namespace CachingResolver.DomainName

open CachingResolver.Text

/-- The complete name of some labels, or the root when they form no name. -/
def ofTexts (labels : List String) : DomainName :=
  (ofLabels? true (labels.map Utf8.encode)).getD .root

/-! ### Characters that are no blanks -/

theorem isBlank_eq_false_of_isLabelChar {isFirst : Bool} {c : Char}
    (h : isLabelChar isFirst c = true) : isBlank c = false := by
  have hrange : 0x21 ≤ c.toNat ∧ c.toNat < 0x80 := by
    have hval : c.toNat = c.val.toNat := rfl
    have hupper : 'A'.val.toNat = 65 ∧ 'Z'.val.toNat = 90 := ⟨rfl, rfl⟩
    have hlower : 'a'.val.toNat = 97 ∧ 'z'.val.toNat = 122 := ⟨rfl, rfl⟩
    have hdigit : '0'.val.toNat = 48 ∧ '9'.val.toNat = 57 := ⟨rfl, rfl⟩
    have halphanum : c.isAlphanum =
        ((decide (c.val ≥ 'A'.val ∧ c.val ≤ 'Z'.val) ||
          (decide (c.val ≥ 'a'.val) && decide (c.val ≤ 'z'.val))) ||
            (decide (c.val ≥ '0'.val) && decide (c.val ≤ '9'.val))) := rfl
    simp only [isLabelChar, halphanum, Bool.or_eq_true, Bool.and_eq_true, decide_eq_true_eq,
      beq_iff_eq, ge_iff_le, UInt32.le_iff_toNat_le] at h
    rcases h with (((((h | h) | h) | rfl) | rfl) | ⟨rfl, -⟩) | ⟨rfl, -⟩
    · omega
    · omega
    · omega
    all_goals decide
  unfold isBlank
  simp only [Bool.or_eq_false_iff, Bool.and_eq_false_iff, decide_eq_false_iff_not,
    beq_eq_false_iff_ne]
  omega

theorem isBlank_eq_false_of_isDigit {c : Char} (h : c.isDigit = true) : isBlank c = false := by
  have hlabel : isLabelChar false c = true := by
    simp [isLabelChar, Char.isAlphanum, h]
  exact isBlank_eq_false_of_isLabelChar hlabel

theorem isBlank_eq_false_of_octalDigit? {c : Char} (h : octalDigit? c ≠ none) :
    isBlank c = false := by
  refine isBlank_eq_false_of_isDigit ?_
  unfold octalDigit? at h
  split at h
  · rename_i hc
    simp only [Char.isDigit, Bool.and_eq_true, decide_eq_true_eq]
    exact ⟨hc.1, Char.le_trans hc.2 (by decide)⟩
  · exact absurd rfl h

theorem isBlank_eq_false_of_label? {cs : List Char} {octets : List UInt8} {c : Char}
    (h : label? cs = some octets) (hc : c ∈ cs) : isBlank c = false := by
  unfold label? at h
  split at h
  · cases hc
  · split at h
    · rename_i hall
      rcases List.mem_cons.1 hc with rfl | hc
      · exact isBlank_eq_false_of_isLabelChar hall.1
      · exact isBlank_eq_false_of_isLabelChar (List.all_eq_true.1 hall.2 c hc)
    · cases h

/-! ### Where a blank would have to stand -/

/-- A blank in a text whose escapes can be resolved becomes a character of a label. -/
theorem char_mem_tokens?_of_isBlank {cs : List Char} {ts : List Token} {b : Char}
    (h : tokens? cs = some ts) (hb : b ∈ cs) (hblank : isBlank b = true) : .char b ∈ ts := by
  have hne : ∀ c, isBlank c = false → b ≠ c := by
    rintro c hc rfl
    rw [hblank] at hc
    cases hc
  have hdot : b ≠ '.' := hne _ (by decide)
  have hslash : b ≠ '\\' := hne _ (by decide)
  have hdigit : ∀ c, c.isDigit = true → b ≠ c := fun c hc => hne c (isBlank_eq_false_of_isDigit hc)
  have hoctal : ∀ c, octalDigit? c ≠ none → b ≠ c :=
    fun c hc => hne c (isBlank_eq_false_of_octalDigit? hc)
  fun_induction tokens? cs generalizing ts with
  | case1 => cases hb
  | case2 cs ih =>
      obtain ⟨us, hus, rfl⟩ := Option.map_eq_some_iff.1 h
      exact List.mem_cons_of_mem _ (ih hus (List.mem_of_ne_of_mem hdot hb))
  | case3 => exact absurd (List.mem_singleton.1 hb) hslash
  | case4 | case5 | case8 | case10 | case11 | case13 => cases h
  | case6 c _ hc i _ =>
      -- The escape is cut off after one digit.
      simp [hslash, hdigit c hc] at hb
  | case7 c _ hc i d _ hd =>
      have hd : octalDigit? d ≠ none := by simpa [Option.isSome_iff_ne_none] using hd
      simp [hslash, hdigit c hc, hoctal d hd] at hb
  | case9 c _ hc i d e cs _ j k hk hj =>
      rename_i ih
      obtain ⟨us, hus, rfl⟩ := Option.map_eq_some_iff.1 h
      have hd : b ≠ d := hoctal d (by simp [hj])
      have he : b ≠ e := hoctal e (by simp [hk])
      have hrest : b ∈ cs := by simpa [hslash, hdigit c hc, hd, he] using hb
      exact List.mem_cons_of_mem _ (ih hus hrest)
  | case12 c cs _ hc ih =>
      obtain ⟨us, hus, rfl⟩ := Option.map_eq_some_iff.1 h
      rcases List.mem_cons.1 (List.mem_of_ne_of_mem hslash hb) with rfl | hb
      · exact List.mem_cons_self
      · exact List.mem_cons_of_mem _ (ih hus hb)
  | case14 c cs _ _ hc ih =>
      obtain ⟨us, hus, rfl⟩ := Option.map_eq_some_iff.1 h
      rcases List.mem_cons.1 hb with rfl | hb
      · exact List.mem_cons_self
      · exact List.mem_cons_of_mem _ (ih hus hb)

/-- The characters of tokens are those of the labels that they make up, and of what follows the
last dot. -/
theorem mem_splitTokens_of_char_mem {ts : List Token} {c : Char} (h : .char c ∈ ts) :
    (∃ label ∈ (splitTokens ts).1, c ∈ label) ∨ c ∈ (splitTokens ts).2 := by
  induction ts with
  | nil => cases h
  | cons t ts ih =>
      cases t with
      | dot =>
          have h : Token.char c ∈ ts := by simpa using h
          exact (ih h).imp_left fun ⟨label, hlabel, hc⟩ => ⟨label, List.mem_cons_of_mem _ hlabel, hc⟩
      | char d =>
          rw [splitTokens]
          generalize splitTokens ts = parts at ih ⊢
          obtain ⟨labels, rest⟩ := parts
          cases labels with
          | nil =>
              right
              rcases List.mem_cons.1 h with heq | h
              · cases heq
                exact List.mem_cons_self
              · rcases ih h with ⟨label, hlabel, -⟩ | hrest
                · cases hlabel
                · exact List.mem_cons_of_mem _ hrest
          | cons label labels =>
              rcases List.mem_cons.1 h with heq | h
              · cases heq
                exact .inl ⟨_, List.mem_cons_self, List.mem_cons_self⟩
              · rcases ih h with ⟨l, hl, hc⟩ | hrest
                · rcases List.mem_cons.1 hl with rfl | hl
                  · exact .inl ⟨_, List.mem_cons_self, List.mem_cons_of_mem _ hc⟩
                  · exact .inl ⟨l, List.mem_cons_of_mem _ hl, hc⟩
                · exact .inr hrest

theorem isSome_label?_of_mapM {labels : List (List Char)} {octets : List (List UInt8)}
    (h : labels.mapM label? = some octets) : ∀ label ∈ labels, (label? label).isSome = true := by
  intro label hlabel
  obtain ⟨before, after, rfl⟩ := List.append_of_mem hlabel
  cases hnone : label? label with
  | some bs => rfl
  | none => simp [hnone] at h

/-- A text that is read as a name holds no blanks. -/
theorem isBlank_eq_false_of_ofChars? {cs : List Char} {n : DomainName} {c : Char}
    (h : ofChars? cs = some n) (hc : c ∈ cs) : isBlank c = false := by
  unfold ofChars? at h
  split at h
  · rename_i hroot
    rw [hroot, List.mem_singleton] at hc
    rw [hc]
    decide
  · cases hblank : isBlank c with
    | false => rfl
    | true =>
        obtain ⟨ts, htokens, h⟩ := Option.bind_eq_some_iff.1 h
        have hmem := mem_splitTokens_of_char_mem (char_mem_tokens?_of_isBlank htokens hc hblank)
        generalize splitTokens ts = parts at h hmem
        obtain ⟨labels, rest⟩ := parts
        obtain ⟨octets, hoctets, -⟩ := Option.bind_eq_some_iff.1 h
        -- The blank stands in one of the labels that have been read.
        have hlabel : ∃ label ∈ if rest.isEmpty then labels else labels ++ [rest], c ∈ label := by
          rcases hmem with ⟨label, hlabel, hmem⟩ | hmem
          · refine ⟨label, ?_, hmem⟩
            split
            · exact hlabel
            · exact List.mem_append_left _ hlabel
          · have hrest : rest.isEmpty = false := by simpa using List.ne_nil_of_mem hmem
            exact ⟨rest, by simp [hrest], hmem⟩
        obtain ⟨label, hlabel, hmem⟩ := hlabel
        obtain ⟨bs, hbs⟩ := Option.isSome_iff_exists.1 (isSome_label?_of_mapM hoctets label hlabel)
        rw [isBlank_eq_false_of_label? hbs hmem] at hblank
        cases hblank

end CachingResolver.DomainName
