import CachingResolver.Text.Utf8
import Mathlib.Data.List.Basic

/-!
# Texts in UTF-8

Both readers read the octets of a text as that text: the strict one in `decode?_encode`, so that
different texts have different octets (`encode_inj`), and the one that takes any octets in
`decodeLossy_encode`.  For the latter the octets of one character are read first, with any octets
after them: there is one lemma for each number of octets that a character may take.
-/

namespace CachingResolver.Text.Utf8

section Sequences

variable {a b c d : UInt8} {rest : List UInt8}

theorem decodeLossy_one (ha : a.toNat ≤ 127) :
    decodeLossy (a :: rest) = Char.ofNat a.toNat :: decodeLossy rest := by
  have hlow : a ≤ 0x7f := UInt8.le_iff_toNat_le.2 ha
  rw [decodeLossy.eq_def]
  exact if_pos hlow

theorem decodeLossy_two (ha : 194 ≤ a.toNat ∧ a.toNat ≤ 223) (hb : isContinuation b = true) :
    decodeLossy (a :: b :: rest) =
      Char.ofNat (a.toNat % 32 * 64 + payload b) :: decodeLossy rest := by
  have hlow : ¬ a ≤ 0x7f := fun h => absurd (UInt8.le_iff_toNat_le.1 h) (by simp; omega)
  have hlead : (0xc2 ≤ a && a ≤ 0xdf) = true := by
    simp [UInt8.le_iff_toNat_le, ha]
  rw [decodeLossy, if_neg hlow, if_pos hlead]
  exact if_pos hb

theorem decodeLossy_three (ha : 224 ≤ a.toNat ∧ a.toNat ≤ 239) (hb : isSecondOfThree a b = true)
    (hc : isContinuation c = true) :
    decodeLossy (a :: b :: c :: rest) =
      Char.ofNat (a.toNat % 16 * 4096 + payload b * 64 + payload c) :: decodeLossy rest := by
  have hlow : ¬ a ≤ 0x7f := fun h => absurd (UInt8.le_iff_toNat_le.1 h) (by simp; omega)
  have htwo : ¬ (0xc2 ≤ a && a ≤ 0xdf) = true := by
    simp [UInt8.le_iff_toNat_le]; omega
  have hlead : (0xe0 ≤ a && a ≤ 0xef) = true := by
    simp [UInt8.le_iff_toNat_le, ha]
  rw [decodeLossy, if_neg hlow, if_neg htwo, if_pos hlead]
  exact (if_pos hb).trans (if_pos hc)

theorem decodeLossy_four (ha : 240 ≤ a.toNat ∧ a.toNat ≤ 244) (hb : isSecondOfFour a b = true)
    (hc : isContinuation c = true) (hd : isContinuation d = true) :
    decodeLossy (a :: b :: c :: d :: rest) =
      Char.ofNat (a.toNat % 8 * 262144 + payload b * 4096 + payload c * 64 + payload d) ::
        decodeLossy rest := by
  have hlow : ¬ a ≤ 0x7f := fun h => absurd (UInt8.le_iff_toNat_le.1 h) (by simp; omega)
  have htwo : ¬ (0xc2 ≤ a && a ≤ 0xdf) = true := by
    simp [UInt8.le_iff_toNat_le]; omega
  have hthree : ¬ (0xe0 ≤ a && a ≤ 0xef) = true := by
    simp [UInt8.le_iff_toNat_le]; omega
  have hlead : (0xf0 ≤ a && a ≤ 0xf4) = true := by
    simp [UInt8.le_iff_toNat_le, ha]
  rw [decodeLossy, if_neg hlow, if_neg htwo, if_neg hthree, if_pos hlead]
  exact (if_pos hb).trans ((if_pos hc).trans (if_pos hd))

end Sequences

theorem isContinuation_iff {b : UInt8} :
    isContinuation b = true ↔ 128 ≤ b.toNat ∧ b.toNat ≤ 191 := by
  simp [isContinuation, UInt8.le_iff_toNat_le]

theorem isSecondOfThree_of {a b : UInt8} (hb : 128 ≤ b.toNat ∧ b.toNat ≤ 191)
    (he0 : a.toNat = 224 → 160 ≤ b.toNat) (hed : a.toNat = 237 → b.toNat ≤ 159) :
    isSecondOfThree a b = true := by
  unfold isSecondOfThree
  simp only [beq_iff_eq, ← UInt8.toNat_inj]
  split
  · rename_i h
    simp [UInt8.le_iff_toNat_le, he0 h, hb]
  · split
    · rename_i h
      simp [UInt8.le_iff_toNat_le, hed h, hb]
    · exact isContinuation_iff.2 hb

theorem isSecondOfFour_of {a b : UInt8} (hb : 128 ≤ b.toNat ∧ b.toNat ≤ 191)
    (hf0 : a.toNat = 240 → 144 ≤ b.toNat) (hf4 : a.toNat = 244 → b.toNat ≤ 143) :
    isSecondOfFour a b = true := by
  unfold isSecondOfFour
  simp only [beq_iff_eq, ← UInt8.toNat_inj]
  split
  · rename_i h
    simp [UInt8.le_iff_toNat_le, hf0 h, hb]
  · split
    · rename_i h
      simp [UInt8.le_iff_toNat_le, hf4 h, hb]
    · exact isContinuation_iff.2 hb

theorem toNat_ofNat_of_lt {n : Nat} (h : n < 256) : (UInt8.ofNat n).toNat = n := by
  rw [UInt8.toNat_ofNat']
  exact Nat.mod_eq_of_lt h

/-- The octets of a character are read as the character. -/
theorem decodeLossy_utf8EncodeChar_append (c : Char) (rest : List UInt8) :
    decodeLossy (String.utf8EncodeChar c ++ rest) = c :: decodeLossy rest := by
  have hvalid : c.val.toNat < 55296 ∨ 57343 < c.val.toNat ∧ c.val.toNat < 1114112 := c.valid
  have hchar : ∀ {n : Nat}, n = c.val.toNat → Char.ofNat n = c := by
    rintro n rfl
    exact Char.ofNat_toNat c
  unfold String.utf8EncodeChar
  dsimp only
  generalize c.val.toNat = v at hvalid hchar
  -- The low six bits, which the last octet carries.
  have hlast := toNat_ofNat_of_lt (n := v % 64 + 128) (by omega)
  split
  · have ha := toNat_ofNat_of_lt (n := v) (by omega)
    rw [List.singleton_append, decodeLossy_one (by omega), ha, hchar rfl]
  · split
    · have ha := toNat_ofNat_of_lt (n := v / 64 % 32 + 192) (by omega)
      rw [List.cons_append, List.singleton_append,
        decodeLossy_two (by omega) (isContinuation_iff.2 (by omega)), payload, ha, hlast,
        hchar (by omega)]
    · have hmid := toNat_ofNat_of_lt (n := v / 64 % 64 + 128) (by omega)
      split
      · have ha := toNat_ofNat_of_lt (n := v / 4096 % 16 + 224) (by omega)
        have hb := isSecondOfThree_of (a := UInt8.ofNat (v / 4096 % 16 + 224))
          (b := UInt8.ofNat (v / 64 % 64 + 128)) (by omega) (by omega) (by omega)
        rw [List.cons_append, List.cons_append, List.singleton_append,
          decodeLossy_three (by omega) hb (isContinuation_iff.2 (by omega)), payload, payload, ha,
          hmid, hlast, hchar (by omega)]
      · have ha := toNat_ofNat_of_lt (n := v / 262144 % 8 + 240) (by omega)
        have hsecond := toNat_ofNat_of_lt (n := v / 4096 % 64 + 128) (by omega)
        have hb := isSecondOfFour_of (a := UInt8.ofNat (v / 262144 % 8 + 240))
          (b := UInt8.ofNat (v / 4096 % 64 + 128)) (by omega) (by omega) (by omega)
        rw [List.cons_append, List.cons_append, List.cons_append, List.singleton_append,
          decodeLossy_four (by omega) hb (isContinuation_iff.2 (by omega))
            (isContinuation_iff.2 (by omega)), payload, payload, payload, ha, hsecond, hmid, hlast,
          hchar (by omega)]

theorem decode?_encode (s : String) : decode? (encode s) = some s := by
  have hoctets : (⟨(encode s).toArray⟩ : ByteArray) = s.toByteArray := by
    unfold encode
    rw [Array.toArray_toList]
  unfold decode? String.fromUTF8?
  rw [hoctets, dif_pos s.isValidUTF8]
  rfl

/-- What is read is what the octets were written of. -/
theorem decode?_eq_some_iff {octets : List UInt8} {s : String} :
    decode? octets = some s ↔ octets = encode s := by
  refine ⟨fun h => ?_, fun h => h ▸ decode?_encode s⟩
  unfold decode? String.fromUTF8? at h
  split at h
  · obtain rfl := Option.some.inj h
    rfl
  · cases h

theorem encode_inj {s t : String} : encode s = encode t ↔ s = t := by
  refine ⟨fun h => ?_, congrArg encode⟩
  have hread := congrArg decode? h
  rw [decode?_encode, decode?_encode] at hread
  exact Option.some.inj hread

theorem encode_ofList (cs : List Char) :
    encode (String.ofList cs) = cs.flatMap String.utf8EncodeChar := by
  unfold encode
  rw [String.toByteArray_ofList, List.utf8Encode, List.toList_data_toByteArray]

/-- The octets of a text are read as the text. -/
theorem decodeLossy_encode (s : String) : decodeLossy (encode s) = s.toList := by
  obtain ⟨cs, rfl⟩ : ∃ cs, s = String.ofList cs := ⟨s.toList, String.ofList_toList.symm⟩
  rw [encode_ofList, String.toList_ofList]
  induction cs with
  | nil => rw [List.flatMap_nil, decodeLossy]
  | cons c cs ih => rw [List.flatMap_cons, decodeLossy_utf8EncodeChar_append, ih]

end CachingResolver.Text.Utf8
