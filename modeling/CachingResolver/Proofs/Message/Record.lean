import CachingResolver.Proofs.Except
import CachingResolver.Proofs.International
import CachingResolver.Proofs.Message.Codec
import CachingResolver.Proofs.NameReading
import CachingResolver.Proofs.Text

/-!
# Records and their wire forms

A received record becomes a record inside the resolver, whose owner and value are text, and that is
taken for a record in wire form again.  The texts of addresses, numbers and names are read as what
they were written of, with two exceptions.  A name may hold octets that no user may write, and the
data of some types hold names as they are displayed, which need not be ASCII.  So the way back
succeeds exactly when the record is writable (`WireRecord.toWire_eq_ok_iff`); it then gives the
`rewritten` record, with names in lower case and the strings of a text in one, and this is the same
record inside the resolver (`WireRecord.toWire_toRecord?`).
-/

namespace CachingResolver

open CachingResolver.Text

namespace DomainName

/-! ### Canonical names -/

/-- The last label ends in a dot octet, so that the text of the name does not tell whether it is
complete. -/
def endsInDot (labels : List (List UInt8)) : Bool :=
  labels.getLast?.bind List.getLast? == some dotOctet

theorem nameChars_eq_joinLabels (labels : List (List UInt8)) :
    nameChars labels = joinLabels (!endsInDot labels) (labels.map labelChars) := by
  induction labels with
  | nil => rfl
  | cons l post ih =>
      cases post with
      | nil =>
          rw [nameChars, List.map_singleton, labelChars_eq]
          by_cases hlast : l.getLast? = some dotOctet
          · rw [if_pos hlast]
            simp [endsInDot, joinLabels, hlast]
          · rw [if_neg hlast]
            simp [endsInDot, joinLabels, hlast]
      | cons m rest =>
          have hends : endsInDot (l :: m :: rest) = endsInDot (m :: rest) := by
            simp [endsInDot]
          rw [nameChars, ih, hends, labelChars_eq l |>.symm]
          rfl

theorem areLabels_foldLabels {labels : List (List UInt8)} (h : AreLabels labels) :
    AreLabels (foldLabels labels) := by
  have hsize : labelsSize (foldLabels labels) = labelsSize labels := by
    clear h
    induction labels with
    | nil => rfl
    | cons l post ih =>
        show (l.map foldOctet).length + 1 + labelsSize (foldLabels post) =
          l.length + 1 + labelsSize post
        rw [List.length_map, ih]
  refine ⟨fun k hk => ?_, hsize ▸ h.2⟩
  obtain ⟨l, hl, rfl⟩ := List.mem_map.1 hk
  simpa using h.1 l hl

/-- The name that the canonical text of a name is the text of. -/
def lowered (n : DomainName) : DomainName where
  labels := n.folded
  isComplete := !endsInDot n.folded
  areLabels := areLabels_foldLabels n.areLabels

theorem text_lowered (n : DomainName) : n.lowered.text = Name.canonical n.text := by
  rw [← String.toList_inj, toList_canonical_text, nameChars_eq_joinLabels, text,
    String.toList_ofList]
  rfl

theorem canonical_text_lowered (n : DomainName) :
    Name.canonical n.lowered.text = Name.canonical n.text := by
  rw [text_lowered, Name.canonical_canonical]

theorem areWritable_map_foldOctet (f : Bool) (l : List UInt8) :
    AreWritable f (l.map foldOctet) ↔ AreWritable f l := by
  induction l generalizing f with
  | nil => exact Iff.rfl
  | cons b bs ih =>
      show (isPlain f (foldOctet b) = true ∨ foldOctet b = dotOctet) ∧ _ ↔ _
      rw [isPlain_foldOctet, foldOctet_eq_dotOctet, ih]
      rfl

theorem isWritable_lowered_iff (n : DomainName) : n.lowered.IsWritable ↔ n.IsWritable := by
  show (∀ k ∈ n.labels.map (·.map foldOctet), AreWritable true k) ↔ _
  simp only [List.forall_mem_map, areWritable_map_foldOctet]
  rfl

/-! ### Parsing -/

theorem parse_eq_ok_iff {s : String} {m : DomainName} : parse s = .ok m ↔ ofText? s = some m := by
  unfold parse
  cases ofText? s with
  | none => exact ⟨nofun, nofun⟩
  | some n =>
      exact ⟨fun h => congrArg some (Except.ok.inj h), fun h => congrArg _ (Option.some.inj h)⟩

theorem ofText?_text (n : DomainName) :
    ofText? n.text = if n.IsWritable then some n else none := by
  rw [ofText?, text, String.toList_ofList, ofChars?_charsWith]

theorem parse_text_eq_ok_iff {n m : DomainName} :
    parse n.text = .ok m ↔ n.IsWritable ∧ m = n := by
  rw [parse_eq_ok_iff, ofText?_text]
  split
  · rename_i h
    simp [h, eq_comm]
  · rename_i h
    simp [h]

theorem parse_canonical_text_eq_ok_iff {n m : DomainName} :
    parse (Name.canonical n.text) = .ok m ↔ n.IsWritable ∧ m = n.lowered := by
  rw [← text_lowered, parse_text_eq_ok_iff, isWritable_lowered_iff]

theorem forall_toNat_lt_of_parse {s : String} {m : DomainName} (h : parse s = .ok m) :
    ∀ c ∈ s.toList, c.toNat < 128 :=
  forall_toNat_lt_of_ofChars? (parse_eq_ok_iff.1 h)

/-! ### Display -/

/-- Every label is displayed as it is written. -/
def IsShownAsWritten (n : DomainName) : Prop :=
  ∀ l ∈ n.labels, displayLabel l = labelChars l

instance (n : DomainName) : Decidable n.IsShownAsWritten :=
  inferInstanceAs (Decidable (∀ l ∈ n.labels, displayLabel l = labelChars l))

theorem IsShownAsWritten.display_eq {n : DomainName} (h : n.IsShownAsWritten) :
    n.display = n.text := by
  unfold display text charsWith
  rw [List.map_congr_left h]

theorem mem_joinLabels {isComplete : Bool} {texts : List (List Char)} {t : List Char} {c : Char}
    (ht : t ∈ texts) (hc : c ∈ t) : c ∈ joinLabels isComplete texts := by
  induction texts with
  | nil => cases ht
  | cons s rest ih =>
      cases rest with
      | nil =>
          obtain rfl := List.mem_singleton.1 ht
          cases isComplete with
          | false => exact hc
          | true => exact List.mem_append_left _ hc
      | cons next more =>
          rcases List.mem_cons.1 ht with rfl | ht
          · exact List.mem_append_left _ hc
          · exact List.mem_append_right _ (List.mem_cons_of_mem _ (ih ht))

/-- A name that is not displayed as it is written has a visible character beyond ASCII in its
display. -/
theorem exists_wide_of_not_isShownAsWritten {n : DomainName} (h : ¬ n.IsShownAsWritten) :
    ∃ c ∈ n.display.toList, 128 ≤ c.toNat ∧ isBlank c = false := by
  unfold IsShownAsWritten at h
  push Not at h
  obtain ⟨l, hl, hne⟩ := h
  obtain ⟨c, hc, hwide⟩ := exists_wide_of_displayLabel_ne hne
  refine ⟨c, ?_, hwide⟩
  rw [display, String.toList_ofList]
  exact mem_joinLabels (List.mem_map_of_mem hl) hc

theorem isWord_text_of_ne_nil {n : DomainName} (h : n.charsWith labelChars ≠ []) :
    IsWord n.text := by
  unfold IsWord
  rw [text, String.toList_ofList]
  exact ⟨h, not_blank_of_mem_joinLabels _⟩

/-- The text of a complete name is a word. -/
theorem isWord_text {n : DomainName} (h : n.isComplete = true) : IsWord n.text := by
  refine isWord_text_of_ne_nil ?_
  rw [charsWith, h, joinLabels_true]
  exact List.append_ne_nil_of_right_ne_nil _ (List.cons_ne_nil _ _)

end DomainName

/-! ### Values -/

namespace RecordData

/-- The names that a value holds as they are displayed. -/
def shownNames : RecordData → List DomainName
  | .soa server mailbox .. => [server, mailbox]
  | .srv _ _ _ target => [target]
  | _ => []

/-- The value of the data can be read back: a user may write the names, and those that are displayed
are displayed as they are written. -/
def IsWritable (data : RecordData) : Prop :=
  (∀ n ∈ data.names, n.IsWritable) ∧ ∀ n ∈ data.shownNames, n.IsShownAsWritten

instance (data : RecordData) : Decidable data.IsWritable :=
  inferInstanceAs (Decidable (_ ∧ _))

/-- What data become when their value is read back. -/
def rewritten : RecordData → RecordData
  | .cname target => .cname target.lowered
  | .ns server => .ns server.lowered
  | .ptr target => .ptr target.lowered
  | .txt strings => .txt [Utf8.encode (String.ofList (strings.flatMap Utf8.decodeLossy))]
  | data => data

section Values

variable {value : String} {d : RecordData}

theorem require_eq_ok_iff {α : Type} {type : RecordType} {x : Option α} {a : α} :
    require type value x = .ok a ↔ x = some a := by
  cases x with
  | none => exact ⟨nofun, nofun⟩
  | some b =>
      exact ⟨fun h => congrArg some (Except.ok.inj h), fun h => congrArg _ (Option.some.inj h)⟩

theorem ofValue_cname : ofValue .cname value = (DomainName.parse value).map .cname := rfl

theorem ofValue_ns : ofValue .ns value = (DomainName.parse value).map .ns := rfl

theorem ofValue_ptr : ofValue .ptr value = (DomainName.parse value).map .ptr := rfl

theorem ofValue_mx_eq_ok_iff : ofValue .mx value = .ok d ↔
    ∃ p e preference exchange, splitOnce ' ' value.toList = some (p, e) ∧
      word16? p = some preference ∧ DomainName.parse (String.ofList e) = .ok exchange ∧
      .mx preference exchange = d := by
  unfold ofValue
  simp only [bind_eq_ok_iff, require_eq_ok_iff, pure_eq_ok_iff]
  constructor
  · rintro ⟨⟨p, e⟩, hsplit, preference, hp, exchange, he, hd⟩
    exact ⟨p, e, preference, exchange, hsplit, hp, he, hd⟩
  · rintro ⟨p, e, preference, exchange, hsplit, hp, he, hd⟩
    exact ⟨(p, e), hsplit, preference, hp, exchange, he, hd⟩

theorem ofValue_srv_eq_ok_iff : ofValue .srv value = .ok d ↔
    ∃ w₁ w₂ w₃ w₄ priority weight port target, words value.toList = [w₁, w₂, w₃, w₄] ∧
      word16? w₁ = some priority ∧ word16? w₂ = some weight ∧ word16? w₃ = some port ∧
      DomainName.parse (String.ofList w₄) = .ok target ∧ .srv priority weight port target = d := by
  unfold ofValue
  dsimp only
  split
  · rename_i w₁ w₂ w₃ w₄ hwords
    simp only [bind_eq_ok_iff, require_eq_ok_iff, pure_eq_ok_iff]
    constructor
    · rintro ⟨priority, h₁, weight, h₂, port, h₃, target, h₄, hd⟩
      exact ⟨w₁, w₂, w₃, w₄, priority, weight, port, target, hwords, h₁, h₂, h₃, h₄, hd⟩
    · rintro ⟨_, _, _, _, priority, weight, port, target, heq, h₁, h₂, h₃, h₄, hd⟩
      rw [hwords] at heq
      cases heq
      exact ⟨priority, h₁, weight, h₂, port, h₃, target, h₄, hd⟩
  · rename_i hwords
    refine ⟨nofun, ?_⟩
    rintro ⟨_, _, _, _, _, _, _, _, heq, -⟩
    exact absurd heq (hwords _ _ _ _)

theorem ofValue_soa_eq_ok_iff : ofValue .soa value = .ok d ↔
    ∃ w₁ w₂ w₃ w₄ w₅ w₆ w₇ server mailbox serial refresh retry expire minimum,
      words value.toList = [w₁, w₂, w₃, w₄, w₅, w₆, w₇] ∧
      DomainName.parse (String.ofList w₁) = .ok server ∧
      DomainName.parse (String.ofList w₂) = .ok mailbox ∧ signed64? w₃ = some serial ∧
      signed64? w₄ = some refresh ∧ signed64? w₅ = some retry ∧ signed64? w₆ = some expire ∧
      signed64? w₇ = some minimum ∧
      .soa server mailbox (Int32.ofInt serial).toUInt32 (.ofInt refresh) (.ofInt retry)
        (.ofInt expire) (Int32.ofInt minimum).toUInt32 = d := by
  unfold ofValue
  dsimp only
  split
  · rename_i w₁ w₂ w₃ w₄ w₅ w₆ w₇ hwords
    simp only [bind_eq_ok_iff, require_eq_ok_iff, pure_eq_ok_iff]
    constructor
    · rintro ⟨server, h₁, mailbox, h₂, serial, h₃, refresh, h₄, retry, h₅, expire, h₆, minimum, h₇,
        hd⟩
      exact ⟨w₁, w₂, w₃, w₄, w₅, w₆, w₇, server, mailbox, serial, refresh, retry, expire, minimum,
        hwords, h₁, h₂, h₃, h₄, h₅, h₆, h₇, hd⟩
    · rintro ⟨_, _, _, _, _, _, _, server, mailbox, serial, refresh, retry, expire, minimum, heq, h₁,
        h₂, h₃, h₄, h₅, h₆, h₇, hd⟩
      rw [hwords] at heq
      cases heq
      exact ⟨server, h₁, mailbox, h₂, serial, h₃, refresh, h₄, retry, h₅, expire, h₆, minimum, h₇,
        hd⟩
  · rename_i hwords
    refine ⟨nofun, ?_⟩
    rintro ⟨_, _, _, _, _, _, _, _, _, _, _, _, _, _, heq, -⟩
    exact absurd heq (hwords _ _ _ _ _ _ _)

/-- What is read as a value with displayed names lies in ASCII, its blanks apart. -/
theorem forall_toNat_lt_of_ofValue_srv (h : ofValue .srv value = .ok d) :
    ∀ c ∈ value.toList, isBlank c = false → c.toNat < 128 := by
  obtain ⟨w₁, w₂, w₃, w₄, _, _, _, _, hwords, h₁, h₂, h₃, h₄, -⟩ := ofValue_srv_eq_ok_iff.1 h
  intro c hc hblank
  obtain ⟨w, hw, hc⟩ := exists_mem_words hc hblank
  have hname := DomainName.forall_toNat_lt_of_parse h₄
  rw [String.toList_ofList] at hname
  rw [hwords] at hw
  simp only [List.mem_cons, List.not_mem_nil, or_false] at hw
  rcases hw with rfl | rfl | rfl | rfl
  · exact forall_toNat_lt_of_word16? h₁ c hc
  · exact forall_toNat_lt_of_word16? h₂ c hc
  · exact forall_toNat_lt_of_word16? h₃ c hc
  · exact hname c hc

theorem forall_toNat_lt_of_ofValue_soa (h : ofValue .soa value = .ok d) :
    ∀ c ∈ value.toList, isBlank c = false → c.toNat < 128 := by
  obtain ⟨w₁, w₂, w₃, w₄, w₅, w₆, w₇, _, _, _, _, _, _, _, hwords, h₁, h₂, h₃, h₄, h₅, h₆, h₇, -⟩ :=
    ofValue_soa_eq_ok_iff.1 h
  intro c hc hblank
  obtain ⟨w, hw, hc⟩ := exists_mem_words hc hblank
  have hserver := DomainName.forall_toNat_lt_of_parse h₁
  have hmailbox := DomainName.forall_toNat_lt_of_parse h₂
  rw [String.toList_ofList] at hserver hmailbox
  rw [hwords] at hw
  simp only [List.mem_cons, List.not_mem_nil, or_false] at hw
  rcases hw with rfl | rfl | rfl | rfl | rfl | rfl | rfl
  · exact hserver c hc
  · exact hmailbox c hc
  · exact forall_toNat_lt_of_signed64? h₃ c hc
  · exact forall_toNat_lt_of_signed64? h₄ c hc
  · exact forall_toNat_lt_of_signed64? h₅ c hc
  · exact forall_toNat_lt_of_signed64? h₆ c hc
  · exact forall_toNat_lt_of_signed64? h₇ c hc

/-- A name with a value like this around it is displayed as it is written. -/
theorem isShownAsWritten_of_subset {n : DomainName} (hsub : n.display.toList ⊆ value.toList)
    (hascii : ∀ c ∈ value.toList, isBlank c = false → c.toNat < 128) : n.IsShownAsWritten := by
  by_contra hshown
  obtain ⟨c, hc, hwide, hblank⟩ := DomainName.exists_wide_of_not_isShownAsWritten hshown
  have hlt := hascii c (hsub hc) hblank
  omega

theorem splitOnce_mx (preference : UInt16) (exchange : DomainName) :
    splitOnce ' ' (join " " [decimal preference.toNat, exchange.text]).toList =
      some ((decimal preference.toNat).toList, exchange.text.toList) := by
  have hblank : ' ' ∉ (decimal preference.toNat).toList := fun h =>
    absurd ((isWord_decimal _).2 _ h) (by decide)
  rw [toList_join_cons_cons, splitOnce_append hblank]
  rfl

theorem ofValue_mx (preference : UInt16) (exchange : DomainName) :
    ofValue .mx (join " " [decimal preference.toNat, exchange.text]) = .ok d ↔
      exchange.IsWritable ∧ d = .mx preference exchange := by
  rw [ofValue_mx_eq_ok_iff, splitOnce_mx]
  constructor
  · rintro ⟨_, _, preference', exchange', ⟨⟩, hp, he, rfl⟩
    rw [word16?_decimal] at hp
    rw [String.ofList_toList, DomainName.parse_text_eq_ok_iff] at he
    cases hp
    exact ⟨he.1, he.2 ▸ rfl⟩
  · rintro ⟨hwritable, rfl⟩
    refine ⟨_, _, preference, exchange, rfl, word16?_decimal preference, ?_, rfl⟩
    rw [String.ofList_toList]
    exact DomainName.parse_text_eq_ok_iff.2 ⟨hwritable, rfl⟩

/-- The words of a value with displayed names, as long as these are displayed as they are
written. -/
theorem words_srv (priority weight port : UInt16) {target : DomainName} (hword : IsWord target.text)
    (hshown : target.IsShownAsWritten) :
    words (join " " [decimal priority.toNat, decimal weight.toNat, decimal port.toNat,
        target.display]).toList =
      [(decimal priority.toNat).toList, (decimal weight.toNat).toList, (decimal port.toNat).toList,
        target.text.toList] := by
  rw [hshown.display_eq, words_join]
  · rfl
  · simp [isWord_decimal, hword]

theorem words_soa {server mailbox : DomainName} (serial : UInt32) (refresh retry expire : Int32)
    (minimum : UInt32) (hwords : IsWord server.text ∧ IsWord mailbox.text)
    (hshown : server.IsShownAsWritten ∧ mailbox.IsShownAsWritten) :
    words (join " " [server.display, mailbox.display, decimal serial.toNat, signedText refresh,
        signedText retry, signedText expire, decimal minimum.toNat]).toList =
      [server.text.toList, mailbox.text.toList, (decimal serial.toNat).toList,
        (signedText refresh).toList, (signedText retry).toList, (signedText expire).toList,
        (decimal minimum.toNat).toList] := by
  rw [hshown.1.display_eq, hshown.2.display_eq, words_join]
  · rfl
  · simp [isWord_decimal, isWord_signedText, hwords]

theorem ofValue_srv (priority weight port : UInt16) {target : DomainName}
    (hcomplete : target.isComplete = true) :
    ofValue .srv (join " " [decimal priority.toNat, decimal weight.toNat, decimal port.toNat,
        target.display]) = .ok d ↔
      (target.IsWritable ∧ target.IsShownAsWritten) ∧ d = .srv priority weight port target := by
  have hwords := words_srv priority weight port (DomainName.isWord_text hcomplete)
  constructor
  · intro h
    have hshown : target.IsShownAsWritten :=
      isShownAsWritten_of_subset (toList_subset_join (by simp)) (forall_toNat_lt_of_ofValue_srv h)
    rw [ofValue_srv_eq_ok_iff, hwords hshown] at h
    obtain ⟨_, _, _, _, priority', weight', port', target', ⟨⟩, h₁, h₂, h₃, h₄, rfl⟩ := h
    rw [word16?_decimal] at h₁ h₂ h₃
    rw [String.ofList_toList, DomainName.parse_text_eq_ok_iff] at h₄
    cases h₁
    cases h₂
    cases h₃
    exact ⟨⟨h₄.1, hshown⟩, h₄.2 ▸ rfl⟩
  · rintro ⟨⟨hwritable, hshown⟩, rfl⟩
    rw [ofValue_srv_eq_ok_iff, hwords hshown]
    refine ⟨_, _, _, _, priority, weight, port, target, rfl, word16?_decimal _, word16?_decimal _,
      word16?_decimal _, ?_, rfl⟩
    rw [String.ofList_toList]
    exact DomainName.parse_text_eq_ok_iff.2 ⟨hwritable, rfl⟩

theorem toUInt32_ofInt_toNat (n : UInt32) : (Int32.ofInt (n.toNat : Int)).toUInt32 = n := by
  refine UInt32.toBitVec_inj.1 ?_
  show BitVec.ofInt 32 (n.toBitVec.toNat : Int) = n.toBitVec
  rw [BitVec.ofInt_natCast, BitVec.ofNat_toNat, BitVec.setWidth_eq]

theorem ofValue_soa {server mailbox : DomainName} (serial : UInt32) (refresh retry expire : Int32)
    (minimum : UInt32) (hserver : server.isComplete = true) (hmailbox : mailbox.isComplete = true) :
    ofValue .soa (join " " [server.display, mailbox.display, decimal serial.toNat,
        signedText refresh, signedText retry, signedText expire, decimal minimum.toNat]) = .ok d ↔
      ((server.IsWritable ∧ mailbox.IsWritable) ∧
        server.IsShownAsWritten ∧ mailbox.IsShownAsWritten) ∧
      d = .soa server mailbox serial refresh retry expire minimum := by
  have hwords := words_soa serial refresh retry expire minimum
    ⟨DomainName.isWord_text hserver, DomainName.isWord_text hmailbox⟩
  constructor
  · intro h
    have hascii := forall_toNat_lt_of_ofValue_soa h
    have hshown : server.IsShownAsWritten ∧ mailbox.IsShownAsWritten :=
      ⟨isShownAsWritten_of_subset (toList_subset_join (by simp)) hascii,
        isShownAsWritten_of_subset (toList_subset_join (by simp)) hascii⟩
    rw [ofValue_soa_eq_ok_iff, hwords hshown] at h
    obtain ⟨_, _, _, _, _, _, _, server', mailbox', serial', refresh', retry', expire', minimum', ⟨⟩,
      h₁, h₂, h₃, h₄, h₅, h₆, h₇, rfl⟩ := h
    rw [String.ofList_toList, DomainName.parse_text_eq_ok_iff] at h₁ h₂
    rw [signed64?_decimal] at h₃ h₇
    rw [signed64?_signedText] at h₄ h₅ h₆
    cases h₃
    cases h₄
    cases h₅
    cases h₆
    cases h₇
    refine ⟨⟨⟨h₁.1, h₂.1⟩, hshown⟩, ?_⟩
    rw [h₁.2, h₂.2, toUInt32_ofInt_toNat, toUInt32_ofInt_toNat, Int32.ofInt_toInt,
      Int32.ofInt_toInt, Int32.ofInt_toInt]
  · rintro ⟨⟨hwritable, hshown⟩, rfl⟩
    rw [ofValue_soa_eq_ok_iff, hwords hshown]
    refine ⟨_, _, _, _, _, _, _, server, mailbox, serial.toNat, refresh.toInt, retry.toInt,
      expire.toInt, minimum.toNat, rfl, ?_, ?_, signed64?_decimal _, signed64?_signedText _,
      signed64?_signedText _, signed64?_signedText _, signed64?_decimal _, ?_⟩
    · rw [String.ofList_toList]
      exact DomainName.parse_text_eq_ok_iff.2 ⟨hwritable.1, rfl⟩
    · rw [String.ofList_toList]
      exact DomainName.parse_text_eq_ok_iff.2 ⟨hwritable.2, rfl⟩
    · rw [toUInt32_ofInt_toNat, toUInt32_ofInt_toNat, Int32.ofInt_toInt, Int32.ofInt_toInt,
        Int32.ofInt_toInt]

theorem canonicalValue_of_isNameTarget {type : RecordType} (h : type.isNameTarget = true) :
    ResourceRecord.canonicalValue type value = Name.canonical value :=
  if_pos h

theorem canonicalValue_of_not_isNameTarget {type : RecordType} (h : type.isNameTarget = false) :
    ResourceRecord.canonicalValue type value = value :=
  if_neg (by simp [h])

/-- The value of data that were read is taken for data again exactly when it is writable, and these
are then the same but for the case of names and the division of text into strings. -/
theorem ofValue_eq_ok_iff {data : RecordData} {type : RecordType} (hread : data.IsRead)
    (hvalue : data.value? = some (type, value)) :
    ofValue type (ResourceRecord.canonicalValue type value) = .ok d ↔
      data.IsWritable ∧ d = data.rewritten := by
  have hcomplete := hread.names_complete
  cases data with
  | a address =>
      cases hvalue
      have hwritable : (a address).IsWritable := by simp [IsWritable, names, shownNames]
      show (require .a address.text (Ipv4.ofText? address.text)).map .a = .ok d ↔ _
      rw [Ipv4.ofText?_text, and_iff_right hwritable]
      exact ⟨fun h => (Except.ok.inj h).symm, fun h => h ▸ rfl⟩
  | aaaa address =>
      cases hvalue
      have hwritable : (aaaa address).IsWritable := by simp [IsWritable, names, shownNames]
      show (require .aaaa address.text (Ipv6.ofText? address.text)).map .aaaa = .ok d ↔ _
      rw [Ipv6.ofText?_text, and_iff_right hwritable]
      exact ⟨fun h => (Except.ok.inj h).symm, fun h => h ▸ rfl⟩
  | cname name | ns name | ptr name =>
      obtain ⟨rfl, rfl⟩ := Prod.mk.inj (Option.some.inj hvalue)
      rw [canonicalValue_of_isNameTarget rfl]
      simp only [ofValue_cname, ofValue_ns, ofValue_ptr, map_eq_ok_iff,
        DomainName.parse_canonical_text_eq_ok_iff]
      simp [IsWritable, names, shownNames, rewritten, eq_comm]
  | mx preference exchange =>
      cases hvalue
      rw [canonicalValue_of_not_isNameTarget rfl]
      refine (ofValue_mx preference exchange).trans ?_
      simp [IsWritable, names, shownNames, rewritten]
  | txt strings =>
      cases hvalue
      rw [canonicalValue_of_not_isNameTarget rfl]
      have hwritable : (txt strings).IsWritable := by simp [IsWritable, names, shownNames]
      rw [and_iff_right hwritable]
      exact ⟨fun h => (Except.ok.inj h).symm, fun h => h ▸ rfl⟩
  | soa server mailbox serial refresh retry expire minimum =>
      cases hvalue
      rw [canonicalValue_of_not_isNameTarget rfl]
      refine (ofValue_soa serial refresh retry expire minimum (hcomplete server (by simp [names]))
        (hcomplete mailbox (by simp [names]))).trans ?_
      simp [IsWritable, names, shownNames, rewritten]
  | srv priority weight port target =>
      cases hvalue
      rw [canonicalValue_of_not_isNameTarget rfl]
      refine (ofValue_srv priority weight port (hcomplete target (by simp [names]))).trans ?_
      simp [IsWritable, names, shownNames, rewritten]
  | absent type => cases hvalue
  | other type octets => cases hvalue

/-- Data keep their value when it is read back, names in lower case. -/
theorem exists_value?_rewritten {data : RecordData} {type : RecordType}
    (hvalue : data.value? = some (type, value)) :
    ∃ value', data.rewritten.value? = some (type, value') ∧
      ResourceRecord.canonicalValue type value' = ResourceRecord.canonicalValue type value := by
  cases data with
  | cname name | ns name | ptr name =>
      cases hvalue
      exact ⟨_, rfl, name.canonical_text_lowered⟩
  | txt strings =>
      cases hvalue
      refine ⟨_, rfl, ?_⟩
      simp [Utf8.decodeLossy_encode]
  | a _ | aaaa _ | mx _ _ | soa _ _ _ _ _ _ _ | srv _ _ _ _ | absent _ | other _ _ =>
      exact ⟨value, hvalue, rfl⟩

theorem exists_value? {data : RecordData} {type : RecordType} (hread : data.IsRead)
    (htype : RecordType.ofNumber? data.type = some type) (hdata : data ≠ .absent data.type) :
    ∃ value, data.value? = some (type, value) := by
  cases data with
  | absent number => exact absurd rfl hdata
  | other number octets =>
      have hnone := hread.ofNumber?_eq_none number octets rfl
      exact absurd (hnone.symm.trans htype) nofun
  | a _ | aaaa _ | cname _ | ns _ | ptr _ | mx _ _ | txt _ | soa _ _ _ _ _ _ _ | srv _ _ _ _ =>
      cases htype
      exact ⟨_, rfl⟩

end Values

end RecordData

/-! ### Records -/

namespace WireRecord

/-- A record inside the resolver can be made into a record in wire form again. -/
def IsWritable (w : WireRecord) : Prop :=
  w.owner.IsWritable ∧ w.data.IsWritable

instance (w : WireRecord) : Decidable w.IsWritable :=
  inferInstanceAs (Decidable (_ ∧ _))

/-- What a record becomes on its way through the resolver. -/
def rewritten (w : WireRecord) : WireRecord where
  owner := w.owner.lowered
  ttl := w.ttl
  data := w.data.rewritten

variable {w w' : WireRecord} {r : ResourceRecord}

theorem toWire_eq_ok_iff (hread : w.IsRead) (hr : w.toRecord? = some r) :
    r.toWire = .ok w' ↔ w.IsWritable ∧ w' = w.rewritten := by
  obtain ⟨⟨type, value⟩, hvalue, rfl⟩ := Option.map_eq_some_iff.1 hr
  have hdata : ∀ d, RecordData.ofValue type (ResourceRecord.canonicalValue type value) = .ok d ↔
      w.data.IsWritable ∧ d = w.data.rewritten :=
    fun d => RecordData.ofValue_eq_ok_iff hread.data_isRead hvalue
  unfold ResourceRecord.toWire
  simp only [bind_eq_ok_iff, pure_eq_ok_iff, ResourceRecord.ofClass, hdata,
    DomainName.parse_canonical_text_eq_ok_iff]
  constructor
  · rintro ⟨data, ⟨hwritable, rfl⟩, owner, ⟨howner, rfl⟩, rfl⟩
    exact ⟨⟨howner, hwritable⟩, rfl⟩
  · rintro ⟨⟨howner, hwritable⟩, rfl⟩
    exact ⟨_, ⟨hwritable, rfl⟩, _, ⟨howner, rfl⟩, rfl⟩

theorem toRecord?_rewritten (hclass : w.recordClass = internetClass) (hr : w.toRecord? = some r) :
    w.rewritten.toRecord? = some r := by
  obtain ⟨⟨type, value⟩, hvalue, rfl⟩ := Option.map_eq_some_iff.1 hr
  obtain ⟨value', hvalue', heq⟩ := RecordData.exists_value?_rewritten hvalue
  refine Option.map_eq_some_iff.2 ⟨(type, value'), hvalue', ?_⟩
  simp only [ResourceRecord.ofClass, heq, hclass, rewritten, DomainName.canonical_text_lowered]

/-- Every received record of a type that is understood, with data and of the class of the Internet,
has a form inside the resolver.  It has a wire form again exactly when it is writable, and every
wire form of it is a wire form of the same record. -/
theorem toWire_toRecord? {type : RecordType} (hreceived : w.IsReceived)
    (hclass : w.recordClass = internetClass) (htype : RecordType.ofNumber? w.type = some type)
    (hdata : w.data ≠ .absent w.type) :
    ∃ r, w.toRecord? = some r ∧ ((∃ w', r.toWire = .ok w') ↔ w.IsWritable) ∧
      ∀ w', r.toWire = .ok w' → w'.toRecord? = some r := by
  have hread := hreceived.isRead
  obtain ⟨value, hvalue⟩ := RecordData.exists_value? hread.data_isRead htype hdata
  have hr : w.toRecord? = some _ := Option.map_eq_some_iff.2 ⟨_, hvalue, rfl⟩
  refine ⟨_, hr, ?_, fun w' hw' => ?_⟩
  · refine ⟨fun ⟨w', hw'⟩ => ((toWire_eq_ok_iff hread hr).1 hw').1, fun hwritable => ?_⟩
    exact ⟨w.rewritten, (toWire_eq_ok_iff hread hr).2 ⟨hwritable, rfl⟩⟩
  · rw [((toWire_eq_ok_iff hread hr).1 hw').2]
    exact toRecord?_rewritten hclass hr

/-- A record that says where the mail of `example.com.` goes. -/
def mailRecord : WireRecord where
  owner := .ofTexts ["Example", "com"]
  ttl := 300
  data := .mx 10 (.ofTexts ["Mail", "example", "com"])

theorem isReceived_mailRecord : mailRecord.IsReceived :=
  isReceived_of_isFull ⟨rfl, nofun⟩ nofun (by decide) (by decide)

/-- The theorem at work: the record goes through the resolver. -/
theorem toRecord?_toWire_mailRecord :
    mailRecord.IsReceived ∧ mailRecord.recordClass = internetClass ∧
      RecordType.ofNumber? mailRecord.type = some .mx ∧
      mailRecord.data ≠ .absent mailRecord.type ∧
      ∃ r w', mailRecord.toRecord? = some r ∧ r.toWire = .ok w' ∧ w'.toRecord? = some r := by
  obtain ⟨r, hr, hiff, hback⟩ := toWire_toRecord? isReceived_mailRecord rfl rfl nofun
  obtain ⟨w', hw'⟩ := hiff.2 (by decide)
  exact ⟨isReceived_mailRecord, rfl, rfl, nofun, r, w', hr, hw', hback w' hw'⟩

/-- A pointer to a name with an exclamation mark. -/
def markedRecord : WireRecord where
  owner := .ofTexts ["1", "2", "0", "192", "in-addr", "arpa"]
  ttl := 300
  data := .ptr (.ofTexts ["a!b", "test"])

theorem isReceived_markedRecord : markedRecord.IsReceived :=
  isReceived_of_isFull ⟨rfl, nofun⟩ nofun (by decide) (by decide)

/-- Not every received record has a wire form again. -/
theorem not_toWire_markedRecord :
    ¬ ∀ (w : WireRecord) (type : RecordType), w.IsReceived → w.recordClass = internetClass →
        RecordType.ofNumber? w.type = some type → w.data ≠ .absent w.type →
        ∃ r w', w.toRecord? = some r ∧ r.toWire = .ok w' ∧ w'.toRecord? = some r := by
  intro hclaim
  obtain ⟨r, w', hr, hw', -⟩ := hclaim markedRecord .ptr isReceived_markedRecord rfl rfl nofun
  have hwritable := ((toWire_eq_ok_iff isReceived_markedRecord.isRead hr).1 hw').1
  exact absurd hwritable (by decide)

end WireRecord

end CachingResolver
