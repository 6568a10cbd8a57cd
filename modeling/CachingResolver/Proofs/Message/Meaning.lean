import CachingResolver.Proofs.Message.Record

/-!
# What values mean on their way through the wire form

A value is a sequence of parts, which its type tells: addresses, names, texts and numbers, each
number in a field of some width.  `RecordType.meaning?` reads a value so, with names up to case and
numbers as the integers that they write, in range of their fields or not.

A record that has a wire form, and is made into a record inside the resolver again, keeps its owner,
its time to live and its type.  Its value means what it meant exactly when every number is in range
and every displayed name is displayed as it is written (`ResourceRecord.toWire_keeps_meaning_iff`).
Numbers out of range are refused everywhere but in the data of the start of a zone of authority.
There they wrap around (`ResourceRecord.toWire_wraps`).
-/

namespace CachingResolver

open CachingResolver.Text

/-! ### Fields for numbers -/

/-- The width of a field for numbers. -/
inductive Width where
  | word16
  | word32
  -- With a sign.
  | signed32
  deriving DecidableEq, Repr

namespace Width

def least : Width → Int
  | word16 | word32 => 0
  | signed32 => -2147483648

/-- How many numbers a field tells apart. -/
def count : Width → Int
  | word16 => 65536
  | word32 | signed32 => 4294967296

/-- A number is in the range of a field. -/
def Holds (w : Width) (n : Int) : Prop :=
  w.least ≤ n ∧ n < w.least + w.count

instance (w : Width) (n : Int) : Decidable (w.Holds n) :=
  inferInstanceAs (Decidable (_ ∧ _))

/-- The number that a field holds in place of a number, which is the same up to multiples of
`count`. -/
def wrap (w : Width) (n : Int) : Int :=
  (n - w.least) % w.count + w.least

theorem wrap_eq_self_iff {w : Width} {n : Int} : w.wrap n = n ↔ w.Holds n := by
  cases w <;> simp only [wrap, Holds, least, count] <;> omega

theorem wrap_word32 (n : Int) : ((Int32.ofInt n).toUInt32.toNat : Int) = word32.wrap n := by
  show ((BitVec.ofInt 32 n).toNat : Int) = _
  rw [BitVec.toNat_ofInt]
  simp only [wrap, least, count]
  omega

theorem wrap_signed32 (n : Int) : (Int32.ofInt n).toInt = signed32.wrap n := by
  rw [Int32.toInt_ofInt, show Int32.size = 2 ^ 32 from rfl]
  simp only [wrap, least, count]
  unfold Int.bmod
  dsimp only
  omega

theorem holds_word16 (n : UInt16) : word16.Holds n.toNat := by
  have hlt := n.toNat_lt
  simp only [Holds, least, count]
  omega

end Width

/-! ### Parts of values -/

/-- What a part of a value says. -/
inductive Part where
  | v4 (address : Ipv4)
  | v6 (address : Ipv6)
  -- The labels of a name, in lower case.
  | name (labels : List (List UInt8))
  | text (s : String)
  | number (width : Width) (n : Int)
  deriving DecidableEq, Repr

namespace Part

/-- A number is in the range of its field. -/
def Fits : Part → Prop
  | number width n => width.Holds n
  | _ => True

instance : (p : Part) → Decidable p.Fits
  | number width n => inferInstanceAs (Decidable (width.Holds n))
  | v4 _ | v6 _ | name _ | text _ => inferInstanceAs (Decidable True)

def wrapped : Part → Part
  | number width n => number width (width.wrap n)
  | p => p

theorem wrapped_eq_self_iff {p : Part} : p.wrapped = p ↔ p.Fits := by
  cases p with
  | number width n => simp [wrapped, Fits, Width.wrap_eq_self_iff]
  | v4 _ | v6 _ | name _ | text _ => exact iff_of_true rfl trivial

theorem map_wrapped_eq_self_iff {parts : List Part} :
    parts.map wrapped = parts ↔ ∀ p ∈ parts, p.Fits := by
  induction parts with
  | nil => simp
  | cons p parts ih =>
      rw [List.map_cons, List.cons_eq_cons, wrapped_eq_self_iff, ih, List.forall_mem_cons]

/-- What a part is to say. -/
inductive Kind where
  | v4
  | v6
  | name
  | text
  | number (width : Width)
  deriving DecidableEq, Repr

/-- The part that some characters write. -/
def ofChars? : Kind → List Char → Option Part
  | .v4, cs => (Ipv4.ofText? (String.ofList cs)).map v4
  | .v6, cs => (Ipv6.ofText? (String.ofList cs)).map v6
  | .name, cs => (DomainName.ofChars? cs).map fun n => name n.folded
  | .text, cs => some (text (String.ofList cs))
  | .number width, cs => (integer? cs).map (number width)

/-- The parts that pieces of a text write, one each. -/
def ofPieces? : List Kind → List (List Char) → Option (List Part)
  | [], [] => some []
  | kind :: kinds, piece :: pieces => do
    let part ← ofChars? kind piece
    let parts ← ofPieces? kinds pieces
    return part :: parts
  | _, _ => none

variable {kind : Kind} {kinds : List Kind} {piece : List Char} {pieces : List (List Char)}
  {p : Part} {parts : List Part}

theorem ofPieces?_cons (hp : ofChars? kind piece = some p)
    (hparts : ofPieces? kinds pieces = some parts) :
    ofPieces? (kind :: kinds) (piece :: pieces) = some (p :: parts) := by
  rw [ofPieces?, hp, hparts]
  rfl

end Part

namespace RecordType

/-- What the parts of a value say. -/
def kinds : RecordType → List Part.Kind
  | a => [.v4]
  | aaaa => [.v6]
  | cname | ns | ptr => [.name]
  | mx => [.number .word16, .name]
  | txt => [.text]
  | soa => [.name, .name, .number .word32, .number .signed32, .number .signed32, .number .signed32,
      .number .word32]
  | srv => [.number .word16, .number .word16, .number .word16, .name]

/-- The pieces of a value. -/
def pieces? (type : RecordType) (value : String) : Option (List (List Char)) :=
  match type with
  | mx => (splitOnce ' ' value.toList).map fun (left, right) => [left, right]
  | soa | srv => some (words value.toList)
  | _ => some [value.toList]

/-- What a value means: the parts that it writes, in order. -/
def meaning? (type : RecordType) (value : String) : Option (List Part) :=
  (type.pieces? value).bind (Part.ofPieces? type.kinds)

end RecordType

/-- What data mean. -/
def RecordData.parts : RecordData → List Part
  | .a address => [.v4 address]
  | .aaaa address => [.v6 address]
  | .cname target => [.name target.folded]
  | .ns server => [.name server.folded]
  | .ptr target => [.name target.folded]
  | .mx preference exchange => [.number .word16 preference.toNat, .name exchange.folded]
  | .txt strings => [.text (String.ofList (strings.flatMap Utf8.decodeLossy))]
  | .soa server mailbox serial refresh retry expire minimum =>
    [.name server.folded, .name mailbox.folded, .number .word32 serial.toNat,
      .number .signed32 refresh.toInt, .number .signed32 retry.toInt, .number .signed32 expire.toInt,
      .number .word32 minimum.toNat]
  | .srv priority weight port target =>
    [.number .word16 priority.toNat, .number .word16 weight.toNat, .number .word16 port.toNat,
      .name target.folded]
  | .absent _ | .other _ _ => []

/-! ### Values that are taken for data -/

namespace Part

variable {cs : List Char}

theorem ofChars?_of_word16? {n : UInt16} (h : word16? cs = some n) :
    ofChars? (.number .word16) cs = some (number .word16 n.toNat) := by
  rw [ofChars?, integer?_of_word16? h]
  rfl

theorem ofChars?_of_signed64? (width : Width) {n : Int} (h : signed64? cs = some n) :
    ofChars? (.number width) cs = some (number width n) := by
  rw [ofChars?, integer?_of_signed64? h]
  rfl

theorem ofChars?_of_name {n : DomainName} (h : DomainName.ofChars? cs = some n) :
    ofChars? .name cs = some (name n.folded) := by
  rw [ofChars?, h]
  rfl

end Part

namespace RecordData

/-- What is known of data that a value of a type is taken for. -/
structure IsTakenFor (d : RecordData) (type : RecordType) (value : String) : Prop where
  -- The value has a meaning, in range for all types but one, and the data mean the same up to wrapped
  -- numbers.
  meaning : ∃ parts, type.meaning? value = some parts ∧
    (type ≠ .soa → ∀ p ∈ parts, p.Fits) ∧ d.parts = parts.map Part.wrapped
  hasValue : ∃ value', d.value? = some (type, value')
  names_writable : ∀ n ∈ d.names, n.IsWritable
  -- A displayed name is not the empty text.
  shown_ne_nil : ∀ n ∈ d.shownNames, n.charsWith DomainName.labelChars ≠ []

section Taken

variable {d : RecordData} {type : RecordType} {value : String} {cs : List Char} {n : DomainName}

theorem ofChars?_of_parse (h : DomainName.parse (String.ofList cs) = .ok n) :
    DomainName.ofChars? cs = some n := by
  have hread := DomainName.parse_eq_ok_iff.1 h
  rwa [DomainName.ofText?, String.toList_ofList] at hread

theorem meaning?_of_pieces? {pieces : List (List Char)} {parts : List Part}
    (hpieces : type.pieces? value = some pieces)
    (hparts : Part.ofPieces? type.kinds pieces = some parts) :
    type.meaning? value = some parts := by
  rw [RecordType.meaning?, hpieces, Option.bind_some, hparts]

/-- In range, what the data mean is what the value means. -/
theorem exists_meaning_of_fits (hmeaning : type.meaning? value = some d.parts)
    (hfits : ∀ p ∈ d.parts, p.Fits) :
    ∃ parts, type.meaning? value = some parts ∧ (type ≠ .soa → ∀ p ∈ parts, p.Fits) ∧
      d.parts = parts.map Part.wrapped :=
  ⟨d.parts, hmeaning, fun _ => hfits, (Part.map_wrapped_eq_self_iff.2 hfits).symm⟩

theorem isTakenFor_of_name {make : DomainName → RecordData} (hread : DomainName.parse value = .ok n)
    (htype : type.isNameTarget = true) (hparts : (make n).parts = [.name n.folded])
    (hvalue : (make n).value? = some (type, n.text)) (hnames : (make n).names = [n])
    (hshown : (make n).shownNames = []) : (make n).IsTakenFor type value := by
  have hn : DomainName.ofChars? value.toList = some n := DomainName.parse_eq_ok_iff.1 hread
  have hmeaning : type.meaning? value = some [.name n.folded] := by
    cases type with
    | cname | ns | ptr =>
        exact meaning?_of_pieces? rfl (Part.ofPieces?_cons (Part.ofChars?_of_name hn) rfl)
    | _ => cases htype
  refine ⟨exists_meaning_of_fits (hparts ▸ hmeaning) ?_, ⟨_, hvalue⟩, ?_, ?_⟩
  · rw [hparts]
    exact List.forall_mem_singleton.2 trivial
  · rw [hnames]
    exact List.forall_mem_singleton.2 (DomainName.isWritable_of_ofChars? hn)
  · rw [hshown]
    exact nofun

theorem isTakenFor_mx (h : ofValue .mx value = .ok d) : d.IsTakenFor .mx value := by
  obtain ⟨p, e, preference, exchange, hsplit, hp, he, rfl⟩ := ofValue_mx_eq_ok_iff.1 h
  have hname := ofChars?_of_parse he
  have hpieces : RecordType.mx.pieces? value = some [p, e] := by
    rw [RecordType.pieces?, hsplit]
    rfl
  refine ⟨exists_meaning_of_fits ?_ ?_, ⟨_, rfl⟩, ?_, nofun⟩
  · refine meaning?_of_pieces? hpieces ?_
    exact Part.ofPieces?_cons (Part.ofChars?_of_word16? hp)
      (Part.ofPieces?_cons (Part.ofChars?_of_name hname) rfl)
  · exact List.forall_mem_cons.2
      ⟨Width.holds_word16 preference, List.forall_mem_singleton.2 trivial⟩
  · exact List.forall_mem_singleton.2 (DomainName.isWritable_of_ofChars? hname)

theorem isTakenFor_txt (h : ofValue .txt value = .ok d) : d.IsTakenFor .txt value := by
  obtain rfl := Except.ok.inj h
  have hparts : parts (.txt [Utf8.encode value]) = [.text value] := by
    simp [parts, Utf8.decodeLossy_encode]
  refine ⟨exists_meaning_of_fits ?_ ?_, ⟨_, rfl⟩, nofun, nofun⟩
  · rw [hparts]
    refine meaning?_of_pieces? rfl (Part.ofPieces?_cons ?_ rfl)
    rw [Part.ofChars?, String.ofList_toList]
  · rw [hparts]
    exact List.forall_mem_singleton.2 trivial

/-- A word that is read as a name gives a name that is not the empty text. -/
theorem charsWith_ne_nil_of_mem_words {cs w : List Char} (hw : w ∈ words cs)
    (h : DomainName.ofChars? w = some n) : n.charsWith DomainName.labelChars ≠ [] :=
  DomainName.charsWith_ne_nil_of_ofChars? h (ne_nil_of_mem_words hw)

theorem isTakenFor_srv (h : ofValue .srv value = .ok d) : d.IsTakenFor .srv value := by
  obtain ⟨w₁, w₂, w₃, w₄, priority, weight, port, target, hwords, h₁, h₂, h₃, h₄, rfl⟩ :=
    ofValue_srv_eq_ok_iff.1 h
  have hname := ofChars?_of_parse h₄
  have hmem : w₄ ∈ words value.toList := by simp [hwords]
  refine ⟨exists_meaning_of_fits ?_ ?_, ⟨_, rfl⟩, ?_, ?_⟩
  · refine meaning?_of_pieces? (congrArg some hwords) ?_
    exact Part.ofPieces?_cons (Part.ofChars?_of_word16? h₁)
      (Part.ofPieces?_cons (Part.ofChars?_of_word16? h₂)
        (Part.ofPieces?_cons (Part.ofChars?_of_word16? h₃)
          (Part.ofPieces?_cons (Part.ofChars?_of_name hname) rfl)))
  · exact List.forall_mem_cons.2 ⟨Width.holds_word16 priority,
      List.forall_mem_cons.2 ⟨Width.holds_word16 weight,
        List.forall_mem_cons.2 ⟨Width.holds_word16 port, List.forall_mem_singleton.2 trivial⟩⟩⟩
  · exact List.forall_mem_singleton.2 (DomainName.isWritable_of_ofChars? hname)
  · exact List.forall_mem_singleton.2 (charsWith_ne_nil_of_mem_words hmem hname)

/-- The numbers of the start of a zone are read as they are, and are kept as their fields hold
them. -/
theorem isTakenFor_soa (h : ofValue .soa value = .ok d) : d.IsTakenFor .soa value := by
  obtain ⟨w₁, w₂, w₃, w₄, w₅, w₆, w₇, server, mailbox, serial, refresh, retry, expire, minimum,
    hwords, h₁, h₂, h₃, h₄, h₅, h₆, h₇, rfl⟩ := ofValue_soa_eq_ok_iff.1 h
  have hserver := ofChars?_of_parse h₁
  have hmailbox := ofChars?_of_parse h₂
  have hmem₁ : w₁ ∈ words value.toList := by simp [hwords]
  have hmem₂ : w₂ ∈ words value.toList := by simp [hwords]
  refine ⟨?_, ⟨_, rfl⟩, ?_, ?_⟩
  · refine ⟨[.name server.folded, .name mailbox.folded, .number .word32 serial,
      .number .signed32 refresh, .number .signed32 retry, .number .signed32 expire,
      .number .word32 minimum], ?_, fun hne => absurd rfl hne, ?_⟩
    · refine meaning?_of_pieces? (congrArg some hwords) ?_
      exact Part.ofPieces?_cons (Part.ofChars?_of_name hserver)
        (Part.ofPieces?_cons (Part.ofChars?_of_name hmailbox)
          (Part.ofPieces?_cons (Part.ofChars?_of_signed64? _ h₃)
            (Part.ofPieces?_cons (Part.ofChars?_of_signed64? _ h₄)
              (Part.ofPieces?_cons (Part.ofChars?_of_signed64? _ h₅)
                (Part.ofPieces?_cons (Part.ofChars?_of_signed64? _ h₆)
                  (Part.ofPieces?_cons (Part.ofChars?_of_signed64? _ h₇) rfl))))))
    · simp only [parts, List.map_cons, List.map_nil, Part.wrapped, Width.wrap_word32,
        Width.wrap_signed32]
  · exact List.forall_mem_cons.2 ⟨DomainName.isWritable_of_ofChars? hserver,
      List.forall_mem_singleton.2 (DomainName.isWritable_of_ofChars? hmailbox)⟩
  · exact List.forall_mem_cons.2 ⟨charsWith_ne_nil_of_mem_words hmem₁ hserver,
      List.forall_mem_singleton.2 (charsWith_ne_nil_of_mem_words hmem₂ hmailbox)⟩

theorem isTakenFor_of_ofValue (h : ofValue type value = .ok d) : d.IsTakenFor type value := by
  cases type with
  | a | aaaa =>
      obtain ⟨address, hread, rfl⟩ := map_eq_ok_iff.1 h
      have haddress := require_eq_ok_iff.1 hread
      refine ⟨exists_meaning_of_fits ?_ (List.forall_mem_singleton.2 trivial), ⟨_, rfl⟩, nofun,
        nofun⟩
      refine meaning?_of_pieces? rfl (Part.ofPieces?_cons ?_ rfl)
      rw [Part.ofChars?, String.ofList_toList, haddress]
      rfl
  | cname | ns | ptr =>
      obtain ⟨name, hread, rfl⟩ := map_eq_ok_iff.1 h
      exact isTakenFor_of_name hread rfl rfl rfl rfl rfl
  | mx => exact isTakenFor_mx h
  | txt => exact isTakenFor_txt h
  | soa => exact isTakenFor_soa h
  | srv => exact isTakenFor_srv h

end Taken

end RecordData

/-! ### Values that are read back -/

namespace DomainName

theorem folded_lowered (n : DomainName) : n.lowered.folded = n.folded := by
  have hfold (b : UInt8) : foldOctet (foldOctet b) = foldOctet b := by
    rw [← UInt8.toNat_inj, toNat_foldOctet, toNat_foldOctet]
    by_cases hb : 65 ≤ b.toNat ∧ b.toNat ≤ 90
    · rw [if_pos hb, if_neg (by omega)]
    · rw [if_neg hb, if_neg hb]
  show foldLabels (foldLabels n.labels) = foldLabels n.labels
  unfold foldLabels
  simp [hfold]

end DomainName

namespace Part

variable {kinds : List Kind} {pieces : List (List Char)} {parts : List Part}

theorem ofChars?_text {n : DomainName} (h : n.IsWritable) :
    ofChars? .name n.text.toList = some (name n.folded) := by
  have hread := DomainName.ofText?_text n
  rw [if_pos h] at hread
  exact ofChars?_of_name hread

theorem ofChars?_canonical_text {n : DomainName} (h : n.IsWritable) :
    ofChars? .name (Name.canonical n.text).toList = some (name n.folded) := by
  rw [← DomainName.text_lowered, ofChars?_text (n.isWritable_lowered_iff.2 h),
    DomainName.folded_lowered]

theorem ofChars?_decimal (width : Width) (n : Nat) :
    ofChars? (.number width) (decimal n).toList = some (number width n) := by
  rw [ofChars?, integer?_decimal]
  rfl

theorem ofChars?_signedText (width : Width) (n : Int32) :
    ofChars? (.number width) (signedText n).toList = some (number width n.toInt) := by
  rw [ofChars?, signedText, integer?_signedDecimal]
  rfl

/-- Names and numbers are read from ASCII alone. -/
theorem forall_toNat_lt_of_ofPieces?
    (hkinds : ∀ kind ∈ kinds, kind = .name ∨ ∃ width, kind = .number width)
    (h : ofPieces? kinds pieces = some parts) :
    ∀ piece ∈ pieces, ∀ c ∈ piece, c.toNat < 128 := by
  induction kinds generalizing pieces parts with
  | nil =>
      cases pieces with
      | nil => exact nofun
      | cons piece pieces => cases h
  | cons kind kinds ih =>
      cases pieces with
      | nil => exact nofun
      | cons piece pieces =>
          obtain ⟨hkind, hmore⟩ := List.forall_mem_cons.1 hkinds
          obtain ⟨p, hp, h⟩ := Option.bind_eq_some_iff.1 h
          obtain ⟨ps, hps, -⟩ := Option.bind_eq_some_iff.1 h
          refine List.forall_mem_cons.2 ⟨?_, ih hmore hps⟩
          rcases hkind with rfl | ⟨width, rfl⟩
          · obtain ⟨n, hn, -⟩ := Option.map_eq_some_iff.1 hp
            exact DomainName.forall_toNat_lt_of_ofChars? hn
          · obtain ⟨n, hn, -⟩ := Option.map_eq_some_iff.1 hp
            exact forall_toNat_lt_of_integer? hn

end Part

namespace RecordData

section Back

variable {d : RecordData} {type : RecordType} {value : String}

/-- When words that are names and numbers mean something, the names among them that are displayed
are displayed as they are written. -/
theorem isShownAsWritten_of_meaning? (htype : type = .soa ∨ type = .srv) {ss : List String}
    {parts : List Part} (h : type.meaning? (join " " ss) = some parts) {n : DomainName}
    (hmem : n.display ∈ ss) : n.IsShownAsWritten := by
  obtain ⟨pieces, hpieces, hparts⟩ := Option.bind_eq_some_iff.1 h
  have hwords : words (join " " ss).toList = pieces := by
    rcases htype with rfl | rfl <;> exact Option.some.inj hpieces
  have hkinds : ∀ kind ∈ type.kinds, kind = .name ∨ ∃ width, kind = .number width := by
    rcases htype with rfl | rfl <;> simp [RecordType.kinds]
  have hascii := Part.forall_toNat_lt_of_ofPieces? hkinds hparts
  refine isShownAsWritten_of_subset (toList_subset_join hmem) fun c hc hblank => ?_
  obtain ⟨w, hw, hc⟩ := exists_mem_words hc hblank
  exact hascii w (hwords ▸ hw) c hc

variable {priority weight port : UInt16} {target : DomainName} {server mailbox : DomainName}
  {serial minimum : UInt32} {refresh retry expire : Int32}

theorem meaning?_srv (hwritable : target.IsWritable)
    (hne : target.charsWith DomainName.labelChars ≠ []) :
    RecordType.srv.meaning? (join " " [decimal priority.toNat, decimal weight.toNat,
        decimal port.toNat, target.display]) =
      if target.IsShownAsWritten then some (parts (.srv priority weight port target))
      else none := by
  split
  · rename_i hshown
    have hwords := words_srv priority weight port (DomainName.isWord_text_of_ne_nil hne) hshown
    refine meaning?_of_pieces? (congrArg some hwords) ?_
    exact Part.ofPieces?_cons (Part.ofChars?_decimal _ _)
      (Part.ofPieces?_cons (Part.ofChars?_decimal _ _)
        (Part.ofPieces?_cons (Part.ofChars?_decimal _ _)
          (Part.ofPieces?_cons (Part.ofChars?_text hwritable) rfl)))
  · rename_i hshown
    exact Option.eq_none_iff_forall_ne_some.2 fun parts h =>
      hshown (isShownAsWritten_of_meaning? (.inr rfl) h (by simp))

theorem meaning?_soa (hwritable : server.IsWritable ∧ mailbox.IsWritable)
    (hne : server.charsWith DomainName.labelChars ≠ [] ∧
      mailbox.charsWith DomainName.labelChars ≠ []) :
    RecordType.soa.meaning? (join " " [server.display, mailbox.display, decimal serial.toNat,
        signedText refresh, signedText retry, signedText expire, decimal minimum.toNat]) =
      if server.IsShownAsWritten ∧ mailbox.IsShownAsWritten then
        some (parts (.soa server mailbox serial refresh retry expire minimum))
      else none := by
  split
  · rename_i hshown
    have hwords := words_soa serial refresh retry expire minimum
      ⟨DomainName.isWord_text_of_ne_nil hne.1, DomainName.isWord_text_of_ne_nil hne.2⟩ hshown
    refine meaning?_of_pieces? (congrArg some hwords) ?_
    exact Part.ofPieces?_cons (Part.ofChars?_text hwritable.1)
      (Part.ofPieces?_cons (Part.ofChars?_text hwritable.2)
        (Part.ofPieces?_cons (Part.ofChars?_decimal _ _)
          (Part.ofPieces?_cons (Part.ofChars?_signedText _ _)
            (Part.ofPieces?_cons (Part.ofChars?_signedText _ _)
              (Part.ofPieces?_cons (Part.ofChars?_signedText _ _)
                (Part.ofPieces?_cons (Part.ofChars?_decimal _ _) rfl))))))
  · rename_i hshown
    exact Option.eq_none_iff_forall_ne_some.2 fun parts h =>
      hshown ⟨isShownAsWritten_of_meaning? (.inl rfl) h (by simp),
        isShownAsWritten_of_meaning? (.inl rfl) h (by simp)⟩

theorem meaning?_mx (preference : UInt16) {exchange : DomainName}
    (hwritable : exchange.IsWritable) :
    RecordType.mx.meaning? (join " " [decimal preference.toNat, exchange.text]) =
      some (parts (.mx preference exchange)) := by
  have hpieces : RecordType.mx.pieces? (join " " [decimal preference.toNat, exchange.text]) =
      some [(decimal preference.toNat).toList, exchange.text.toList] := by
    rw [RecordType.pieces?, splitOnce_mx]
    rfl
  refine meaning?_of_pieces? hpieces ?_
  exact Part.ofPieces?_cons (Part.ofChars?_decimal _ _)
    (Part.ofPieces?_cons (Part.ofChars?_text hwritable) rfl)

/-- The value of data means what the data mean, as long as the names that it holds as they are
displayed are displayed as they are written.  Else it means nothing. -/
theorem IsTakenFor.meaning?_value (htaken : d.IsTakenFor type value) {value' : String}
    (hvalue : d.value? = some (type, value')) :
    type.meaning? (ResourceRecord.canonicalValue type value') =
      if ∀ n ∈ d.shownNames, n.IsShownAsWritten then some d.parts else none := by
  have hnames := htaken.names_writable
  have hne := htaken.shown_ne_nil
  cases d with
  | a address =>
      cases hvalue
      rw [if_pos (by simp [shownNames]), canonicalValue_of_not_isNameTarget rfl]
      refine meaning?_of_pieces? rfl (Part.ofPieces?_cons ?_ rfl)
      rw [Part.ofChars?, String.ofList_toList, Ipv4.ofText?_text]
      rfl
  | aaaa address =>
      cases hvalue
      rw [if_pos (by simp [shownNames]), canonicalValue_of_not_isNameTarget rfl]
      refine meaning?_of_pieces? rfl (Part.ofPieces?_cons ?_ rfl)
      rw [Part.ofChars?, String.ofList_toList, Ipv6.ofText?_text]
      rfl
  | cname name | ns name | ptr name =>
      cases hvalue
      rw [if_pos (by simp [shownNames]), canonicalValue_of_isNameTarget rfl]
      have hwritable : name.IsWritable := hnames name (by simp [names])
      exact meaning?_of_pieces? rfl
        (Part.ofPieces?_cons (Part.ofChars?_canonical_text hwritable) rfl)
  | mx preference exchange =>
      cases hvalue
      rw [if_pos (by simp [shownNames]), canonicalValue_of_not_isNameTarget rfl]
      exact meaning?_mx preference (hnames exchange (by simp [names]))
  | txt strings =>
      cases hvalue
      rw [if_pos (by simp [shownNames]), canonicalValue_of_not_isNameTarget rfl]
      refine meaning?_of_pieces? rfl (Part.ofPieces?_cons ?_ rfl)
      rw [Part.ofChars?, String.ofList_toList]
  | soa server mailbox serial refresh retry expire minimum =>
      cases hvalue
      rw [canonicalValue_of_not_isNameTarget rfl]
      simp only [names, shownNames, List.forall_mem_cons] at hnames hne ⊢
      rw [meaning?_soa ⟨hnames.1, hnames.2.1⟩ ⟨hne.1, hne.2.1⟩]
      simp
  | srv priority weight port target =>
      cases hvalue
      rw [canonicalValue_of_not_isNameTarget rfl]
      simp only [names, shownNames, List.forall_mem_cons] at hnames hne ⊢
      rw [meaning?_srv hnames.1 hne.1]
      simp
  | absent type => cases hvalue
  | other type octets => cases hvalue

end Back

end RecordData

/-! ### Records -/

/-- Two texts write the same name, up to case and a dot at the end. -/
def DomainName.AreSame (s t : String) : Prop :=
  ∃ m n, ofText? s = some m ∧ ofText? t = some n ∧ m.folded = n.folded

namespace ResourceRecord

variable {r : ResourceRecord} {w : WireRecord}

theorem ttl_ofClass (recordClass name : String) (ttl : UInt32) (type : RecordType)
    (value : String) : (ofClass recordClass name ttl type value).ttl = ttl := rfl

theorem type_ofClass (recordClass name : String) (ttl : UInt32) (type : RecordType)
    (value : String) : (ofClass recordClass name ttl type value).type = type := rfl

theorem toWire_eq_ok_iff : r.toWire = .ok w ↔
    ∃ data owner, RecordData.ofValue r.type r.value = .ok data ∧
      DomainName.ofText? r.name = some owner ∧ w = { owner, ttl := r.ttl, data } := by
  unfold toWire
  simp only [bind_eq_ok_iff, pure_eq_ok_iff, DomainName.parse_eq_ok_iff]
  constructor
  · rintro ⟨data, hdata, owner, howner, rfl⟩
    exact ⟨data, owner, hdata, howner, rfl⟩
  · rintro ⟨data, owner, hdata, howner, rfl⟩
    exact ⟨data, hdata, owner, howner, rfl⟩

/-- The owner of a record is the same name after it has been in wire form, and the same text when
there was no escape in it. -/
theorem owner_of_ofText? {name : String} {owner : DomainName}
    (h : DomainName.ofText? name = some owner) :
    DomainName.AreSame (Name.canonical owner.text) name ∧
      ('\\' ∉ name.toList → Name.canonical owner.text = Name.canonical name) := by
  have hwritable := DomainName.isWritable_of_ofChars? h
  refine ⟨⟨owner.lowered, owner, ?_, h, owner.folded_lowered⟩, fun hback => ?_⟩
  · rw [← DomainName.text_lowered, DomainName.ofText?_text,
      if_pos (owner.isWritable_lowered_iff.2 hwritable)]
  · rw [DomainName.text, DomainName.charsWith_of_not_mem h hback, String.ofList_toList]

/-- What a record becomes that is made into wire form and back.  Its numbers are wrapped, and its
value has no meaning at all when it holds a name that is displayed in another way. -/
theorem toWire_wraps (h : r.toWire = .ok w) :
    ∃ r' parts, w.toRecord? = some r' ∧ r'.ttl = r.ttl ∧ r'.type = r.type ∧
      r'.recordClass = "IN" ∧ DomainName.AreSame r'.name r.name ∧
      ('\\' ∉ r.name.toList → r'.name = Name.canonical r.name) ∧
      r.type.meaning? r.value = some parts ∧ (r.type ≠ .soa → ∀ p ∈ parts, p.Fits) ∧
      r.type.meaning? r'.value =
        if ∀ n ∈ w.data.shownNames, n.IsShownAsWritten then some (parts.map Part.wrapped)
        else none := by
  obtain ⟨data, owner, hdata, howner, rfl⟩ := toWire_eq_ok_iff.1 h
  have htaken := RecordData.isTakenFor_of_ofValue hdata
  obtain ⟨parts, hmeaning, hfits, hparts⟩ := htaken.meaning
  obtain ⟨value', hvalue⟩ := htaken.hasValue
  obtain ⟨hsame, htext⟩ := owner_of_ofText? howner
  have hr : ({ owner, ttl := r.ttl, data } : WireRecord).toRecord? =
      some (.ofClass (classText internetClass) owner.text r.ttl r.type value') :=
    Option.map_eq_some_iff.2 ⟨_, hvalue, rfl⟩
  have hclass : String.ofList ((classText internetClass).toList.map Char.toUpper) = "IN" := by
    decide +kernel
  refine ⟨_, parts, hr, ttl_ofClass .., type_ofClass .., hclass, hsame, htext, hmeaning, hfits, ?_⟩
  rw [← hparts]
  exact htaken.meaning?_value hvalue

/-- A record that has a wire form keeps its owner, its time to live and its type on the way there
and back.  Its value keeps its meaning exactly when each number is in the range of its field, as it
must be for every type but one, and the names that are displayed are displayed as they are
written. -/
theorem toWire_keeps_meaning_iff (h : r.toWire = .ok w) :
    ∃ r' parts, w.toRecord? = some r' ∧ r'.ttl = r.ttl ∧ r'.type = r.type ∧
      r'.recordClass = "IN" ∧ DomainName.AreSame r'.name r.name ∧
      ('\\' ∉ r.name.toList → r'.name = Name.canonical r.name) ∧
      r.type.meaning? r.value = some parts ∧ (r.type ≠ .soa → ∀ p ∈ parts, p.Fits) ∧
      (r.type.meaning? r'.value = some parts ↔
        (∀ p ∈ parts, p.Fits) ∧ ∀ n ∈ w.data.shownNames, n.IsShownAsWritten) := by
  obtain ⟨r', parts, hr', httl, htype, hclass, hsame, htext, hmeaning, hfits, hback⟩ :=
    toWire_wraps h
  refine ⟨r', parts, hr', httl, htype, hclass, hsame, htext, hmeaning, hfits, ?_⟩
  rw [hback, ← Part.map_wrapped_eq_self_iff]
  split
  · rename_i hshown
    rw [Option.some.injEq, and_iff_left hshown]
  · rename_i hshown
    exact iff_of_false nofun fun hkept => hshown hkept.2

/-- The start of a zone, with a serial number of its own. -/
def zoneStart (serial : String) : ResourceRecord :=
  .make "Example.com" 300 .soa
    ("ns.example.com. admin.example.com. " ++ serial ++ " -2147483648 2147483647 1209600 0")

/-- The start of a zone in wire form. -/
def zoneStartData (serial : UInt32) : WireRecord where
  owner := .ofTexts ["example", "com"]
  ttl := 300
  data := .soa (.ofTexts ["ns", "example", "com"]) (.ofTexts ["admin", "example", "com"]) serial
    (-2147483648) 2147483647 1209600 0

/-- The theorem at work: the greatest serial number is kept, and the least and the greatest time. -/
theorem toWire_keeps_meaning_zoneStart :
    (zoneStart "4294967295").toWire = .ok (zoneStartData 4294967295) ∧
      ∃ r', (zoneStartData 4294967295).toRecord? = some r' ∧
        RecordType.soa.meaning? r'.value =
          RecordType.soa.meaning? (zoneStart "4294967295").value := by
  have hwire : (zoneStart "4294967295").toWire = .ok (zoneStartData 4294967295) := by
    decide +kernel
  obtain ⟨r', parts, hr', -, -, -, -, -, hmeaning, -, hiff⟩ := toWire_keeps_meaning_iff hwire
  have hparts : RecordType.soa.meaning? (zoneStart "4294967295").value =
      some (zoneStartData 4294967295).data.parts := by decide +kernel
  obtain rfl := Option.some.inj (hmeaning.symm.trans hparts)
  exact ⟨hwire, r', hr', (hiff.2 ⟨by decide, by decide +kernel⟩).trans hmeaning.symm⟩

/-- Not every value that is taken keeps its meaning: a serial number that is too great by one
becomes zero. -/
theorem not_toWire_keeps_meaning :
    ¬ ∀ (r : ResourceRecord) (w : WireRecord), r.recordClass = "IN" → r.toWire = .ok w →
        ∃ r', w.toRecord? = some r' ∧ r.type.meaning? r'.value = r.type.meaning? r.value := by
  intro hclaim
  have hwire : (zoneStart "4294967296").toWire = .ok (zoneStartData 0) := by decide +kernel
  obtain ⟨r', hr', hkept⟩ := hclaim _ _ (by decide +kernel) hwire
  have hzero : (zoneStartData 0).toRecord? = some (zoneStart "0") := by decide +kernel
  obtain rfl := Option.some.inj (hr'.symm.trans hzero)
  exact absurd hkept (by decide +kernel)

end ResourceRecord

end CachingResolver
