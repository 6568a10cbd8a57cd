import CachingResolver.Proofs.DomainName
import CachingResolver.Proofs.Message.Octets
import CachingResolver.Proofs.Message.Received

/-!
# Messages as octets

A message of records that are understood and without options, of which nothing is left out, is read
as it was written, with its names up to the root: `Message.decode_of_encode`.  Nothing is left out
when its records can be written (`RecordData.isFlawed_write`) and writing them never comes past the
size of a message; how far it comes is the `reach` of the message.  A message that takes no more
octets than that without pointers has room for all (`Message.reach_le_size`).  Of a message that
keeps all its answers, none was left out (`Message.fits_of_length_answers`).
-/

namespace CachingResolver

open CachingResolver.Octets

namespace Message

/-! ### The header -/

theorem flag_eq (bit : Nat) (b : Bool) : flag bit b = b.toNat * 2 ^ bit := by
  cases b with
  | false => rw [Bool.toNat_false, Nat.zero_mul]; rfl
  | true => rw [Bool.toNat_true, flag, if_pos rfl, Nat.shiftLeft_eq]

theorem flags_eq (m : Message) : m.flags =
    m.isResponse.toNat * 32768 + m.opcode.val * 2048 + m.isAuthoritative.toNat * 1024 +
      m.isTruncated.toNat * 512 + m.recursionDesired.toNat * 256 +
      m.recursionAvailable.toNat * 128 + m.authenticData.toNat * 32 +
      m.checkingDisabled.toNat * 16 + m.code.val % 16 := by
  simp only [flags, flag_eq, Nat.shiftLeft_eq, Nat.reducePow]

theorem testBit_of_div_mod {n k : Nat} {b : Bool} (h : n / 2 ^ k % 2 = b.toNat) :
    n.testBit k = b := by
  rw [Nat.testBit_eq_decide_div_mod_eq, h]
  cases b <;> rfl

/-- What a number tells about a header when it is read as the flags. -/
structure FlagsRead (m : Message) (n : Nat) : Prop where
  lt : n < 65536
  isResponse : n.testBit 15 = m.isResponse
  opcode : Opcode.ofNat (n >>> 11) = m.opcode
  isAuthoritative : n.testBit 10 = m.isAuthoritative
  isTruncated : n.testBit 9 = m.isTruncated
  recursionDesired : n.testBit 8 = m.recursionDesired
  recursionAvailable : n.testBit 7 = m.recursionAvailable
  authenticData : n.testBit 5 = m.authenticData
  checkingDisabled : n.testBit 4 = m.checkingDisabled
  code : n % 16 = m.code.val % 16

theorem flagsRead_flags (m : Message) : m.FlagsRead m.flags := by
  have h := m.flags_eq
  have hopcode := m.opcode.isLt
  have hcode := Nat.mod_lt m.code.val (show 0 < 16 by decide)
  have hresponse := m.isResponse.toNat_le
  have hauthoritative := m.isAuthoritative.toNat_le
  have htruncated := m.isTruncated.toNat_le
  have hdesired := m.recursionDesired.toNat_le
  have havailable := m.recursionAvailable.toNat_le
  have hauthentic := m.authenticData.toNat_le
  have hchecking := m.checkingDisabled.toNat_le
  generalize m.flags = n at h ⊢
  refine
    { lt := by omega
      isResponse := testBit_of_div_mod (by simp only [Nat.reducePow]; omega)
      opcode := ?_
      isAuthoritative := testBit_of_div_mod (by simp only [Nat.reducePow]; omega)
      isTruncated := testBit_of_div_mod (by simp only [Nat.reducePow]; omega)
      recursionDesired := testBit_of_div_mod (by simp only [Nat.reducePow]; omega)
      recursionAvailable := testBit_of_div_mod (by simp only [Nat.reducePow]; omega)
      authenticData := testBit_of_div_mod (by simp only [Nat.reducePow]; omega)
      checkingDisabled := testBit_of_div_mod (by simp only [Nat.reducePow]; omega)
      code := by omega }
  refine Fin.ext ?_
  show (n >>> 11) % 16 = _
  rw [Nat.shiftRight_eq_div_pow]
  simp only [Nat.reducePow]
  omega

/-- A response code that fits in the header needs no options. -/
theorem responseCode_flags {m : Message} (h : m.code.val < 16) :
    responseCode (m.flags % 16) none = m.code := by
  rw [(flagsRead_flags m).code]
  refine Fin.ext ?_
  show (16 * 0 + m.code.val % 16) % 4096 = m.code.val
  omega

section ReadHeader

variable {m : Message} {octets : List UInt8} {questions answers authorities additionals : Nat}

/-- What is read of a header at the start of a message, part by part. -/
structure HeaderRead (m : Message) (questions answers authorities additionals : Nat)
    (octets : List UInt8) : Prop where
  id : (Cursor.seek octets 0).word16? = some (m.id, .seek octets 2)
  flags : (Cursor.seek octets 2).nat? 2 = some (m.flags, .seek octets 4)
  questions : (Cursor.seek octets 4).nat? 2 = some (questions % 65536, .seek octets 6)
  answers : (Cursor.seek octets 6).nat? 2 = some (answers % 65536, .seek octets 8)
  authorities : (Cursor.seek octets 8).nat? 2 = some (authorities % 65536, .seek octets 10)
  additionals : (Cursor.seek octets 10).nat? 2 = some (additionals % 65536, .seek octets 12)

theorem length_encodeHeader (m : Message) (questions answers authorities additionals : Nat) :
    (m.encodeHeader questions answers authorities additionals).length = 12 := by
  simp [encodeHeader]

theorem headerRead_of_standsAt
    (h : StandsAt octets 0 (m.encodeHeader questions answers authorities additionals)) :
    m.HeaderRead questions answers authorities additionals octets := by
  unfold encodeHeader at h
  simp only [standsAt_append, List.length_append, length_ofWord16, length_ofNat, Nat.zero_add,
    Nat.reduceAdd] at h
  obtain ⟨⟨⟨⟨⟨hid, hflags⟩, hquestions⟩, hanswers⟩, hauthorities⟩, hadditionals⟩ := h
  refine ⟨hid.word16?, ?_, hquestions.nat?, hanswers.nat?, hauthorities.nat?, hadditionals.nat?⟩
  rw [hflags.nat?, Nat.mod_eq_of_lt (show m.flags < 256 ^ 2 from (flagsRead_flags m).lt)]

theorem length_of_readMany {α : Type} {read : Cursor → Option (α × Cursor)} {count : Nat}
    {cursor after : Cursor} {xs : List α} (h : readMany read count cursor = some (xs, after)) :
    xs.length = count := by
  induction count generalizing cursor xs with
  | zero =>
      cases h
      rfl
  | succ count ih =>
      simp only [readMany, Option.bind_eq_bind, Option.bind_eq_some_iff] at h
      obtain ⟨x, -, rest, hrest, heq⟩ := h
      cases heq
      rw [List.length_cons, ih hrest]

/-- As many answers are read as the header announces. -/
theorem length_answers_of_decode? {received : Message}
    (h : m.HeaderRead questions answers authorities additionals octets)
    (hdecode : decode? octets = some received) : received.answers.length = answers % 65536 := by
  unfold decode? at hdecode
  simp only [Option.bind_eq_bind, h.id, h.flags, h.questions, h.answers, h.authorities,
    h.additionals, Option.bind_some, Option.bind_eq_some_iff] at hdecode
  obtain ⟨_, -, answers', hanswers, _, -, _, -, _, -, heq⟩ := hdecode
  split at heq
  · cases heq
    exact length_of_readMany hanswers
  · cases heq

end ReadHeader

/-! ### The sections -/

/-- The octets that the message takes without pointers, however long its text strings are. -/
def size (m : Message) : Nat :=
  12 + (m.questions.map WireQuestion.size).sum + (m.answers.map WireRecord.size).sum +
    (m.authorities.map WireRecord.size).sum + (m.additionals.map WireRecord.size).sum +
    (m.options.toList.map fun o => 11 + o.octets.length).sum

/-- Writes the questions and all records, with nothing left out. -/
def body (m : Message) : Writer :=
  .all [WireQuestion.writeAll m.questions, WireRecord.writeAll m.answers,
    WireRecord.writeAll m.authorities, WireRecord.writeAll m.additionals,
    WireRecord.writeAll (m.options.toList.map (MessageOptions.toRecord m.code))]

/-- The furthest position that writing the message comes to, when nothing is left out. -/
def reach (m : Message) : Nat :=
  (m.body 12 []).reach

/-- A message of records that are understood, without options. -/
structure IsPlain (m : Message) : Prop where
  options_eq : m.options = none
  code_lt : m.code.val < 16
  isFull : ∀ w ∈ m.answers ++ m.authorities ++ m.additionals, w.data.IsFull

/-- The message with all names up to the root. -/
def completed (m : Message) : Message :=
  { m with
    questions := m.questions.map WireQuestion.completed
    answers := m.answers.map WireRecord.completed
    authorities := m.authorities.map WireRecord.completed
    additionals := m.additionals.map WireRecord.completed }

/-- A message can be written when all its texts can. -/
theorem isFlawed_body {m : Message} {pos : Nat} {known : DomainName.Endings} :
    (m.body pos known).isFlawed = false ↔
      ∀ w ∈ m.answers ++ m.authorities ++ m.additionals, w.data.IsShort := by
  have hoptions : ∀ w ∈ m.options.toList.map (MessageOptions.toRecord m.code), w.data.IsShort :=
    List.forall_mem_map.2 fun _ _ => nofun
  simp only [body, Writer.isFlawed_all_cons, Writer.isFlawed_all_nil, and_true,
    WireQuestion.isFlawed_writeAll, WireRecord.isFlawed_writeAll, true_and,
    List.forall_mem_append, and_assoc, and_iff_left hoptions]

/-- A message comes no further than it would without pointers. -/
theorem reach_le_size (m : Message) : m.reach ≤ m.size := by
  have hoptions : ((m.options.toList.map (MessageOptions.toRecord m.code)).map
      WireRecord.size).sum = (m.options.toList.map fun o => 11 + o.octets.length).sum := by
    rw [List.map_map]
    rfl
  have hbody := (WireQuestion.within_writeAll m.questions).andThen
    ((WireRecord.within_writeAll m.answers).andThen
    ((WireRecord.within_writeAll m.authorities).andThen
    ((WireRecord.within_writeAll m.additionals).andThen
    ((WireRecord.within_writeAll (m.options.toList.map (MessageOptions.toRecord m.code))).andThen
    (Writer.within_octets [])))))
  refine (hbody 12 []).2.trans (Nat.le_of_eq ?_)
  rw [hoptions, size, List.length_nil]
  omega

section Sections

variable {ws : List WireRecord} {pos : Nat} {known : DomainName.Endings} {s : EncodedSection}

/-- Of records that fit, nothing is left out. -/
theorem encodeSection?_of_fits (h : (WireRecord.writeAll ws).Fits pos known) :
    encodeSection? pos known ws =
      some { count := ws.length
             octets := (WireRecord.writeAll ws pos known).octets
             endings := (WireRecord.writeAll ws pos known).endings } := by
  induction ws generalizing pos known with
  | nil => rfl
  | cons w ws ih =>
      obtain ⟨hw, hws⟩ := Writer.fits_all_cons.1 h
      have hrest := ih hws
      unfold Writer.stop at hrest
      rw [encodeSection?, WireRecord.writeAll, List.map_cons, Writer.all_cons,
        Writer.andThen_of_isWhole hw.isWhole]
      simp only [if_neg (Nat.not_lt.2 hw.reach_le), hw.isWhole, Bool.false_eq_true, if_false,
        hrest, Option.bind_eq_bind, Option.bind_some, Option.pure_def, List.length_cons]
      rfl

/-- When as many records are written as there are, they fit. -/
theorem fits_of_encodeSection? (hpos : pos ≤ maxSize) (h : encodeSection? pos known ws = some s) :
    s.count ≤ ws.length ∧
      (s.count = ws.length → (WireRecord.writeAll ws).Fits pos known) := by
  induction ws generalizing pos known s with
  | nil =>
      cases h
      exact ⟨Nat.le_refl 0, fun _ => ⟨rfl, hpos⟩⟩
  | cons w ws ih =>
      rw [encodeSection?] at h
      split at h
      · cases h
        exact ⟨Nat.zero_le _, nofun⟩
      · rename_i hreach
        split at h
        · cases h
        · rename_i hwhole
          simp only [Option.bind_eq_bind, Option.bind_eq_some_iff] at h
          obtain ⟨rest, hrest, heq⟩ := h
          cases heq
          have hw : w.write.Fits pos known := ⟨eq_false_of_ne_true hwhole, Nat.not_lt.1 hreach⟩
          have hstop := (w.within_write pos known).1.trans hw.reach_le
          obtain ⟨hcount, hfits⟩ := ih hstop hrest
          refine ⟨Nat.succ_le_succ hcount, fun hall => ?_⟩
          exact Writer.fits_all_cons.2 ⟨hw, hfits (Nat.succ.inj hall)⟩

end Sections

variable {m received : Message} {octets : List UInt8}

/-- A message of which nothing has to be left out is written as its header and its body. -/
theorem encode?_of_fits (h : m.body.Fits 12 []) :
    m.encode? = some (m.encodeHeader m.questions.length m.answers.length m.authorities.length
      (m.additionals.length + m.options.toList.length) ++ (m.body 12 []).octets) := by
  unfold encode? body
  obtain ⟨hquestions, _, _, hpos₁, hknown₁, h, hoctets₁⟩ := h.first
  obtain ⟨hanswers, _, _, hpos₂, hknown₂, h, hoctets₂⟩ := h.first
  obtain ⟨hauthorities, _, _, hpos₃, hknown₃, h, hoctets₃⟩ := h.first
  obtain ⟨hadditionals, _, _, hpos₄, hknown₄, h, hoctets₄⟩ := h.first
  obtain ⟨hoptions, _, _, -, -, -, hoctets₅⟩ := h.first
  simp only [if_neg (Nat.not_lt.2 hquestions.reach_le), hpos₁, hknown₁,
    encodeSection?_of_fits hanswers, hpos₂, hknown₂, encodeSection?_of_fits hauthorities, hpos₃,
    hknown₃, encodeSection?_of_fits hadditionals, hpos₄, hknown₄, encodeSection?_of_fits hoptions,
    Option.bind_eq_bind, Option.bind_some, Option.pure_def, Bool.or_false, List.length_map,
    hoctets₁, hoctets₂, hoctets₃, hoctets₄, hoctets₅]
  exact congrArg some (congrArg _ (by simp [Writer.all, Writer.octets]))

/-- In a reply about `example.com.`, the owner of its mail exchange and the end of that name are
pointers to the question. -/
example : (encode?
    { questions := [{ name := .ofTexts ["example", "com"], type := 15 }]
      answers := [{ owner := .ofTexts ["example", "com"], ttl := 300,
                    data := .mx 10 (.ofTexts ["mail", "example", "com"]) }] }).map (·.drop 29) =
    some [0xc0, 12, 0, 15, 0, 1, 0, 0, 1, 44, 0, 9, 0, 10, 4, 109, 97, 105, 108, 0xc0, 12] := by
  decide +kernel

/-- A written message starts with a header, which announces as many answers as were written. -/
theorem exists_of_encode? (h : m.encode? = some octets) :
    (WireQuestion.writeAll m.questions 12 []).reach ≤ maxSize ∧
      ∃ answers, encodeSection? ((WireQuestion.writeAll m.questions).stop 12 [])
          (WireQuestion.writeAll m.questions 12 []).endings m.answers = some answers ∧
        ∃ (m' : Message) (authorities additionals : Nat), StandsAt octets 0
          (m'.encodeHeader m.questions.length answers.count authorities additionals) := by
  unfold encode? at h
  simp only at h
  split at h
  · cases h
  · rename_i hreach
    simp only [Option.bind_eq_bind, Option.bind_eq_some_iff] at h
    obtain ⟨answers, hanswers, _, -, _, -, _, -, heq⟩ := h
    refine ⟨Nat.not_lt.1 hreach, answers, hanswers, _, _, _, ⟨_, Option.some.inj heq⟩⟩

/-- A message that keeps all its answers has room for its questions and its answers. -/
theorem fits_of_length_answers (hencode : m.encode? = some octets)
    (hdecode : decode? octets = some received)
    (hlength : received.answers.length = m.answers.length) :
    (WireQuestion.writeAll m.questions).Fits 12 [] ∧
      (WireRecord.writeAll m.answers).Fits ((WireQuestion.writeAll m.questions).stop 12 [])
        (WireQuestion.writeAll m.questions 12 []).endings := by
  obtain ⟨hreach, answers, hanswers, m', authorities, additionals, hheader⟩ :=
    exists_of_encode? hencode
  have hcount := length_answers_of_decode? (headerRead_of_standsAt hheader) hdecode
  have hstop := (WireQuestion.within_writeAll m.questions 12 []).1.trans hreach
  obtain ⟨hle, hfits⟩ := fits_of_encodeSection? hstop hanswers
  have hmod := Nat.mod_le answers.count 65536
  exact ⟨⟨WireQuestion.isFlawed_writeAll _ _ _, hreach⟩, hfits (by omega)⟩

/-- A message of questions and answers fits when these do. -/
theorem fits_body_of_answers (hauthorities : m.authorities = []) (hadditionals : m.additionals = [])
    (hoptions : m.options = none) (hquestions : (WireQuestion.writeAll m.questions).Fits 12 [])
    (hanswers : (WireRecord.writeAll m.answers).Fits
      ((WireQuestion.writeAll m.questions).stop 12 [])
      (WireQuestion.writeAll m.questions 12 []).endings) : m.body.Fits 12 [] := by
  have hstop := (WireRecord.within_writeAll m.answers _ _).1.trans hanswers.reach_le
  unfold body
  rw [hauthorities, hadditionals, hoptions]
  refine Writer.fits_all_cons.2 ⟨hquestions, Writer.fits_all_cons.2 ⟨hanswers, ?_⟩⟩
  -- Nothing is written after the answers.
  exact ⟨rfl, by simpa [Writer.all, Writer.andThen, Writer.octets, WireRecord.writeAll] using hstop⟩

theorem isOrdinary_of_mem_completed {ws : List WireRecord} (h : ∀ w ∈ ws, w.data.IsFull) :
    ∀ w ∈ ws.map WireRecord.completed, w.isOrdinary = true :=
  List.forall_mem_map.2 fun w hw => WireRecord.isOrdinary_of_isFull (h w hw).completed

theorem findOptions?_of_isOrdinary {ws : List WireRecord} (h : ∀ w ∈ ws, w.isOrdinary = true) :
    findOptions? ws = some none := by
  have hnone : ws.filter (fun w => w.type == WireType.opt) = [] := by
    refine List.filter_eq_nil_iff.2 fun w hw hopt => ?_
    have hordinary := h w hw
    unfold WireRecord.isOrdinary at hordinary
    simp_all
  rw [findOptions?, hnone]

theorem filter_ne_opt_of_isOrdinary {ws : List WireRecord} (h : ∀ w ∈ ws, w.isOrdinary = true) :
    ws.filter (fun w => w.type != WireType.opt) = ws := by
  refine List.filter_eq_self.2 fun w hw => ?_
  have hordinary := h w hw
  unfold WireRecord.isOrdinary at hordinary
  simp_all

/-- A plain message of which nothing has to be left out is read as it was written. -/
theorem decode?_of_encode? (hplain : m.IsPlain) (hfits : m.body.Fits 12 [])
    (h : m.encode? = some octets) : decode? octets = some m.completed := by
  have hflags := flagsRead_flags m
  obtain ⟨⟨hanswers, hauthorities⟩, hadditionals⟩ :
      ((∀ w ∈ m.answers, w.data.IsFull) ∧ ∀ w ∈ m.authorities, w.data.IsFull) ∧
        ∀ w ∈ m.additionals, w.data.IsFull := by
    simpa only [List.forall_mem_append] using hplain.isFull
  rw [encode?_of_fits hfits, hplain.options_eq, Option.toList_none, List.length_nil,
    Nat.add_zero] at h
  have hall : StandsAt octets 0 (m.encodeHeader m.questions.length m.answers.length
      m.authorities.length m.additionals.length ++ (m.body 12 []).octets) := by
    rw [Option.some.inj h]
    exact List.prefix_refl octets
  obtain ⟨hstart, hrest⟩ := standsAt_append.1 hall
  rw [length_encodeHeader] at hrest
  have hheader := headerRead_of_standsAt hstart
  have hbody : m.body.Stands octets 12 [] := ⟨hfits, hrest, nofun⟩
  -- Each section stands where the one before it ends.
  obtain ⟨_, _, hreadQuestions, h₁, -⟩ :=
    (WireQuestion.reads_readMany m.questions).first (WireQuestion.keeps_writeAll _) hbody
  obtain ⟨_, _, hreadAnswers, h₂, -⟩ :=
    (WireRecord.reads_readMany hanswers).first (WireRecord.keeps_writeAll _) h₁
  obtain ⟨_, _, hreadAuthorities, h₃, -⟩ :=
    (WireRecord.reads_readMany hauthorities).first (WireRecord.keeps_writeAll _) h₂
  obtain ⟨_, _, hreadAdditionals, -, -⟩ :=
    (WireRecord.reads_readMany hadditionals).first (WireRecord.keeps_writeAll _) h₃
  have hordinary : (m.answers.map WireRecord.completed ++
      m.authorities.map WireRecord.completed).all WireRecord.isOrdinary = true := by
    rw [List.all_eq_true, List.forall_mem_append]
    exact ⟨isOrdinary_of_mem_completed hanswers, isOrdinary_of_mem_completed hauthorities⟩
  have hadditionals := isOrdinary_of_mem_completed hadditionals
  unfold decode?
  simp only [hheader.id, hheader.flags, hheader.questions, hheader.answers, hheader.authorities,
    hheader.additionals, Nat.mod_eq_of_lt (WireQuestion.length_lt_of_fits hbody.first.toFits),
    Nat.mod_eq_of_lt (WireRecord.length_lt_of_fits h₁.first.toFits),
    Nat.mod_eq_of_lt (WireRecord.length_lt_of_fits h₂.first.toFits),
    Nat.mod_eq_of_lt (WireRecord.length_lt_of_fits h₃.first.toFits), hreadQuestions, hreadAnswers,
    hreadAuthorities, hreadAdditionals, findOptions?_of_isOrdinary hadditionals,
    filter_ne_opt_of_isOrdinary hadditionals, if_pos hordinary, hflags.isResponse, hflags.opcode,
    hflags.isAuthoritative, hflags.isTruncated, hflags.recursionDesired, hflags.recursionAvailable,
    hflags.authenticData, hflags.checkingDisabled, responseCode_flags hplain.code_lt,
    Option.bind_eq_bind, Option.bind_some, Option.pure_def]
  obtain ⟨_, _, _, _, _, _, _, _, _, _, _, _, _, _, options⟩ := m
  obtain rfl : options = none := hplain.options_eq
  rfl

theorem encode_eq_ok_iff : m.encode = .ok octets ↔ m.encode? = some octets := by
  unfold encode
  cases m.encode? with
  | none => exact ⟨nofun, nofun⟩
  | some written =>
      exact ⟨fun h => congrArg some (Except.ok.inj h), fun h => congrArg _ (Option.some.inj h)⟩

theorem decode_eq_ok_iff : decode octets = .ok received ↔ decode? octets = some received := by
  unfold decode
  cases decode? octets with
  | none => exact ⟨nofun, nofun⟩
  | some read =>
      exact ⟨fun h => congrArg some (Except.ok.inj h), fun h => congrArg _ (Option.some.inj h)⟩

theorem decode_of_encode (hplain : m.IsPlain) (hfits : m.body.Fits 12 [])
    (h : m.encode = .ok octets) : decode octets = .ok m.completed :=
  decode_eq_ok_iff.2 (decode?_of_encode? hplain hfits (encode_eq_ok_iff.1 h))

end Message

/-- A record that can be written is received in a message that it is written in. -/
theorem WireRecord.isReceived_of_isFull {w : WireRecord} (hfull : w.data.IsFull)
    (hshort : w.data.IsShort) (hsize : w.size ≤ 65523) (hcomplete : w.completed = w) :
    w.IsReceived := by
  let m : Message := { answers := [w] }
  have hplain : m.IsPlain :=
    { options_eq := rfl
      code_lt := show 0 < 16 by decide
      isFull := List.forall_mem_singleton.2 hfull }
  have hroom : m.size ≤ Message.maxSize := by
    simp only [m, Message.size, Message.maxSize, List.map_cons, List.map_nil, List.sum_cons,
      List.sum_nil, Option.toList_none]
    omega
  have hfits : m.body.Fits 12 [] :=
    { isWhole := Message.isFlawed_body.2 (List.forall_mem_singleton.2 hshort)
      reach_le := m.reach_le_size.trans hroom }
  refine ⟨_, m.completed, Message.decode_of_encode hplain hfits
    (Message.encode_eq_ok_iff.2 (Message.encode?_of_fits hfits)), ?_⟩
  show w ∈ [w.completed] ++ [] ++ []
  simp [hcomplete]

end CachingResolver
