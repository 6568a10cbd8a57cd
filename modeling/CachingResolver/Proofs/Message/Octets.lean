import CachingResolver.Message.Record
import CachingResolver.Proofs.Message.Writer

/-!
# Records as octets

What is written of data, of records and of questions is read as the same thing, with its names
`completed`.  This holds of the data of every type that is understood, but for a text of no strings:
no octets are written of it, and a record without octets is read as one without data.  The only data
that cannot be written are texts with a string of more than 255 octets
(`RecordData.isFlawed_write`).  Without pointers, data take `size` octets, and no writer comes
further than that.
-/

namespace CachingResolver

open CachingResolver.Octets

/-! ### Parts of data -/

theorem ofWord16_eq (g : UInt16) : ofWord16 g = [(g >>> 8).toUInt8, g.toUInt8] := by
  have hhigh : UInt8.ofNat (g.toNat / 256) = (g >>> 8).toUInt8 := by
    rw [← UInt8.toNat_inj, UInt16.toNat_toUInt8, UInt16.toNat_shiftRight, UInt8.toNat_ofNat']
    show g.toNat / 256 % 256 = g.toNat >>> 8 % 256
    rw [Nat.shiftRight_eq_div_pow]
  have hlow : UInt8.ofNat g.toNat = g.toUInt8 := by
    rw [← UInt8.toNat_inj, UInt16.toNat_toUInt8, UInt8.toNat_ofNat']
  show [UInt8.ofNat (g.toNat / 256)] ++ [UInt8.ofNat g.toNat] = _
  rw [hhigh, hlow]
  rfl

theorem Ipv4.reads_readOctets (x : Ipv4) : Reads (fun _ => readOctets) (.octets x.octets) x := by
  intro message pos known h
  have htake : (Cursor.seek message pos).take? 4 = _ := h.standsAt.take?
  show readOctets (.seek message pos) = _
  rw [readOctets, htake]
  rfl

theorem Ipv6.reads_readOctets (x : Ipv6) : Reads (fun _ => readOctets) (.octets x.octets) x := by
  intro message pos known h
  obtain ⟨groups, hlength⟩ := x
  have hgroup : (fun (g : UInt16) => [(g >>> 8).toUInt8, g.toUInt8]) = ofWord16 :=
    funext fun g => (ofWord16_eq g).symm
  match groups, hlength with
  | [g0, g1, g2, g3, g4, g5, g6, g7], _ =>
      have hstands : StandsAt message pos ([g0, g1, g2, g3, g4, g5, g6, g7].flatMap ofWord16) :=
        hgroup ▸ h.standsAt
      simp only [List.flatMap_cons, standsAt_append, length_ofWord16] at hstands
      obtain ⟨h0, h1, h2, h3, h4, h5, h6, h7, -⟩ := hstands
      unfold readOctets
      simp only [h0.word16?, h1.word16?, h2.word16?, h3.word16?, h4.word16?, h5.word16?,
        h6.word16?, h7.word16?, Option.bind_eq_bind, Option.bind_some, Option.pure_def]
      rfl

theorem readTextStrings_cons {string octets : List UInt8} (h : string.length < 256) :
    readTextStrings (UInt8.ofNat string.length :: (string ++ octets)) =
      (readTextStrings octets).map (string :: ·) := by
  have hcode : (UInt8.ofNat string.length).toNat = string.length := by
    rw [UInt8.toNat_ofNat']
    omega
  have htake : take? (UInt8.ofNat string.length).toNat (string ++ octets) =
      some (string, octets) := by
    rw [hcode]
    exact take?_append string octets
  rw [readTextStrings]
  split
  · rename_i hnone
    rw [htake] at hnone
    cases hnone
  · rename_i hsome
    rw [htake] at hsome
    cases hsome
    rfl

/-- Text strings can be written when each of them can. -/
theorem isFlawed_all_text {strings : List (List UInt8)} {pos : Nat} {known : DomainName.Endings} :
    (Writer.all (strings.map .text) pos known).isFlawed = false ↔
      ∀ string ∈ strings, string.length < 256 := by
  induction strings generalizing pos known with
  | nil => exact iff_of_true rfl nofun
  | cons string strings ih =>
      rw [List.map_cons, Writer.all_cons, Writer.isFlawed_andThen, Writer.isFlawed_text, ih,
        List.forall_mem_cons]

/-- Text strings that can be written are read back. -/
theorem readTextStrings_all_text {strings : List (List UInt8)}
    (h : ∀ string ∈ strings, string.length < 256) (pos : Nat) (known : DomainName.Endings) :
    readTextStrings (Writer.all (strings.map .text) pos known).octets = some strings := by
  induction strings generalizing pos known with
  | nil =>
      show readTextStrings [] = some []
      rw [readTextStrings]
  | cons string strings ih =>
      obtain ⟨hstring, hstrings⟩ := List.forall_mem_cons.1 h
      rw [List.map_cons, Writer.all_cons, Writer.text_of_length_lt hstring,
        Writer.andThen_of_isWhole rfl]
      show readTextStrings (UInt8.ofNat string.length :: (string ++ _)) = _
      rw [readTextStrings_cons hstring, ih hstrings _ _]
      rfl

namespace RecordData

/-- The data with all names up to the root. -/
def completed : RecordData → RecordData
  | .cname target => .cname target.completed
  | .ns server => .ns server.completed
  | .ptr target => .ptr target.completed
  | .mx preference exchange => .mx preference exchange.completed
  | .soa server mailbox serial refresh retry expire minimum =>
    .soa server.completed mailbox.completed serial refresh retry expire minimum
  | .srv priority weight port target => .srv priority weight port target.completed
  | data => data

/-- The octets that the data take in a message, where every text string has one octet for its
length. -/
def size : RecordData → Nat
  | .a _ => 4
  | .aaaa _ => 16
  | .cname name | .ns name | .ptr name => name.size
  | .mx _ exchange => 2 + exchange.size
  | .txt strings => (strings.map (·.length + 1)).sum
  | .soa server mailbox .. => server.size + mailbox.size + 20
  | .srv _ _ _ target => 6 + target.size
  | .absent _ => 0
  | .other _ octets => octets.length

/-- Data of a type that is understood, apart from a text of no strings, for which nothing is
written. -/
def IsFull (data : RecordData) : Prop :=
  data.value?.isSome = true ∧ data ≠ .txt []

section Data

variable {data : RecordData} {type : RecordType} {value : String} {message : List UInt8} {pos : Nat}
  {known : DomainName.Endings}

/-- If the data are a text, each of its strings has a length that one octet tells. -/
def IsShort (data : RecordData) : Prop :=
  ∀ strings, data = .txt strings → ∀ string ∈ strings, string.length < 256

/-- Only text can be impossible to write. -/
theorem isFlawed_write : (data.write pos known).isFlawed = false ↔ data.IsShort := by
  cases data with
  | txt strings =>
      refine isFlawed_all_text.trans ⟨fun h _ heq => ?_, fun h => h strings rfl⟩
      exact RecordData.txt.inj heq ▸ h
  | a _ | aaaa _ | cname _ | ns _ | ptr _ | mx _ _ | soa _ _ _ _ _ _ _ | srv _ _ _ _ | absent _
  | other _ _ => exact iff_of_true rfl nofun

theorem keeps_write (data : RecordData) : data.write.Keeps := by
  cases data with
  | a _ | aaaa _ | absent _ | other _ _ => exact Writer.keeps_octets _
  | cname name | ns name | ptr name => exact Writer.keeps_name name
  | txt strings =>
      exact Writer.keeps_all (List.forall_mem_map.2 fun string _ => Writer.keeps_text string)
  | mx _ _ | soa _ _ _ _ _ _ _ | srv _ _ _ _ => exact Writer.keeps_all (by simp)

theorem within_write (data : RecordData) : data.write.Within data.size := by
  cases data with
  | a _ | absent _ | other _ _ => exact Writer.within_octets _
  | aaaa address =>
      obtain ⟨groups, hlength⟩ := address
      refine (Writer.within_octets _).mono ?_
      simp [Ipv6.octets, size, hlength]
  | cname name | ns name | ptr name => exact Writer.within_name name
  | mx preference exchange =>
      exact (Writer.within_word16 preference).andThen
        ((Writer.within_name exchange).andThen (Writer.within_octets []))
  | txt strings => exact Writer.within_all fun string _ => Writer.within_text string
  | soa server mailbox serial refresh retry expire minimum =>
      refine Writer.Within.mono ((Writer.within_name server).andThen
        ((Writer.within_name mailbox).andThen ((Writer.within_word32 serial).andThen
        ((Writer.within_word32 refresh.toUInt32).andThen
        ((Writer.within_word32 retry.toUInt32).andThen
        ((Writer.within_word32 expire.toUInt32).andThen
        ((Writer.within_word32 minimum).andThen (Writer.within_octets [])))))))) ?_
      show _ ≤ server.size + mailbox.size + 20
      simp only [List.length_nil]
      omega
  | srv priority weight port target =>
      refine Writer.Within.mono ((Writer.within_word16 priority).andThen
        ((Writer.within_word16 weight).andThen ((Writer.within_word16 port).andThen
        ((Writer.within_octets target.encode).andThen (Writer.within_octets []))))) ?_
      have hle := DomainName.length_encodeLabels_le [] target.labels target.areLabels.1
      have hle : target.encode.length ≤ target.size := hle
      show _ ≤ 6 + target.size
      simp only [List.length_nil]
      omega

theorem reads_readTyped (hvalue : data.value? = some (type, value))
    (h : data.write.Stands message pos known) :
    readTyped message type (data.write pos known).octets.length (.seek message pos) =
      some (data.completed, .seek message (data.write.stop pos known)) := by
  cases data with
  | a address =>
      cases hvalue
      have hread := Ipv4.reads_readOctets address h
      simp only at hread
      rw [readTyped, hread]
      rfl
  | aaaa address =>
      cases hvalue
      have hread := Ipv6.reads_readOctets address h
      simp only at hread
      rw [readTyped, hread]
      rfl
  | cname name | ns name | ptr name =>
      cases hvalue
      rw [readTyped, DomainName.reads_read name h]
      rfl
  | mx preference exchange =>
      cases hvalue
      obtain ⟨_, _, hpreference, h, hstop₁⟩ := (reads_word16 preference).first (by simp) h
      obtain ⟨_, _, hexchange, h, hstop₂⟩ := (DomainName.reads_read exchange).first (by simp) h
      simp only [readTyped, write, completed, hpreference, hexchange, hstop₁, hstop₂,
        Writer.stop_all_nil, Option.bind_eq_bind, Option.bind_some, Option.pure_def]
  | txt strings =>
      cases hvalue
      have htake := h.standsAt.take?
      have hstrings := readTextStrings_all_text (isFlawed_all_text.1 h.isWhole) pos known
      rw [readTyped, htake]
      simp only [write, completed, hstrings, Option.bind_eq_bind, Option.bind_some,
        Option.pure_def]
      rfl
  | soa server mailbox serial refresh retry expire minimum =>
      cases hvalue
      obtain ⟨_, _, hserver, h, hstop₁⟩ := (DomainName.reads_read server).first (by simp) h
      obtain ⟨_, _, hmailbox, h, hstop₂⟩ := (DomainName.reads_read mailbox).first (by simp) h
      obtain ⟨_, _, hserial, h, hstop₃⟩ := (reads_word32 serial).first (by simp) h
      obtain ⟨_, _, hrefresh, h, hstop₄⟩ := (reads_signed refresh).first (by simp) h
      obtain ⟨_, _, hretry, h, hstop₅⟩ := (reads_signed retry).first (by simp) h
      obtain ⟨_, _, hexpire, h, hstop₆⟩ := (reads_signed expire).first (by simp) h
      obtain ⟨_, _, hminimum, h, hstop₇⟩ := (reads_word32 minimum).first (by simp) h
      simp only [readTyped, write, completed, hserver, hmailbox, hserial, hrefresh, hretry,
        hexpire, hminimum, hstop₁, hstop₂, hstop₃, hstop₄, hstop₅, hstop₆, hstop₇,
        Writer.stop_all_nil, Option.bind_eq_bind, Option.bind_some, Option.pure_def]
  | srv priority weight port target =>
      cases hvalue
      obtain ⟨_, _, hpriority, h, hstop₁⟩ := (reads_word16 priority).first (by simp) h
      obtain ⟨_, _, hweight, h, hstop₂⟩ := (reads_word16 weight).first (by simp) h
      obtain ⟨_, _, hport, h, hstop₃⟩ := (reads_word16 port).first (by simp) h
      obtain ⟨_, _, htarget, h, hstop₄⟩ := (DomainName.reads_read_encode target).first (by simp) h
      simp only [readTyped, write, completed, hpriority, hweight, hport, htarget, hstop₁, hstop₂,
        hstop₃, hstop₄, Writer.stop_all_nil, Option.bind_eq_bind, Option.bind_some,
        Option.pure_def]
  | absent _ | other _ _ => cases hvalue

theorem ofNumber?_type (hvalue : data.value? = some (type, value)) :
    RecordType.ofNumber? data.type = some type := by
  cases data with
  | absent _ | other _ _ => cases hvalue
  | a _ | aaaa _ | cname _ | ns _ | ptr _ | mx _ _ | txt _ | soa _ _ _ _ _ _ _ | srv _ _ _ _ =>
      cases hvalue
      rfl

theorem isDataless_type (hvalue : data.value? = some (type, value)) :
    WireType.isDataless data.type = false := by
  cases data with
  | absent _ | other _ _ => cases hvalue
  | a _ | aaaa _ | cname _ | ns _ | ptr _ | mx _ _ | txt _ | soa _ _ _ _ _ _ _ | srv _ _ _ _ => rfl

theorem IsFull.completed (h : data.IsFull) : data.completed.IsFull := by
  cases data with
  | txt strings => exact h
  | absent _ | other _ _ => exact absurd h.1 nofun
  | a _ | aaaa _ | cname _ | ns _ | ptr _ | mx _ _ | soa _ _ _ _ _ _ _ | srv _ _ _ _ =>
      exact ⟨rfl, nofun⟩

theorem length_write_pos (hfull : data.IsFull) (hwhole : (data.write pos known).isFlawed = false) :
    0 < (data.write pos known).octets.length := by
  cases data with
  | txt strings =>
      cases strings with
      | nil => exact absurd rfl hfull.2
      | cons string strings =>
          have hstring := (Writer.isFlawed_andThen.1 hwhole).1
          refine Nat.lt_of_lt_of_le ?_ (Writer.length_le_andThen hstring)
          rw [Writer.text_of_length_lt (Writer.isFlawed_text.1 hstring)]
          exact Nat.succ_pos _
  | absent _ | other _ _ => exact absurd hfull.1 nofun
  | cname name | ns name | ptr name => exact DomainName.length_encodeLabels_pos known name.labels
  | soa server =>
      show 0 < ((Writer.name server).andThen _ pos known).octets.length
      refine Nat.lt_of_lt_of_le ?_ (Writer.length_le_andThen rfl)
      exact DomainName.length_encodeLabels_pos known server.labels
  | a _ | mx _ _ | srv _ _ _ _ => exact Nat.succ_pos _
  | aaaa address =>
      obtain ⟨groups, hlength⟩ := address
      simp [write, Writer.octets, Ipv6.octets, hlength]

/-- Full data are read as they were written, with their names up to the root. -/
theorem reads_read (hfull : data.IsFull) (h : data.write.Stands message pos known) :
    read message data.type (data.write pos known).octets.length (.seek message pos) =
      some (data.completed, .seek message (data.write.stop pos known)) := by
  obtain ⟨⟨type, value⟩, hvalue⟩ := Option.isSome_iff_exists.1 hfull.1
  have hsize := Nat.ne_of_gt (length_write_pos hfull h.isWhole)
  unfold RecordData.read
  rw [if_neg hsize, isDataless_type hvalue, ofNumber?_type hvalue]
  simp only [Bool.false_eq_true, if_false, reads_readTyped hvalue h, Option.bind_eq_bind,
    Option.bind_some]
  exact if_pos rfl

end Data

end RecordData

/-! ### Records and questions -/

namespace WireRecord

def completed (w : WireRecord) : WireRecord :=
  { w with owner := w.owner.completed, data := w.data.completed }

/-- The octets that the record takes in a message without pointers. -/
def size (w : WireRecord) : Nat :=
  w.owner.size + 10 + w.data.size

variable {w : WireRecord}

theorem keeps_write (w : WireRecord) : w.write.Keeps :=
  Writer.keeps_all (by simp [w.data.keeps_write.measured])

theorem within_write (w : WireRecord) : w.write.Within w.size := by
  refine Writer.Within.mono ((Writer.within_name w.owner).andThen
    ((Writer.within_word16 w.type).andThen ((Writer.within_word16 w.recordClass).andThen
    ((Writer.within_word32 w.ttl).andThen (w.data.within_write.measured.andThen
    (Writer.within_octets [])))))) ?_
  unfold size
  simp only [List.length_nil]
  omega

theorem length_write_pos (w : WireRecord) (pos : Nat) (known : DomainName.Endings) :
    0 < (w.write pos known).octets.length := by
  show 0 < ((Writer.name w.owner).andThen _ pos known).octets.length
  refine Nat.lt_of_lt_of_le ?_ (Writer.length_le_andThen rfl)
  exact DomainName.length_encodeLabels_pos known w.owner.labels

theorem isFlawed_write {pos : Nat} {known : DomainName.Endings} :
    (w.write pos known).isFlawed = false ↔ w.data.IsShort := by
  simp [write, Writer.isFlawed_all_cons, RecordData.isFlawed_write]

/-- A record with full data is read as it was written, with its names up to the root. -/
theorem reads_read (hfull : w.data.IsFull) : Reads read w.write w.completed := by
  intro message pos known h
  obtain ⟨_, _, howner, h, hstop₁⟩ := (DomainName.reads_read w.owner).first (by simp) h
  obtain ⟨_, _, htype, h, hstop₂⟩ := (reads_word16 w.type).first (by simp) h
  obtain ⟨_, _, hclass, h, hstop₃⟩ := (reads_word16 w.recordClass).first (by simp) h
  obtain ⟨_, _, httl, h, hstop₄⟩ := (reads_word32 w.ttl).first (by simp) h
  have hsize := h.first.nat?_of_measured w.data.within_write
  have hdata := RecordData.reads_read hfull h.first.of_measured
  have hstop₅ : (Writer.all [w.data.write.measured]).stop _ _ = _ :=
    Writer.stop_andThen h.first.isWhole
  rw [WireRecord.type] at htype
  simp only [read, write, howner, htype, hclass, httl, hsize, hdata, hstop₁, hstop₂, hstop₃,
    hstop₄, hstop₅, Writer.stop_measured, Option.bind_eq_bind, Option.bind_some, Option.pure_def]
  rfl

/-- Writes records, with none left out. -/
def writeAll (ws : List WireRecord) : Writer :=
  .all (ws.map WireRecord.write)

theorem isFlawed_writeAll {ws : List WireRecord} {pos : Nat} {known : DomainName.Endings} :
    (writeAll ws pos known).isFlawed = false ↔ ∀ w ∈ ws, w.data.IsShort := by
  induction ws generalizing pos known with
  | nil => exact iff_of_true rfl nofun
  | cons w ws ih =>
      rw [List.forall_mem_cons, ← ih, ← isFlawed_write]
      exact Writer.isFlawed_andThen

theorem keeps_writeAll (ws : List WireRecord) : (writeAll ws).Keeps :=
  Writer.keeps_all (List.forall_mem_map.2 fun w _ => w.keeps_write)

theorem within_writeAll (ws : List WireRecord) : (writeAll ws).Within (ws.map size).sum :=
  Writer.within_all fun w _ => w.within_write

theorem length_lt_of_fits {ws : List WireRecord} {pos : Nat} {known : DomainName.Endings}
    (h : (writeAll ws).Fits pos known) : ws.length < 65536 :=
  Writer.length_lt_of_fits length_write_pos within_write h

theorem reads_readMany {ws : List WireRecord} (hfull : ∀ w ∈ ws, w.data.IsFull) :
    Reads (fun message => readMany (read message) ws.length) (writeAll ws) (ws.map completed) :=
  CachingResolver.reads_readMany (fun w _ => w.keeps_write) fun w hw => reads_read (hfull w hw)

theorem isOrdinary_of_isFull (h : w.data.IsFull) : w.isOrdinary = true := by
  obtain ⟨owner, recordClass, ttl, data⟩ := w
  have hvalue := h.1
  cases data with
  | absent _ | other _ _ => exact absurd hvalue nofun
  | a _ | aaaa _ | cname _ | ns _ | ptr _ | mx _ _ | txt _ | soa _ _ _ _ _ _ _ | srv _ _ _ _ => rfl

end WireRecord

namespace WireQuestion

def completed (q : WireQuestion) : WireQuestion :=
  { q with name := q.name.completed }

/-- The octets that the question takes in a message without pointers. -/
def size (q : WireQuestion) : Nat :=
  q.name.size + 4

theorem keeps_write (q : WireQuestion) : q.write.Keeps :=
  Writer.keeps_all (by simp)

theorem within_write (q : WireQuestion) : q.write.Within q.size :=
  (Writer.within_name q.name).andThen ((Writer.within_word16 q.type).andThen
    ((Writer.within_word16 q.recordClass).andThen (Writer.within_octets [])))

theorem length_write_pos (q : WireQuestion) (pos : Nat) (known : DomainName.Endings) :
    0 < (q.write pos known).octets.length := by
  show 0 < ((Writer.name q.name).andThen _ pos known).octets.length
  refine Nat.lt_of_lt_of_le ?_ (Writer.length_le_andThen rfl)
  exact DomainName.length_encodeLabels_pos known q.name.labels

theorem reads_read (q : WireQuestion) : Reads read q.write q.completed := by
  intro message pos known h
  obtain ⟨_, _, hname, h, hstop₁⟩ := (DomainName.reads_read q.name).first (by simp) h
  obtain ⟨_, _, htype, h, hstop₂⟩ := (reads_word16 q.type).first (by simp) h
  obtain ⟨_, _, hclass, h, hstop₃⟩ := (reads_word16 q.recordClass).first (by simp) h
  simp only [read, write, hname, htype, hclass, hstop₁, hstop₂, hstop₃, Writer.stop_all_nil,
    Option.bind_eq_bind, Option.bind_some, Option.pure_def]
  rfl

theorem isFlawed_writeAll (qs : List WireQuestion) (pos : Nat) (known : DomainName.Endings) :
    (writeAll qs pos known).isFlawed = false := by
  induction qs generalizing pos known with
  | nil => rfl
  | cons q qs ih =>
      rw [writeAll, List.map_cons, Writer.all_cons, Writer.isFlawed_andThen]
      exact ⟨rfl, ih _ _⟩

theorem keeps_writeAll (qs : List WireQuestion) : (writeAll qs).Keeps :=
  Writer.keeps_all (List.forall_mem_map.2 fun q _ => q.keeps_write)

theorem within_writeAll (qs : List WireQuestion) : (writeAll qs).Within (qs.map size).sum :=
  Writer.within_all fun q _ => q.within_write

theorem length_lt_of_fits {qs : List WireQuestion} {pos : Nat} {known : DomainName.Endings}
    (h : (writeAll qs).Fits pos known) : qs.length < 65536 :=
  Writer.length_lt_of_fits length_write_pos within_write h

theorem reads_readMany (qs : List WireQuestion) :
    Reads (fun message => readMany (read message) qs.length) (writeAll qs) (qs.map completed) :=
  CachingResolver.reads_readMany (fun q _ => q.keeps_write) fun q _ => reads_read q

end WireQuestion

end CachingResolver
