import CachingResolver.Message.Decode
import Mathlib.Data.List.Basic

/-!
# What was received

What every decoded message has, whatever its octets.  The names in its records reach up to the root,
and octets are left as they are only in records of a type that is not understood
(`WireRecord.IsReceived.isRead`).  The names of its questions reach up to the root as well
(`Message.isComplete_of_decode`).
-/

namespace CachingResolver

/-- The names that data hold. -/
def RecordData.names : RecordData → List DomainName
  | .cname name | .ns name | .ptr name | .mx _ name | .srv _ _ _ name => [name]
  | .soa server mailbox .. => [server, mailbox]
  | .a _ | .aaaa _ | .txt _ | .absent _ | .other _ _ => []

/-- Data as they are read from octets. -/
structure RecordData.IsRead (data : RecordData) : Prop where
  names_complete : ∀ n ∈ data.names, n.isComplete = true
  ofNumber?_eq_none : ∀ type octets, data = .other type octets → RecordType.ofNumber? type = none

/-- A record as it is read from octets. -/
structure WireRecord.IsRead (w : WireRecord) : Prop where
  owner_complete : w.owner.isComplete = true
  data_isRead : w.data.IsRead

/-- The record is in some section of a message that octets write. -/
def WireRecord.IsReceived (w : WireRecord) : Prop :=
  ∃ octets m, Message.decode octets = .ok m ∧ w ∈ m.answers ++ m.authorities ++ m.additionals

section Reading

variable {message : List UInt8} {cursor after : Octets.Cursor} {n : DomainName} {type : RecordType}
  {number : UInt16} {size : Nat} {data : RecordData} {w : WireRecord}

theorem DomainName.isComplete_of_read (h : DomainName.read message cursor = some (n, after)) :
    n.isComplete = true := by
  unfold DomainName.read at h
  simp only [Option.bind_eq_bind, Option.bind_eq_some_iff] at h
  obtain ⟨⟨labels, rest⟩, -, name, hname, heq⟩ := h
  obtain ⟨rfl, -⟩ := Prod.mk.inj (Option.some.inj heq)
  unfold ofLabels? at hname
  split at hname
  · cases hname
    rfl
  · cases hname

theorem RecordData.isRead_of_names (hnames : ∀ n ∈ data.names, n.isComplete = true)
    (hknown : ∀ type octets, data ≠ .other type octets) : data.IsRead where
  names_complete := hnames
  ofNumber?_eq_none type octets heq := absurd heq (hknown type octets)

theorem RecordData.isRead_of_readTyped
    (h : RecordData.readTyped message type size cursor = some (data, after)) : data.IsRead := by
  unfold readTyped at h
  cases type
  all_goals
    simp only [Option.map_eq_some_iff, Option.bind_eq_bind, Option.bind_eq_some_iff] at h
  case a =>
      obtain ⟨⟨address, rest⟩, -, heq⟩ := h
      cases heq
      exact isRead_of_names (by simp [names]) nofun
  case aaaa =>
      obtain ⟨⟨address, rest⟩, -, heq⟩ := h
      cases heq
      exact isRead_of_names (by simp [names]) nofun
  case cname | ns | ptr =>
      obtain ⟨⟨name, rest⟩, hname, heq⟩ := h
      cases heq
      exact isRead_of_names (by simp [names, DomainName.isComplete_of_read hname]) nofun
  case mx =>
      obtain ⟨⟨preference, rest⟩, -, ⟨exchange, rest⟩, hname, heq⟩ := h
      cases heq
      exact isRead_of_names (by simp [names, DomainName.isComplete_of_read hname]) nofun
  case txt =>
      obtain ⟨⟨octets, rest⟩, -, strings, -, heq⟩ := h
      cases heq
      exact isRead_of_names (by simp [names]) nofun
  case soa =>
      obtain ⟨⟨server, rest⟩, hserver, ⟨mailbox, rest⟩, hmailbox, ⟨serial, rest⟩, -,
        ⟨refresh, rest⟩, -, ⟨retry, rest⟩, -, ⟨expire, rest⟩, -, ⟨minimum, rest⟩, -, heq⟩ := h
      cases heq
      refine isRead_of_names ?_ nofun
      simp [names, DomainName.isComplete_of_read hserver, DomainName.isComplete_of_read hmailbox]
  case srv =>
      obtain ⟨⟨priority, rest⟩, -, ⟨weight, rest⟩, -, ⟨port, rest⟩, -, ⟨target, rest⟩, hname,
        heq⟩ := h
      cases heq
      exact isRead_of_names (by simp [names, DomainName.isComplete_of_read hname]) nofun

theorem RecordData.isRead_of_read
    (h : RecordData.read message number size cursor = some (data, after)) : data.IsRead := by
  unfold RecordData.read at h
  split at h
  · cases h
    exact isRead_of_names (by simp [names]) nofun
  · split at h
    · cases h
    · split at h
      · simp only [Option.bind_eq_bind, Option.bind_eq_some_iff] at h
        obtain ⟨⟨read, rest⟩, htyped, h⟩ := h
        split at h
        · cases h
          exact isRead_of_readTyped htyped
        · cases h
      · rename_i hnone
        simp only [Option.bind_eq_bind, Option.bind_eq_some_iff] at h
        obtain ⟨⟨octets, rest⟩, -, h⟩ := h
        split at h
        · cases h
        · cases h
          exact { names_complete := by simp [names]
                  ofNumber?_eq_none := by rintro _ _ ⟨⟩; exact hnone }

theorem WireRecord.isRead_of_read (h : WireRecord.read message cursor = some (w, after)) :
    w.IsRead := by
  unfold WireRecord.read at h
  simp only [Option.bind_eq_bind, Option.bind_eq_some_iff] at h
  obtain ⟨⟨owner, rest⟩, howner, ⟨type, rest⟩, -, ⟨recordClass, rest⟩, -, ⟨ttl, rest⟩, -,
    ⟨size, rest⟩, -, ⟨data, rest⟩, hdata, heq⟩ := h
  cases heq
  exact ⟨DomainName.isComplete_of_read howner, RecordData.isRead_of_read hdata⟩

/-- What is read many times is read each time. -/
theorem exists_read_of_readMany {α : Type} {read : Octets.Cursor → Option (α × Octets.Cursor)}
    {count : Nat} {xs : List α} (h : readMany read count cursor = some (xs, after)) :
    ∀ x ∈ xs, ∃ before after, read before = some (x, after) := by
  induction count generalizing cursor xs with
  | zero =>
      cases h
      exact fun x hx => absurd hx List.not_mem_nil
  | succ count ih =>
      unfold readMany at h
      simp only [Option.bind_eq_bind, Option.bind_eq_some_iff] at h
      obtain ⟨⟨x, rest⟩, hx, ⟨more, rest⟩, hmore, heq⟩ := h
      cases heq
      exact List.forall_mem_cons.2 ⟨⟨_, _, hx⟩, ih hmore⟩

/-- A message whose questions and records are all read from octets. -/
structure Message.IsReadFrom (octets : List UInt8) (m : Message) : Prop where
  questions : ∀ q ∈ m.questions, ∃ before after, WireQuestion.read octets before = some (q, after)
  records : ∀ w ∈ m.answers ++ m.authorities ++ m.additionals,
    ∃ before after, WireRecord.read octets before = some (w, after)

theorem Message.isReadFrom_of_decode {octets : List UInt8} {m : Message}
    (h : decode octets = .ok m) : IsReadFrom octets m := by
  unfold decode at h
  split at h
  · rename_i read hread
    cases h
    unfold decode? at hread
    simp only [Option.bind_eq_bind, Option.bind_eq_some_iff] at hread
    obtain ⟨⟨id, rest⟩, -, ⟨flags, rest⟩, -, ⟨questionCount, rest⟩, -, ⟨answerCount, rest⟩, -,
      ⟨authorityCount, rest⟩, -, ⟨additionalCount, rest⟩, -, ⟨questions, rest⟩, hquestions,
      ⟨answers, rest⟩, hanswers, ⟨authorities, rest⟩, hauthorities, ⟨additionals, rest⟩,
      hadditionals, options, -, hread⟩ := hread
    split at hread
    · cases hread
      refine ⟨exists_read_of_readMany hquestions, ?_⟩
      simp only [List.forall_mem_append]
      refine ⟨⟨exists_read_of_readMany hanswers, exists_read_of_readMany hauthorities⟩, ?_⟩
      exact fun w hw => exists_read_of_readMany hadditionals w (List.mem_filter.1 hw).1
    · cases hread
  · cases h

theorem WireRecord.IsReceived.isRead (h : w.IsReceived) : w.IsRead := by
  obtain ⟨octets, m, hdecode, hw⟩ := h
  obtain ⟨before, after, hread⟩ := (Message.isReadFrom_of_decode hdecode).records w hw
  exact isRead_of_read hread

/-- The names of the questions of a decoded message are complete. -/
theorem Message.isComplete_of_decode {octets : List UInt8} {m : Message}
    (h : decode octets = .ok m) : ∀ q ∈ m.questions, q.name.isComplete = true := by
  intro q hq
  obtain ⟨before, after, hread⟩ := (isReadFrom_of_decode h).questions q hq
  unfold WireQuestion.read at hread
  simp only [Option.bind_eq_bind, Option.bind_eq_some_iff] at hread
  obtain ⟨⟨name, rest⟩, hname, ⟨type, rest⟩, -, ⟨recordClass, rest⟩, -, heq⟩ := hread
  cases heq
  exact DomainName.isComplete_of_read hname

end Reading

end CachingResolver
