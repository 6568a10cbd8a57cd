import CachingResolver.Message.Record

/-!
# Responses

What a response means.  `ResponseKind.of` sorts responses by their code and sections.
`answerChain` selects the answer records that belong to a question: its own records or its alias,
and then those of the alias's target as long as targets lie inside a zone.  All other answer records
are left out.
-/

namespace CachingResolver

inductive ResponseKind where
  | answer
  | cname
  -- Name servers of a lower zone, with addresses.
  | delegation
  -- Name servers of a lower zone, without enough addresses.
  | bareDelegation
  | refused
  | notUnderstood
  | unknown
  | none
  deriving DecidableEq, Repr, Inhabited

namespace ResponseKind

def text : ResponseKind → String
  | answer => "answer"
  | cname => "cname"
  | delegation => "delegation"
  | bareDelegation => "namezone"
  | refused => "refused"
  | notUnderstood => "noedns"
  | unknown => "unknown"
  | none => "nil"

/-- The kind of a response without errors. -/
def ofSections (m : Message) : ResponseKind :=
  match m.answers with
  | first :: _ => if first.type = RecordType.cname.number then cname else answer
  | [] =>
    if !m.authorities.isEmpty && m.authorities.all (·.type == RecordType.ns.number) then
      if m.additionals.length < 2 then bareDelegation else delegation
    else unknown

def of : Option Message → ResponseKind
  | Option.none => none
  | some m =>
    if m.code = .refused then refused
    else if m.code = .formatError then notUnderstood
    else if m.code = .noError then ofSections m
    else unknown

end ResponseKind

def recordsBeside (name : String) (rs : List ResourceRecord) : List ResourceRecord :=
  rs.filter fun r => r.name != name

theorem length_recordsBeside_lt {name : String} {type : RecordType} {rs : List ResourceRecord}
    {r : ResourceRecord} {more : List ResourceRecord} (h : recordsFor name type rs = r :: more) :
    (recordsBeside name rs).length < rs.length := by
  have hr : r ∈ recordsFor name type rs := h ▸ List.mem_cons_self
  simp only [recordsFor, List.mem_filter, Bool.and_eq_true, beq_iff_eq] at hr
  exact List.length_filter_lt_length_iff_exists.2 ⟨r, hr.1, by simp [hr.2.1]⟩

/-- The records of `rs` that belong to a question for `owner`: its own records or its alias, and
then those of the alias's first target, as long as targets lie inside `zone`.  The records of a name
that has been passed are not considered again. -/
def chainFrom (type : RecordType) (zone : String) (owner : String) (rs : List ResourceRecord) :
    List ResourceRecord :=
  let direct := recordsFor owner type rs
  if !direct.isEmpty || type == .cname then direct
  else
    match _ : recordsFor owner .cname rs with
    | [] => []
    | first :: more =>
      let target := Name.canonical first.value
      if Name.isSubdomain target zone then
        first :: more ++ chainFrom type zone target (recordsBeside owner rs)
      else first :: more
termination_by rs.length
decreasing_by exact length_recordsBeside_lt ‹_›

namespace Message

def answerRecords (m : Message) : List ResourceRecord :=
  m.answers.filterMap WireRecord.toRecord?

def authorityRecords (m : Message) : List ResourceRecord :=
  m.authorities.filterMap WireRecord.toRecord?

def additionalRecords (m : Message) : List ResourceRecord :=
  m.additionals.filterMap WireRecord.toRecord?

def answersFor (m : Message) (name : String) (type : RecordType) : List ResourceRecord :=
  recordsFor name type m.answerRecords

/-- The answer records that belong to a question, as far as they lie inside a zone. -/
def answerChain (m : Message) (name : String) (type : RecordType) (zone : String) :
    List ResourceRecord :=
  chainFrom type zone (Name.canonical name) m.answerRecords

def referralServers (m : Message) : List ResourceRecord :=
  m.authorityRecords.filter fun r => r.type == .ns

end Message

end CachingResolver
