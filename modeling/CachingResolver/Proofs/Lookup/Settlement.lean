import CachingResolver.Proofs.Lookup.AnswerScope

/-!
# What an answer settles

A question is settled when the cache answers it, when the target of its cached alias is pending, or
when it has failed (`Search.Settled`).  A response that begins with an alias always settles its
question (`settled_of_cname`).  One that begins with another record takes the question off the stack
without a look at what it brought, so that the question is settled only if that is to the point.
-/

namespace CachingResolver

namespace PendingStack

@[simp] theorem contains_push_self (s : PendingStack) (q : Question) :
    (s.push q).contains q = true := by
  unfold push
  split
  · assumption
  · simp [contains]

end PendingStack

namespace Search

open CachingResolver.Cache

/-- The cache answers a question, or the target of its cached alias is pending, or it has failed. -/
def Settled (s : Search) (c : Cache) (q : Question) : Prop :=
  (c.found? (makeKey q.name q.type)).isSome = true ∨
    ((c.readAlias? q.name).1.any fun link =>
      s.pending.contains (Question.make link.1 q.type)) = true ∨
    q ∈ s.failed

instance (s : Search) (c : Cache) (q : Question) : Decidable (Settled s c q) :=
  inferInstanceAs (Decidable (_ ∨ _ ∨ _))

variable {s : Search} {c : Cache} {q : Question}

theorem settled_of_mem_failed (h : q ∈ s.failed) : Settled s c q :=
  .inr (.inr h)

theorem mem_failed_fail (s : Search) (q : Question) : q ∈ (s.fail q).failed :=
  List.mem_cons_self

/-- Following an alias settles the question: its target is pending, or closes a loop. -/
theorem settled_chase {target : String} {e : Entry}
    (h : (c.readAlias? q.name).1 = some (target, e)) : Settled (s.chase q target) c q := by
  unfold chase
  dsimp only
  split
  · exact settled_of_mem_failed (mem_failed_fail s q)
  · refine .inr (.inl ?_)
    rw [h]
    exact PendingStack.contains_push_self _ _

end Search

namespace Inquiry

open CachingResolver.Cache

variable {σ : Type} {env : Environment σ} {port : UInt16} {current : Question} {s : Search}
  {w : World σ} (x : Inquiry env port current s w)

/-- The answer section says something about the question itself. -/
def Answers : Prop :=
  recordsFor (Name.canonical current.name) current.type x.message.answerRecords ≠ []

/-- The answer section has an alias of the name, the cache can answer with it, and the question for
its target was pending already. -/
def LeadsToPending : Prop :=
  ∃ first more,
    recordsFor (Name.canonical current.name) .cname x.message.answerRecords = first :: more ∧
      x.cache.NoFailure (makeKey current.name .cname) ∧
      (s.pending.remove current).contains (Question.make first.value current.type) = true

/-! ### What can be read after an answer -/

section Answer

variable (h : x.kind = .answer ∨ x.kind = .cname)

include h

/-- A key of which the answer section says nothing is not written. -/
theorem not_writes_of_recordsFor_eq_nil {name : String} {type : RecordType}
    (hnil : recordsFor (Name.canonical name) type x.message.answerRecords = []) :
    ¬ x.Writes (makeKey name type) := by
  refine x.not_writes_of_answer h fun g hg hkey => ?_
  obtain ⟨r, hr, rfl⟩ := x.exists_of_mem_stored h hg
  obtain ⟨hmem, -⟩ := mem_chainFrom hr
  obtain ⟨hname, htype⟩ := makeKey_inj.1 hkey
  have hcanonical : Name.canonical r.name = r.name := Message.isCanonical_of_mem_filterMap hmem
  have hrecord : r ∈ recordsFor (Name.canonical name) type x.message.answerRecords :=
    mem_recordsFor.2 ⟨hmem, (hname.trans hcanonical).symm, htype.symm⟩
  rw [hnil] at hrecord
  cases hrecord

/-- Records that are selected and owned by the name can be read under its key, unless a failure is
on record for it. -/
theorem found?_after_of_recordsFor {type : RecordType} {first : ResourceRecord}
    {more : List ResourceRecord}
    (hfirst : recordsFor (Name.canonical current.name) type x.message.answerRecords = first :: more)
    (hchain : first ∈ x.message.answerChain current.name current.type x.zone.name) {e : Entry} :
    x.after.found? (makeKey current.name type) = some e ↔
      x.cache.NoFailure (makeKey current.name type) ∧
        x.entryOf (RecordSet.gather (Name.canonical current.name) type x.message.answerRecords) =
          e := by
  have hmem : first ∈ recordsFor (Name.canonical current.name) type x.message.answerRecords :=
    hfirst ▸ List.mem_cons_self
  obtain ⟨-, hname, htype⟩ := mem_recordsFor.1 hmem
  have hstored : RecordSet.gather (Name.canonical current.name) type x.message.answerRecords ∈
      x.stored := by
    rw [x.stored_eq h, ← hname, ← htype]
    exact gather_mem_groups_chainFrom hchain
  have hkey : (RecordSet.gather (Name.canonical current.name) type x.message.answerRecords).key =
      makeKey current.name type := makeKey_canonical _ _
  have hfound := x.found?_after_of_mem_stored hstored (e := e)
  rwa [hkey] at hfound

/-- The question can be read afterwards exactly when the answer section says something about it. -/
theorem isSome_found?_after_iff :
    (x.after.found? (makeKey current.name current.type)).isSome = true ↔ x.Answers := by
  constructor
  · intro hsome hnil
    have hvacant := x.vacant_after (x.not_writes_of_recordsFor_eq_nil h hnil) x.vacant_received
    rw [found?_eq_none_of_vacant hvacant] at hsome
    cases hsome
  · intro hanswers
    obtain ⟨first, more, hfirst⟩ := List.exists_cons_of_ne_nil hanswers
    have hchain : first ∈ x.message.answerChain current.name current.type x.zone.name := by
      unfold Message.answerChain
      rw [chainFrom_of_direct (.inl hanswers), hfirst]
      exact List.mem_cons_self
    have hfound := (x.found?_after_of_recordsFor h hfirst hchain).2 ⟨x.vacant_received.1, rfl⟩
    rw [hfound]
    rfl

/-- When the answer section says nothing about the question itself, the alias that can be read
afterwards is that of the answer section. -/
theorem readAlias?_after_iff (hnil : ¬ x.Answers) {target : String} :
    (∃ e, (x.after.readAlias? current.name).1 = some (target, e)) ↔
      ∃ first more,
        recordsFor (Name.canonical current.name) .cname x.message.answerRecords = first :: more ∧
          x.cache.NoFailure (makeKey current.name .cname) ∧ first.value = target := by
  have hnil : recordsFor (Name.canonical current.name) current.type x.message.answerRecords = [] :=
    not_not.1 hnil
  rw [readAlias?_fst]
  unfold alias?
  cases hcname : recordsFor (Name.canonical current.name) .cname x.message.answerRecords with
  | nil =>
      -- No alias came, and none was there before.
      have hwrites := x.not_writes_of_recordsFor_eq_nil h hcname
      have hnone : ∀ e, x.after.found? (makeKey current.name .cname) = some e → e.values = [] := by
        intro e he
        by_cases htype : current.type = .cname
        · have hvacant := x.vacant_after hwrites (htype ▸ x.vacant_received)
          rw [found?_eq_none_of_vacant hvacant] at he
          cases he
        · exact values_eq_nil_of_hidden (x.hidden_after hwrites (x.hidden_received htype)) he
      cases he : x.after.found? (makeKey current.name .cname) with
      | none => simp
      | some e => simp [hnone e he]
  | cons first more =>
      have hchain : first ∈ x.message.answerChain current.name current.type x.zone.name :=
        mem_chainFrom_of_cname hnil (hcname ▸ List.mem_cons_self)
      have hhead := RecordSet.head?_values_gather hcname
      have hread := fun e => x.found?_after_of_recordsFor h hcname hchain (e := e)
      have hvalues : (x.entryOf (RecordSet.gather (Name.canonical current.name) .cname
          x.message.answerRecords)).values.head? = some first.value := hhead
      constructor
      · rintro ⟨e, he⟩
        obtain ⟨f, hf, hlink⟩ := Option.bind_eq_some_iff.1 he
        obtain ⟨hnone, rfl⟩ := (hread f).1 hf
        rw [hvalues] at hlink
        exact ⟨first, more, rfl, hnone, (Prod.mk.inj (Option.some.inj hlink)).1⟩
      · rintro ⟨_, _, heq, hnone, rfl⟩
        obtain ⟨rfl, rfl⟩ := List.cons.inj heq
        rw [(hread _).2 ⟨hnone, rfl⟩]
        exact ⟨_, by rw [Option.bind_some, hvalues]; rfl⟩

theorem pending_alias_after_iff (hnil : ¬ x.Answers) :
    ((x.after.readAlias? current.name).1.any fun link =>
        (s.pending.remove current).contains (Question.make link.1 current.type)) = true ↔
      x.LeadsToPending := by
  rw [Option.any_eq_true]
  constructor
  · rintro ⟨⟨target, e⟩, hlink, hpending⟩
    obtain ⟨first, more, hfirst, hnone, rfl⟩ := (x.readAlias?_after_iff h hnil).1 ⟨e, hlink⟩
    exact ⟨first, more, hfirst, hnone, hpending⟩
  · rintro ⟨first, more, hfirst, hnone, hpending⟩
    obtain ⟨e, hlink⟩ := (x.readAlias?_after_iff h hnil).2 ⟨first, more, hfirst, hnone, rfl⟩
    exact ⟨(first.value, e), hlink, hpending⟩

end Answer

/-! ### Settlement -/

theorem taken_of_answer (h : x.kind = .answer) :
    x.taken.1.pending = s.pending.remove current ∧ x.taken.1.failed = s.failed := by
  have hkind : Search.kindFor current x.message = .answer := h
  unfold taken Search.take
  dsimp only
  rw [hkind]
  exact ⟨rfl, rfl⟩

/-- A response that begins with an alias settles its question. -/
theorem settled_of_cname (h : x.kind = .cname) : Search.Settled x.taken.1 x.taken.2 current := by
  have hkind : Search.kindFor current x.message = .cname := h
  unfold taken Search.take
  dsimp only
  rw [hkind]
  dsimp only
  generalize Search.storeAnswers current x.zone x.message x.arrival.rttMs x.received = c
  have hsame := (sweeps_readAlias? c current.name).readAlias?_fst_eq current.name
  cases hlink : (c.readAlias? current.name).1 with
  | none => exact Search.settled_of_mem_failed (Search.mem_failed_fail _ _)
  | some link =>
      obtain ⟨target, e⟩ := link
      exact Search.settled_chase (hsame.trans hlink)

/-- After a response with answers the question is settled exactly when the response begins with an
alias or says something about the question itself, when the question has failed before, or when the
target of its alias was pending before. -/
theorem settled_after_iff (h : x.kind = .answer ∨ x.kind = .cname) :
    (∃ t, (Iterative.step env port current s w).1 = .ok t ∧ Search.Settled t x.after current) ↔
      x.kind = .cname ∨ x.Answers ∨ current ∈ s.failed ∨ x.LeadsToPending := by
  have hstep : (∃ t, (Iterative.step env port current s w).1 = .ok t ∧
      Search.Settled t x.after current) ↔ Search.Settled x.taken.1 x.after current := by
    rw [x.step_eq]
    simp
  rw [hstep]
  rcases h with hanswer | hcname
  · obtain ⟨hpending, hfailed⟩ := x.taken_of_answer hanswer
    have hkind : x.kind ≠ .cname := by
      rw [hanswer]
      decide
    have hfound := x.isSome_found?_after_iff (.inl hanswer)
    unfold Search.Settled
    rw [hpending, hfailed, hfound]
    by_cases hanswers : x.Answers
    · exact ⟨fun _ => .inr (.inl hanswers), fun _ => .inl hanswers⟩
    · rw [x.pending_alias_after_iff (.inl hanswer) hanswers]
      constructor
      · rintro (hanswers | hleads | hmem)
        · exact .inr (.inl hanswers)
        · exact .inr (.inr (.inr hleads))
        · exact .inr (.inr (.inl hmem))
      · rintro (hcname | hanswers | hmem | hleads)
        · exact absurd hcname hkind
        · exact .inl hanswers
        · exact .inr (.inr hmem)
        · exact .inr (.inl hleads)
  · have hsettled := x.settled_of_cname hcname
    rw [x.after_eq]
    exact ⟨fun _ => .inl hcname, fun _ => hsettled⟩

/-- The theorem at work: the answer with other matter in it begins with the alias. -/
theorem settled_mixedAnswer :
    ∃ x : Inquiry (.responding mixedAnswer) 53 Referral.bankQuestion { pending := {} }
        ⟨Referral.bankCache, ()⟩,
      x.kind = .cname ∧
        ∃ t, (Iterative.step (.responding mixedAnswer) 53 Referral.bankQuestion { pending := {} }
          ⟨Referral.bankCache, ()⟩).1 = .ok t ∧ Search.Settled t x.after Referral.bankQuestion := by
  obtain ⟨zone, server, query, cache, hasks, -⟩ := bankQuestion_asks
  have hkind : Search.kindFor Referral.bankQuestion mixedAnswer = .cname := by decide +kernel
  let x : Inquiry (.responding mixedAnswer) 53 Referral.bankQuestion { pending := {} }
      ⟨Referral.bankCache, ()⟩ := ⟨zone, server, query, cache, mixedAnswer, hasks, rfl⟩
  exact ⟨x, hkind, (x.settled_after_iff (.inr hkind)).2 (.inl hkind)⟩

/-! ### An answer that begins with something else -/

/-- The same records, but the addresses that nobody asked for come first. -/
def misorderedAnswer : Message :=
  { mixedAnswer with
    answers :=
      [{ owner := .ofTexts ["www", "bank", "test"], ttl := 300, data := .a ⟨198, 51, 100, 66⟩ },
       { owner := .ofTexts ["www", "sub", "example", "com"], ttl := 300
         data := .cname (.ofTexts ["web", "example", "com"]) },
       { owner := .ofTexts ["web", "example", "com"], ttl := 300, data := .a ⟨203, 0, 113, 50⟩ }] }

/-- The alias is stored, but its target is not put on the stack, and the question has not failed. -/
theorem unsettled_misorderedAnswer :
    ¬ ∀ (env : Environment Unit) (port : UInt16) (current : Question) (s : Search) (w : World Unit)
        (x : Inquiry env port current s w), x.kind = .answer ∨ x.kind = .cname →
        ∃ t, (Iterative.step env port current s w).1 = .ok t ∧
          Search.Settled t x.after current := by
  intro hclaim
  obtain ⟨zone, server, query, cache, hasks, -⟩ := bankQuestion_asks
  have hkind : Search.kindFor Referral.bankQuestion misorderedAnswer = .answer := by
    decide +kernel
  let x : Inquiry (.responding misorderedAnswer) 53 Referral.bankQuestion { pending := {} }
      ⟨Referral.bankCache, ()⟩ := ⟨zone, server, query, cache, misorderedAnswer, hasks, rfl⟩
  obtain ⟨t, hstep, hsettled⟩ := hclaim _ _ _ _ _ x (.inl hkind)
  have hunsettled : (match (Iterative.step (.responding misorderedAnswer) 53 Referral.bankQuestion
      { pending := {} } ⟨Referral.bankCache, ()⟩) with
      | (.ok t, w) => decide (Search.Settled t w.cache Referral.bankQuestion)
      | (.error _, _) => true) = false := by decide +kernel
  have hdecide : decide (Search.Settled t x.after Referral.bankQuestion) = false := by
    unfold after
    generalize Iterative.step (.responding misorderedAnswer) 53 Referral.bankQuestion
      { pending := {} } ⟨Referral.bankCache, ()⟩ = stepped at hstep hunsettled ⊢
    obtain ⟨result, w⟩ := stepped
    obtain rfl : result = .ok t := hstep
    exact hunsettled
  exact of_decide_eq_false hdecide hsettled

end Inquiry

end CachingResolver
