import CachingResolver.Proofs.Lookup.FromCache
import CachingResolver.Proofs.Lookup.Provenance

/-!
# Which failures are put on record

A step gives its question up for one of the reasons of `Cause`, and for no other (`gaveUp_iff`).
Only one of them leaves a trace in the cache: when the question's own exchange brings a message that
refuses it, the failure is put on record for the lifetime of failures, and no record set is added
(`Inquiry.recordsFailure_after`).  All others concern this lookup alone, and the next one may ask
again (`addsNoFailure_of_givesUp`).  A lookup that receives nothing adds nothing to the cache
(`addsNothing_of_receipts_eq_nil`).
-/

namespace CachingResolver

/-! ### What is added to a cache -/

namespace Cache

/-- From one cache to another no record set is added or replaced. -/
def AddsNoRecords (before after : Cache) : Prop :=
  ∀ key e, after.positive.get? key = some e → before.positive.get? key = some e

/-- From one cache to another no failure is added or replaced. -/
def AddsNoFailure (before after : Cache) : Prop :=
  ∀ key e, after.negative.get? key = some e → before.negative.get? key = some e

/-- From one cache to another, the failure of a question is put on record for the lifetime of
failures, and nothing else is added or replaced. -/
structure RecordsFailure (before after : Cache) (q : Question) : Prop where
  recorded : ∃ reason, after.negative.get? (makeKey q.name q.type) =
    some { values := [reason], ttl := before.negativeTtl, storedAt := after.now }
  others : ∀ key e, key ≠ makeKey q.name q.type →
    after.negative.get? key = some e → before.negative.get? key = some e
  addsNoRecords : AddsNoRecords before after

variable {c d e : Cache}

theorem AddsNoRecords.refl (c : Cache) : AddsNoRecords c c :=
  fun _ _ h => h

theorem AddsNoFailure.refl (c : Cache) : AddsNoFailure c c :=
  fun _ _ h => h

theorem AddsNoRecords.trans (hcd : AddsNoRecords c d) (hde : AddsNoRecords d e) :
    AddsNoRecords c e :=
  fun key f hf => hcd key f (hde key f hf)

theorem AddsNoFailure.trans (hcd : AddsNoFailure c d) (hde : AddsNoFailure d e) :
    AddsNoFailure c e :=
  fun key f hf => hcd key f (hde key f hf)

theorem Sweeps.addsNoRecords (h : Sweeps c d) : AddsNoRecords c d :=
  fun _ _ hf => h.positive_get? hf

theorem Sweeps.addsNoFailure (h : Sweeps c d) : AddsNoFailure c d :=
  fun _ _ hf => h.negative_get? hf

end Cache

/-- A message refuses its question: the server will not answer it, does not understand it, or says
that it fails. -/
def Message.Refuses (m : Message) : Prop :=
  ResponseKind.of (some m) = .refused ∨ ResponseKind.of (some m) = .notUnderstood ∨
    ResponseKind.of (some m) = .unknown

namespace Search

open CachingResolver.Cache

variable {draw : Draw} {port : UInt16} {current : Question} {s : Search} {c : Cache} {zone : Zone}
  {m : Message} {target : String}

/-- The outcome of a step is that a search gives its question up, or ends altogether. -/
def GaveUp (s : Search) (current : Question) : Except Failure Search → Prop
  | .error _ => True
  | .ok t => t.failed = current :: s.failed

/-- The servers that a message refers to belong to no zone between the one asked and a name. -/
def RejectsReferral (zone : Zone) (name : String) (m : Message) : Prop :=
  ∀ first ∈ m.referralServers.head?, descends zone name first.name = false

/-! ### The questions that have failed -/

@[simp] theorem failed_fail (s : Search) (q : Question) : (s.fail q).failed = q :: s.failed := rfl

@[simp] theorem failed_settle (s : Search) (q : Question) : (s.settle q).failed = s.failed := rfl

@[simp] theorem chased_settle (s : Search) (q : Question) : (s.settle q).chased = s.chased := rfl

theorem failed_chase_iff :
    (s.chase current target).failed = current :: s.failed ↔
      s.chased.contains (Question.make target current.type) = true := by
  unfold chase
  dsimp only
  split
  · rename_i hloop
    exact iff_of_true rfl hloop
  · rename_i hnew
    exact iff_of_false (List.cons_ne_self _ _).symm hnew

theorem failed_defer_iff :
    (s.defer draw current zone).failed = current :: s.failed ↔
      s.addressQuestions current zone = [] := by
  rcases defer_cases draw s current zone with ⟨hnil, hdefer⟩ | ⟨q, hq, hdefer⟩ <;> rw [hdefer]
  · simp [hnil]
  · simp [List.ne_nil_of_mem hq]

theorem failed_followReferral_iff {kind : ResponseKind} {rttMs : UInt32} :
    (followReferral current zone m kind rttMs s c).1.failed = current :: s.failed ↔
      RejectsReferral zone current.name m := by
  unfold followReferral RejectsReferral
  cases m.referralServers with
  | nil => simp
  | cons first rest =>
      dsimp only
      cases hdescends : descends zone current.name first.name with
      | false => simp [hdescends]
      | true =>
          rw [if_neg (by simp)]
          by_cases hkind : kind = .bareDelegation
          · simp [hkind, hdescends]
          · simp [hkind, hdescends]

/-! ### The kind of a response -/

theorem kindFor_ne_none : kindFor current m ≠ .none := by
  have hof : ResponseKind.of (some m) ≠ .none := by
    unfold ResponseKind.of ResponseKind.ofSections
    dsimp only
    repeat' split
    all_goals exact ResponseKind.noConfusion
  unfold kindFor
  split
  · split <;> exact ResponseKind.noConfusion
  · exact hof

/-- What a response means for a question is a refusal exactly when the message refuses it. -/
theorem refuses_iff (current : Question) :
    m.Refuses ↔ kindFor current m = .refused ∨ kindFor current m = .notUnderstood ∨
      kindFor current m = .unknown := by
  unfold Message.Refuses kindFor
  cases ResponseKind.of (some m) with
  | cname => by_cases htype : current.type = .cname <;> simp [htype]
  | _ => simp

theorem exists_refusal?_iff (current : Question) :
    (∃ reason, refusal? current m = some reason) ↔ m.Refuses := by
  rw [refuses_iff current]
  unfold refusal?
  cases kindFor current m <;> simp

end Search

namespace Inquiry

open CachingResolver.Cache

variable {σ : Type} {env : Environment σ} {port : UInt16} {current : Question} {s : Search}
  {w : World σ} (x : Inquiry env port current s w)

/-- After an alias, a question is given up when no alias of its name can be read, or when the target
closes a loop. -/
theorem failed_taken_of_cname (h : x.kind = .cname) :
    x.taken.1.failed = current :: s.failed ↔
      x.after.alias? current.name = none ∨
        ∃ target e, x.after.alias? current.name = some (target, e) ∧
          s.chased.contains (Question.make target current.type) = true := by
  have hkind : Search.kindFor current x.message = .cname := h
  rw [x.after_eq]
  unfold taken Search.take
  dsimp only
  rw [hkind]
  dsimp only
  generalize Search.storeAnswers current x.zone x.message x.arrival.rttMs x.received = c
  have hsame := (sweeps_readAlias? c current.name).alias?_eq current.name
  rw [readAlias?_fst]
  cases halias : c.alias? current.name with
  | none =>
      rw [halias] at hsame
      simp [hsame]
  | some link =>
      obtain ⟨target, e⟩ := link
      rw [halias] at hsame
      dsimp only
      rw [hsame]
      refine Iff.trans Search.failed_chase_iff ?_
      simp

theorem failed_taken_of_delegation (h : x.kind = .delegation ∨ x.kind = .bareDelegation) :
    x.taken.1.failed = current :: s.failed ↔
      Search.RejectsReferral x.zone current.name x.message := by
  have hkind : Search.kindFor current x.message = .delegation ∨
      Search.kindFor current x.message = .bareDelegation := h
  unfold taken Search.take
  dsimp only
  rcases hkind with hkind | hkind
  · rw [hkind]
    exact Search.failed_followReferral_iff
  · rw [hkind]
    exact Search.failed_followReferral_iff

theorem failed_taken_of_refuses (h : x.message.Refuses) :
    x.taken.1.failed = current :: s.failed := by
  unfold taken Search.take
  dsimp only
  rcases (Search.refuses_iff current).1 h with hkind | hkind | hkind
  all_goals
    rw [hkind]
    rfl

end Inquiry

/-! ### Why a question is given up -/

/-- Why a step gives its question up. -/
inductive Cause where
  | knownFailure
  -- An alias leads to a question that aliases have led to before.
  | aliasLoop
  -- No zone is known.
  | noZone
  -- The name of the question has no wire form.
  | unaskable
  -- No server of the zone can be reached, and there is none whose address can still be looked up.
  | noServer
  | failedExchange
  -- The response begins with an alias, but not with one of the name.
  | strayAlias
  | rejectedReferral
  | refusal
  deriving DecidableEq, Repr

namespace Iterative

open CachingResolver.Cache CachingResolver.Search

variable {σ : Type}

/-- What makes a step give its question up. -/
inductive GivesUp (env : Environment σ) (port : UInt16) (current : Question) (s : Search)
    (w : World σ) : Cause → Prop
  | knownFailure {a : CachedAnswer}
      (hknown : (w.cache.lookup current.name current.type).1 = some a)
      (hnegative : a.isNegative = true) : GivesUp env port current s w .knownFailure
  | cachedLoop {target : String} {e : Entry}
      (hnone : (w.cache.lookup current.name current.type).1 = none) (htype : current.type ≠ .cname)
      (halias : w.cache.alias? current.name = some (target, e))
      (hloop : s.chased.contains (Question.make target current.type) = true) :
      GivesUp env port current s w .aliasLoop
  | noZone (hopen : Unsettled w.cache current)
      (hzone : (w.cache.zoneFor current.name).1.isUnknown = true) :
      GivesUp env port current s w .noZone
  | unaskable (h : Unaskable w.cache current) : GivesUp env port current s w .unaskable
  | noServer (hopen : Unsettled w.cache current)
      (hzone : (w.cache.zoneFor current.name).1.isUnknown = false)
      (hunreachable : (w.cache.zoneFor current.name).1.reachable = [])
      (hquestions : s.addressQuestions current (w.cache.zoneFor current.name).1 = []) :
      GivesUp env port current s w .noServer
  | failedExchange {zone : Zone} {server : Endpoint} {query : Message} {cache : Cache}
      {failure : Failure}
      (hasks : prepare (env.draw w.outside).1 port current s w.cache =
        (.ask zone server query, cache))
      (hfails : (env.exchange (env.draw w.outside).2 server query).1.outcome = .error failure) :
      GivesUp env port current s w .failedExchange
  | receivedLoop (x : Inquiry env port current s w) (hkind : x.kind = .cname) {target : String}
      {e : Entry} (halias : x.after.alias? current.name = some (target, e))
      (hloop : s.chased.contains (Question.make target current.type) = true) :
      GivesUp env port current s w .aliasLoop
  | strayAlias (x : Inquiry env port current s w) (hkind : x.kind = .cname)
      (halias : x.after.alias? current.name = none) : GivesUp env port current s w .strayAlias
  | rejectedReferral (x : Inquiry env port current s w)
      (hkind : x.kind = .delegation ∨ x.kind = .bareDelegation)
      (hrejected : RejectsReferral x.zone current.name x.message) :
      GivesUp env port current s w .rejectedReferral
  | refusal (x : Inquiry env port current s w) (hrefuses : x.message.Refuses) :
      GivesUp env port current s w .refusal

variable {env : Environment σ} {port : UInt16} {current : Question} {s : Search} {w : World σ}

theorem step_of_settled {t : Search}
    (h : (prepare (env.draw w.outside).1 port current s w.cache).1 = .settled t) :
    (step env port current s w).1 = .ok t := by
  unfold step
  dsimp only
  generalize prepare (env.draw w.outside).1 port current s w.cache = prepared at h ⊢
  obtain ⟨preparation, cache⟩ := prepared
  obtain rfl : preparation = _ := h
  rfl

theorem step_of_lookup {a : CachedAnswer}
    (h : (w.cache.lookup current.name current.type).1 = some a) :
    (step env port current s w).1 =
      .ok (if a.isNegative then s.fail current else s.settle current) :=
  step_of_settled (congrArg Prod.fst (prepare_of_lookup h))

theorem step_of_alias? {target : String} {e : Entry}
    (hnone : (w.cache.lookup current.name current.type).1 = none) (htype : current.type ≠ .cname)
    (halias : w.cache.alias? current.name = some (target, e)) :
    (step env port current s w).1 = .ok (s.chase current target) :=
  step_of_settled (congrArg Prod.fst (prepare_of_alias? hnone htype halias))

theorem step_of_impossible {failure : Failure}
    (h : (prepare (env.draw w.outside).1 port current s w.cache).1 = .impossible failure) :
    (step env port current s w).1 = .error failure := by
  unfold step
  dsimp only
  generalize prepare (env.draw w.outside).1 port current s w.cache = prepared at h ⊢
  obtain ⟨preparation, cache⟩ := prepared
  obtain rfl : preparation = _ := h
  rfl

theorem step_of_failedExchange {zone : Zone} {server : Endpoint} {query : Message} {cache : Cache}
    {failure : Failure}
    (hasks : prepare (env.draw w.outside).1 port current s w.cache = (.ask zone server query, cache))
    (hfails : (env.exchange (env.draw w.outside).2 server query).1.outcome = .error failure) :
    (step env port current s w).1 =
      .ok (Search.fail { s with exchanges := s.exchanges + 1 } current) := by
  unfold step conclude
  dsimp only
  rw [hasks]
  dsimp only
  rw [hfails]

theorem gaveUp_of_inquiry (x : Inquiry env port current s w) :
    s.GaveUp current (step env port current s w).1 ↔ x.taken.1.failed = current :: s.failed := by
  rw [x.step_eq]
  rfl

theorem GivesUp.gaveUp {cause : Cause} (h : GivesUp env port current s w cause) :
    s.GaveUp current (step env port current s w).1 := by
  cases h with
  | knownFailure hknown hnegative =>
      rw [step_of_lookup hknown, if_pos hnegative]
      rfl
  | cachedLoop hnone htype halias hloop =>
      rw [step_of_alias? hnone htype halias]
      exact failed_chase_iff.2 hloop
  | noZone hopen hzone =>
      obtain ⟨b, hb, hquery⟩ := prepare_of_unsettled (env.draw w.outside).1 port s hopen
      rw [← hb.zoneFor_fst_eq] at hzone
      rw [step_of_impossible (by rw [hquery, prepareQuery_of_isUnknown hzone])]
      trivial
  | unaskable h =>
      rw [step_of_unaskable h]
      trivial
  | noServer hopen hzone hunreachable hquestions =>
      obtain ⟨b, hb, hquery⟩ := prepare_of_unsettled (env.draw w.outside).1 port s hopen
      rw [← hb.zoneFor_fst_eq] at hzone hunreachable hquestions
      rw [step_of_settled (by rw [hquery, prepareQuery_of_unreachable hzone hunreachable])]
      exact failed_defer_iff.2 hquestions
  | failedExchange hasks hfails =>
      rw [step_of_failedExchange hasks hfails]
      rfl
  | receivedLoop x hkind halias hloop =>
      exact (gaveUp_of_inquiry x).2
        ((x.failed_taken_of_cname hkind).2 (.inr ⟨_, _, halias, hloop⟩))
  | strayAlias x hkind halias =>
      exact (gaveUp_of_inquiry x).2 ((x.failed_taken_of_cname hkind).2 (.inl halias))
  | rejectedReferral x hkind hrejected =>
      exact (gaveUp_of_inquiry x).2 ((x.failed_taken_of_delegation hkind).2 hrejected)
  | refusal x hrefuses => exact (gaveUp_of_inquiry x).2 (x.failed_taken_of_refuses hrefuses)

/-- A message that makes a step give its question up does so by its kind. -/
theorem Inquiry.exists_cause (x : Inquiry env port current s w)
    (h : x.taken.1.failed = current :: s.failed) :
    ∃ cause, GivesUp env port current s w cause := by
  cases hkind : x.kind with
  | answer =>
      have hanswer : kindFor current x.message = .answer := hkind
      unfold Inquiry.taken take at h
      dsimp only at h
      rw [hanswer] at h
      exact absurd h.symm (List.cons_ne_self _ _)
  | cname =>
      rcases (x.failed_taken_of_cname hkind).1 h with halias | ⟨target, e, halias, hloop⟩
      · exact ⟨_, .strayAlias x hkind halias⟩
      · exact ⟨_, .receivedLoop x hkind halias hloop⟩
  | delegation =>
      exact ⟨_, .rejectedReferral x (.inl hkind)
        ((x.failed_taken_of_delegation (.inl hkind)).1 h)⟩
  | bareDelegation =>
      exact ⟨_, .rejectedReferral x (.inr hkind)
        ((x.failed_taken_of_delegation (.inr hkind)).1 h)⟩
  | refused => exact ⟨_, .refusal x ((refuses_iff current).2 (.inl hkind))⟩
  | notUnderstood =>
      exact ⟨_, .refusal x ((refuses_iff current).2 (.inr (.inl hkind)))⟩
  | unknown => exact ⟨_, .refusal x ((refuses_iff current).2 (.inr (.inr hkind)))⟩
  | none => exact absurd hkind kindFor_ne_none

/-- When the cache leaves the question open and a step gives it up, no server could be asked, or the
exchange with one is the cause. -/
theorem exists_cause_of_unsettled (hopen : Unsettled w.cache current)
    (h : s.GaveUp current (step env port current s w).1) :
    ∃ cause, GivesUp env port current s w cause := by
  obtain ⟨b, hb, hquery⟩ := prepare_of_unsettled (env.draw w.outside).1 port s hopen
  have hfst := hb.zoneFor_fst_eq current.name
  cases hzone : (w.cache.zoneFor current.name).1.isUnknown with
  | true => exact ⟨_, .noZone hopen hzone⟩
  | false =>
      by_cases hreachable : (w.cache.zoneFor current.name).1.reachable = []
      · have hsettled : (prepare (env.draw w.outside).1 port current s w.cache).1 =
            .settled (s.defer (env.draw w.outside).1 current (w.cache.zoneFor current.name).1) := by
          rw [← hfst] at hzone hreachable ⊢
          rw [hquery, prepareQuery_of_unreachable hzone hreachable]
        rw [step_of_settled hsettled] at h
        exact ⟨_, .noServer hopen hzone hreachable (failed_defer_iff.1 h)⟩
      · by_cases hwire : DomainName.ofText? (Name.canonical current.name) = none
        · exact ⟨_, .unaskable ⟨hopen, hreachable, hwire⟩⟩
        · obtain ⟨p, hchoice, hp⟩ :=
            prepareQuery_choice (env.draw w.outside).1 port current s b
          rw [hfst] at hchoice
          cases hchoice with
          | unknown hunknown =>
              rw [hzone] at hunknown
              cases hunknown
          | unreachable _ hnone => exact absurd hnone hreachable
          | unwritable _ hnone => exact absurd hnone hwire
          | asked server query =>
              have hasks := hquery.trans hp
              cases houtcome :
                  (env.exchange (env.draw w.outside).2 server query).1.outcome with
              | error failure => exact ⟨_, .failedExchange hasks houtcome⟩
              | ok m =>
                  let x : Inquiry env port current s w := ⟨_, server, query, _, m, hasks, houtcome⟩
                  exact Inquiry.exists_cause x ((gaveUp_of_inquiry x).1 h)

/-- A step gives its question up exactly for one of the causes. -/
theorem gaveUp_iff :
    s.GaveUp current (step env port current s w).1 ↔
      ∃ cause, GivesUp env port current s w cause := by
  refine ⟨fun h => ?_, fun ⟨_, hcause⟩ => hcause.gaveUp⟩
  cases hlookup : (w.cache.lookup current.name current.type).1 with
  | some a =>
      rw [step_of_lookup hlookup] at h
      cases hnegative : a.isNegative with
      | true => exact ⟨_, .knownFailure hlookup hnegative⟩
      | false =>
          -- A question that the cache answers is settled, and has not failed.
          rw [hnegative] at h
          exact absurd h.symm (List.cons_ne_self _ _)
  | none =>
      by_cases htype : current.type = .cname
      · exact exists_cause_of_unsettled ⟨hlookup, .inl htype⟩ h
      · cases halias : w.cache.alias? current.name with
        | none =>
            have hopen : Unsettled w.cache current :=
              ⟨hlookup, .inr ((readAlias?_fst _ _).trans halias)⟩
            exact exists_cause_of_unsettled hopen h
        | some link =>
            obtain ⟨target, e⟩ := link
            rw [step_of_alias? hlookup htype halias] at h
            exact ⟨_, .cachedLoop hlookup htype halias (failed_chase_iff.1 h)⟩

end Iterative

/-! ### What giving up leaves in the cache -/

namespace Inquiry

open CachingResolver.Cache

variable {σ : Type} {env : Environment σ} {port : UInt16} {current : Question} {s : Search}
  {w : World σ} (x : Inquiry env port current s w)

theorem after_of_refusal? {reason : String} (h : Search.refusal? current x.message = some reason) :
    x.after = x.received.setNegative current.name current.type reason := by
  rw [x.after_eq]
  unfold taken Search.take
  unfold Search.refusal? at h
  dsimp only
  cases hkind : Search.kindFor current x.message with
  | unknown | refused | notUnderstood =>
      rw [hkind] at h
      obtain rfl := Option.some.inj h
      rfl
  | answer | cname | delegation | bareDelegation | none =>
      rw [hkind] at h
      cases h

/-- A message that refuses the question puts its failure on record, and adds nothing else. -/
theorem recordsFailure_after (h : x.message.Refuses) : RecordsFailure w.cache x.after current := by
  obtain ⟨reason, hreason⟩ := (Search.exists_refusal?_iff current).2 h
  have hnegative : x.received.negative = x.cache.negative := rfl
  rw [x.after_of_refusal? hreason]
  refine ⟨⟨reason, ?_⟩, fun key e hkey he => ?_, x.sweeps_cache.addsNoRecords⟩
  · rw [← x.sweeps_cache.negativeTtl_eq]
    exact Table.get?_insert_self _ _ _
  · unfold setNegative at he
    rw [Table.get?_insert, if_neg (Ne.symm hkey), hnegative] at he
    exact x.sweeps_cache.negative_get? he

/-- Any other message adds no failure. -/
theorem addsNoFailure_after (h : ¬ x.message.Refuses) : AddsNoFailure w.cache x.after := by
  have hnone : Search.refusal? current x.message = none := by
    by_contra hsome
    exact h ((Search.exists_refusal?_iff current).1 (Option.ne_none_iff_exists'.1 hsome))
  exact fun key e he => x.negative_get?_after hnone he

theorem not_refuses_of_kind (h : x.kind = .answer ∨ x.kind = .cname ∨ x.kind = .delegation ∨
    x.kind = .bareDelegation) : ¬ x.message.Refuses := by
  rw [Search.refuses_iff current]
  show ¬ (x.kind = .refused ∨ x.kind = .notUnderstood ∨ x.kind = .unknown)
  rcases h with h | h | h | h
  all_goals simp [h]

end Inquiry

namespace Iterative

open CachingResolver.Cache CachingResolver.Search

variable {σ : Type} {env : Environment σ} {port : UInt16} {current : Question} {s : Search}
  {w : World σ}

/-- A step that receives no message adds nothing to the cache. -/
theorem addsNothing_of_isEmpty (h : IsEmpty (Inquiry env port current s w)) :
    AddsNoFailure w.cache (step env port current s w).2.cache ∧
      AddsNoRecords w.cache (step env port current s w).2.cache := by
  rcases step_cases env port current s w with ⟨d, elapsed, hsweeps, hcache⟩ | ⟨⟨x⟩⟩
  · rw [hcache]
    exact ⟨hsweeps.addsNoFailure, hsweeps.addsNoRecords⟩
  · exact h.elim x

theorem isEmpty_inquiry_of_forall_ne_ask
    (h : ∀ zone server query, (prepare (env.draw w.outside).1 port current s w.cache).1 ≠
      .ask zone server query) : IsEmpty (Inquiry env port current s w) :=
  ⟨fun x => h _ _ _ (congrArg Prod.fst x.asks)⟩

theorem isEmpty_inquiry_of_not_unsettled (h : ¬ Unsettled w.cache current) :
    IsEmpty (Inquiry env port current s w) := by
  refine isEmpty_inquiry_of_forall_ne_ask fun zone server query hask => ?_
  rcases prepare_cases (env.draw w.outside).1 port current s w.cache with
    ⟨-, t, d, -, hsettled⟩ | ⟨hopen, -⟩
  · rw [hsettled] at hask
    cases hask
  · exact h hopen

/-- A refusal is the only cause that leaves a failure in the cache. -/
theorem addsNoFailure_of_givesUp {cause : Cause} (h : GivesUp env port current s w cause)
    (hcause : cause ≠ .refusal) : AddsNoFailure w.cache (step env port current s w).2.cache := by
  cases h with
  | knownFailure hknown _ =>
      have hsettled : ¬ Unsettled w.cache current := fun hopen => by simp [hopen.1] at hknown
      exact (addsNothing_of_isEmpty (isEmpty_inquiry_of_not_unsettled hsettled)).1
  | cachedLoop _ htype halias _ =>
      have hsettled : ¬ Unsettled w.cache current := by
        rintro ⟨-, hcname | hnone⟩
        · exact htype hcname
        · rw [readAlias?_fst, halias] at hnone
          cases hnone
      exact (addsNothing_of_isEmpty (isEmpty_inquiry_of_not_unsettled hsettled)).1
  | noZone hopen hzone =>
      obtain ⟨b, hb, hquery⟩ := prepare_of_unsettled (env.draw w.outside).1 port s hopen
      rw [← hb.zoneFor_fst_eq] at hzone
      refine (addsNothing_of_isEmpty (isEmpty_inquiry_of_forall_ne_ask fun _ _ _ hask => ?_)).1
      rw [hquery, prepareQuery_of_isUnknown hzone] at hask
      cases hask
  | unaskable h =>
      refine (addsNothing_of_isEmpty (isEmpty_inquiry_of_forall_ne_ask fun _ _ _ hask => ?_)).1
      rw [prepare_of_unaskable h] at hask
      cases hask
  | noServer hopen hzone hunreachable _ =>
      obtain ⟨b, hb, hquery⟩ := prepare_of_unsettled (env.draw w.outside).1 port s hopen
      rw [← hb.zoneFor_fst_eq] at hzone hunreachable
      refine (addsNothing_of_isEmpty (isEmpty_inquiry_of_forall_ne_ask fun _ _ _ hask => ?_)).1
      rw [hquery, prepareQuery_of_unreachable hzone hunreachable] at hask
      cases hask
  | failedExchange hasks hfails =>
      refine (addsNothing_of_isEmpty ⟨fun x => ?_⟩).1
      have hresponds := x.responds
      obtain ⟨hask, -⟩ := Prod.mk.inj (x.asks.symm.trans hasks)
      obtain ⟨-, hserver, hquery⟩ := Preparation.ask.inj hask
      rw [hserver, hquery, hfails] at hresponds
      cases hresponds
  | receivedLoop x hkind | strayAlias x hkind =>
      exact x.addsNoFailure_after (x.not_refuses_of_kind (.inr (.inl hkind)))
  | rejectedReferral x hkind =>
      exact x.addsNoFailure_after (x.not_refuses_of_kind (.inr (.inr hkind)))
  | refusal => exact absurd rfl hcause

theorem recordsFailure_of_refusal (h : GivesUp env port current s w .refusal) :
    RecordsFailure w.cache (step env port current s w).2.cache current := by
  cases h with
  | refusal x hrefuses => exact x.recordsFailure_after hrefuses

/-- A step adds no failure, or that of its question, which was refused. -/
theorem addsNoFailure_or_refusal (env : Environment σ) (port : UInt16) (current : Question)
    (s : Search) (w : World σ) :
    AddsNoFailure w.cache (step env port current s w).2.cache ∨
      GivesUp env port current s w .refusal := by
  rcases step_cases env port current s w with ⟨d, elapsed, hsweeps, hcache⟩ | ⟨⟨x⟩⟩
  · rw [hcache]
    exact .inl hsweeps.addsNoFailure
  · by_cases hrefuses : x.message.Refuses
    · exact .inr (.refusal x hrefuses)
    · exact .inl (x.addsNoFailure_after hrefuses)

end Iterative

namespace Move

open CachingResolver.Cache

variable {σ : Type} {env : Environment σ} {w : World σ} {m : Move} {ms : List Move}

theorem addsNothing_of_receipt?_eq_none (h : m.receipt? env w = none) :
    AddsNoFailure w.cache (m.apply env w).cache ∧ AddsNoRecords w.cache (m.apply env w).cache := by
  cases m with
  | wait seconds => exact ⟨.refl _, .refl _⟩
  | compose q exchanges server =>
      have hsweeps := sweeps_compose w.cache q exchanges server
      exact ⟨hsweeps.addsNoFailure, hsweeps.addsNoRecords⟩
  | step port current s =>
      refine Iterative.addsNothing_of_isEmpty ⟨fun x => ?_⟩
      unfold receipt? at h
      dsimp only at h
      rw [x.response?_eq] at h
      cases h

/-- A course in which no message is received adds nothing to the cache. -/
theorem addsNothing_of_receipts_eq_nil (h : receipts env w ms = []) :
    AddsNoFailure w.cache (course env w ms).cache ∧
      AddsNoRecords w.cache (course env w ms).cache := by
  induction ms generalizing w with
  | nil => exact ⟨.refl _, .refl _⟩
  | cons m ms ih =>
      obtain ⟨hfirst, hrest⟩ := List.append_eq_nil_iff.1 h
      obtain ⟨hnegative, hpositive⟩ :=
        addsNothing_of_receipt?_eq_none (Option.toList_eq_nil_iff.1 hfirst)
      obtain ⟨ihnegative, ihpositive⟩ := ih hrest
      exact ⟨hnegative.trans ihnegative, hpositive.trans ihpositive⟩

end Move

namespace Iterative

open CachingResolver.Cache CachingResolver.Search

variable {σ : Type}

/-- In the course of a lookup, a move adds a failure only when it is a step whose question is
refused; then it records that failure and adds nothing else.  Each step gives its question up
exactly for one of the causes, and the other causes add no failure.  When no exchange brings a
message, the whole lookup adds nothing. -/
theorem failures_recorded_on_refusal_only (r : Iterative) (env : Environment σ) (q : Question)
    (w : World σ) :
    (∀ pre m post, r.moves env q w = pre ++ m :: post →
      AddsNoFailure (Move.course env w pre).cache (m.apply env (Move.course env w pre)).cache ∨
        ∃ port current s, m = .step port current s ∧
          GivesUp env port current s (Move.course env w pre) .refusal) ∧
    (∀ pre port current s post, r.moves env q w = pre ++ .step port current s :: post →
      (s.GaveUp current (step env port current s (Move.course env w pre)).1 ↔
        ∃ cause, GivesUp env port current s (Move.course env w pre) cause) ∧
      ∀ cause, GivesUp env port current s (Move.course env w pre) cause →
        if cause = .refusal then
          RecordsFailure (Move.course env w pre).cache
            (step env port current s (Move.course env w pre)).2.cache current
        else
          AddsNoFailure (Move.course env w pre).cache
            (step env port current s (Move.course env w pre)).2.cache) ∧
    (Move.receipts env w (r.moves env q w) = [] →
      AddsNoFailure w.cache (r.lookup env q w).2.cache ∧
        AddsNoRecords w.cache (r.lookup env q w).2.cache) := by
  refine ⟨fun pre m post _ => ?_, fun pre port current s post _ => ?_, fun hnone => ?_⟩
  · cases m with
    | wait seconds => exact .inl (.refl _)
    | compose q exchanges server => exact .inl (sweeps_compose _ q exchanges server).addsNoFailure
    | step port current s =>
        exact (addsNoFailure_or_refusal env port current s _).imp_right
          fun h => ⟨port, current, s, rfl, h⟩
  · refine ⟨gaveUp_iff, fun cause hcause => ?_⟩
    split
    · rename_i hrefusal
      subst hrefusal
      exact recordsFailure_of_refusal hcause
    · rename_i hother
      exact addsNoFailure_of_givesUp hcause hother
  · rw [lookup_snd]
    exact Move.addsNothing_of_receipts_eq_nil hnone

def refusedMessage : Message :=
  { isResponse := true, code := .refused }

/-- A refusal is put on record; without a response nothing is. -/
theorem refusedMessage_recorded :
    (∃ post, moves (.responding refusedMessage) {} Referral.bankQuestion ⟨Referral.bankCache, ()⟩ =
        .step 53 Referral.bankQuestion { pending := {} } :: post ∧
      RecordsFailure Referral.bankCache (step (.responding refusedMessage) 53 Referral.bankQuestion
        { pending := {} } ⟨Referral.bankCache, ()⟩).2.cache Referral.bankQuestion) ∧
    AddsNoFailure Referral.bankCache
      (lookup {} Move.silence Referral.bankQuestion ⟨Referral.bankCache, ()⟩).2.cache := by
  obtain ⟨zone, server, query, cache, hasks, -⟩ := Inquiry.bankQuestion_asks
  let x : Inquiry (.responding refusedMessage) 53 Referral.bankQuestion { pending := {} }
      ⟨Referral.bankCache, ()⟩ := ⟨zone, server, query, cache, refusedMessage, hasks, rfl⟩
  have hkind : ResponseKind.of (some refusedMessage) = .refused := by decide
  have hcause : GivesUp (.responding refusedMessage) 53 Referral.bankQuestion { pending := {} }
      ⟨Referral.bankCache, ()⟩ .refusal := .refusal x (.inl hkind)
  obtain ⟨post, hpost⟩ : ∃ post, moves (.responding refusedMessage) {} Referral.bankQuestion
      ⟨Referral.bankCache, ()⟩ = .step 53 Referral.bankQuestion { pending := {} } :: post := by
    unfold moves
    dsimp only
    split
    · exact ⟨_, rfl⟩
    · exact ⟨_, rfl⟩
  have hrecords := ((failures_recorded_on_refusal_only {} (.responding refusedMessage)
    Referral.bankQuestion ⟨Referral.bankCache, ()⟩).2.1 [] 53 Referral.bankQuestion
      { pending := {} } post hpost).2 .refusal hcause
  rw [if_pos rfl] at hrecords
  have hsilence : (Move.receipts Move.silence ⟨Referral.bankCache, ()⟩
      (moves Move.silence {} Referral.bankQuestion ⟨Referral.bankCache, ()⟩)).isEmpty = true := by
    decide +kernel
  exact ⟨⟨post, hpost, hrecords⟩, ((failures_recorded_on_refusal_only {} Move.silence
    Referral.bankQuestion ⟨Referral.bankCache, ()⟩).2.2 (List.isEmpty_iff.1 hsilence)).1⟩

end Iterative

end CachingResolver
