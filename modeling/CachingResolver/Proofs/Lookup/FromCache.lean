import CachingResolver.Proofs.Cache.Composing
import CachingResolver.Proofs.Lookup.Step

/-!
# Lookups that the cache decides

When the first part of a step settles a question without asking, the cache answers it or knows it to
fail, or has an alias of its name, or no server of the enclosing zone can be reached (`Settles`).

When the cache decides a question, an iterative lookup of the question settles it in two steps at
most and asks no server (`run_of_decision`).  It also gives the same outcome, unless the question is
known to fail while the aliases of its name lead to cached records: then the short way fails and the
lookup succeeds.
-/

namespace CachingResolver

/-- The state of the outside after some numbers have been drawn. -/
def Environment.afterDraws {σ : Type} (env : Environment σ) : Nat → σ → σ
  | 0, outside => outside
  | n + 1, outside => env.afterDraws n (env.draw outside).2

namespace Search

open CachingResolver.Cache

/-- How the first part of a step settles a question. -/
inductive Settles (draw : Draw) (current : Question) (s : Search) (c : Cache) : Search → Prop
  | found (a : CachedAnswer) (hfound : (c.lookup current.name current.type).1 = some a) :
      Settles draw current s c (if a.isNegative then s.fail current else s.settle current)
  | aliased (target : String) (e : Entry)
      (hnone : (c.lookup current.name current.type).1 = none) (htype : current.type ≠ .cname)
      (halias : c.alias? current.name = some (target, e)) :
      Settles draw current s c (s.chase current target)
  | deferred (hopen : Unsettled c current)
      (hknown : (c.zoneFor current.name).1.isUnknown = false)
      (hnone : (c.zoneFor current.name).1.reachable = []) :
      Settles draw current s c (s.defer draw current (c.zoneFor current.name).1)

variable {draw : Draw} {port : UInt16} {current : Question} {s t : Search} {c d : Cache}

theorem prepare_of_lookup {a : CachedAnswer}
    (h : (c.lookup current.name current.type).1 = some a) :
    prepare draw port current s c =
      (.settled (if a.isNegative then s.fail current else s.settle current),
        (c.lookup current.name current.type).2) := by
  unfold prepare
  dsimp only
  rw [h]

theorem prepare_of_alias? {target : String} {e : Entry}
    (hnone : (c.lookup current.name current.type).1 = none) (htype : current.type ≠ .cname)
    (halias : c.alias? current.name = some (target, e)) :
    prepare draw port current s c =
      (.settled (s.chase current target),
        ((c.lookup current.name current.type).2.readAlias? current.name).2) := by
  have hread := sweeps_lookup c current.name current.type
  unfold prepare
  dsimp only
  rw [hnone]
  dsimp only
  rw [if_neg htype, readAlias?_fst, hread.alias?_eq, halias]

theorem settles_of_unsettled (hopen : Unsettled c current)
    (h : (prepare draw port current s c).1 = .settled t) : Settles draw current s c t := by
  obtain ⟨b, hb, hquery⟩ := prepare_of_unsettled draw port s hopen
  have hzone := hb.zoneFor_fst_eq current.name
  rw [hquery] at h
  cases hknown : (c.zoneFor current.name).1.isUnknown with
  | true =>
      rw [← hzone] at hknown
      rw [prepareQuery_of_isUnknown hknown] at h
      cases h
  | false =>
      -- No server of the zone can be reached, or one would be asked.
      have hnone : (c.zoneFor current.name).1.reachable = [] := by
        obtain ⟨p, hchoice, hp⟩ := prepareQuery_choice draw port current s b
        rw [hp] at h
        rw [show p = .settled t from h, hzone] at hchoice
        cases hchoice with
        | unreachable _ hnone => exact hnone
      have hsettled : (prepareQuery draw port current s b).1 =
          .settled (s.defer draw current (c.zoneFor current.name).1) := by
        rw [← hzone] at hknown hnone ⊢
        exact prepareQuery_of_unreachable hknown hnone
      rw [← Preparation.settled.inj (hsettled.symm.trans h)]
      exact .deferred hopen hknown hnone

theorem settles_of_prepare (h : (prepare draw port current s c).1 = .settled t) :
    Settles draw current s c t := by
  cases hfound : (c.lookup current.name current.type).1 with
  | some a =>
      rw [prepare_of_lookup hfound] at h
      cases h
      exact .found a hfound
  | none =>
      by_cases htype : current.type = .cname
      · exact settles_of_unsettled ⟨hfound, .inl htype⟩ h
      · cases halias : c.alias? current.name with
        | none =>
            exact settles_of_unsettled ⟨hfound, .inr (by rw [readAlias?_fst, halias])⟩ h
        | some link =>
            obtain ⟨target, e⟩ := link
            rw [prepare_of_alias? hfound htype halias] at h
            cases h
            exact .aliased target e hfound htype halias

/-- Reads do not change how the cache settles a question. -/
theorem Settles.of_sweeps (h : Settles draw current s d t) (hsweeps : Sweeps c d) :
    Settles draw current s c t := by
  have hlookup := hsweeps.lookup_fst_eq current.name current.type
  cases h with
  | found a hfound => exact .found a (hlookup.symm.trans hfound)
  | aliased target e hnone htype halias =>
      exact .aliased target e (hlookup.symm.trans hnone) htype
        ((hsweeps.alias?_eq current.name).symm.trans halias)
  | deferred hopen hknown hnone =>
      unfold Unsettled at hopen
      rw [hlookup, hsweeps.readAlias?_fst_eq] at hopen
      rw [hsweeps.zoneFor_fst_eq] at hknown hnone ⊢
      exact .deferred hopen hknown hnone

theorem exchanges_chase (s : Search) (q : Question) (target : String) :
    (s.chase q target).exchanges = s.exchanges := by
  unfold chase
  dsimp only
  split <;> rfl

theorem lastServer_chase (s : Search) (q : Question) (target : String) :
    (s.chase q target).lastServer = s.lastServer := by
  unfold chase
  dsimp only
  split <;> rfl

/-- When nothing else is pending, the target is what is pending then, unless it closes a loop. -/
theorem questions_chase {s : Search} (q : Question) (target : String)
    (h : s.pending.questions = []) :
    (s.chase q target).pending.questions = [] ∨
      (s.chase q target).pending.questions = [.make target q.type] := by
  have hremove : (s.pending.remove q).questions = [] := by
    unfold PendingStack.remove
    rw [h]
    rfl
  unfold chase
  dsimp only
  split
  · exact .inl hremove
  · right
    unfold PendingStack.push PendingStack.contains
    rw [hremove]
    rfl

end Search

namespace Iterative

open CachingResolver.Cache CachingResolver.Search

variable {σ : Type} {env : Environment σ} {port : UInt16} {q : Question} {budget : Nat}
  {s : Search} {w : World σ}

theorem makeKey_make (name : String) (type : RecordType) :
    makeKey (Question.make name type).name (Question.make name type).type = makeKey name type :=
  makeKey_canonical name type

theorem run_of_pending_eq_nil (h : s.pending.questions = []) :
    run env port q budget s w = (.ok s, w) := by
  cases budget with
  | zero => simp [run, PendingStack.isEmpty, h]
  | succ budget => simp [run, PendingStack.pop?, h]

/-- A step that the cache settles leaves the rest of the budget to what is pending then. -/
theorem run_of_settled {current : Question} {rest : List Question} {t : Search} {d : Cache}
    (hpending : s.pending.questions = current :: rest)
    (hprepare : prepare (env.draw w.outside).1 port current { s with pending := ⟨rest⟩ } w.cache =
      (.settled t, d)) :
    run env port q (budget + 1) s w = run env port q budget t ⟨d, (env.draw w.outside).2⟩ := by
  have hpop : s.pending.pop? = some (current, ⟨rest⟩) := by
    unfold PendingStack.pop?
    rw [hpending]
  have hstep : step env port current { s with pending := ⟨rest⟩ } w =
      (.ok t, ⟨d, (env.draw w.outside).2⟩) := by
    unfold step
    dsimp only
    rw [hprepare]
  rw [run, hpop]
  dsimp only
  rw [hstep]

/-- How a run ends that asks no server. -/
structure Quiet (env : Environment σ) (w : World σ) (t : Search) (v : World σ) : Prop where
  reads : Sweeps w.cache v.cache
  outside : ∃ n, v.outside = env.afterDraws n w.outside
  exchanges : t.exchanges = 0
  lastServer : t.lastServer = none

/-- When the only pending question is one that the cache answers or knows to fail, the next step is
the last. -/
theorem run_of_lookup (env : Environment σ) (port : UInt16) (top : Question) {a : CachedAnswer}
    (hpending : s.pending.questions = [q])
    (h : (w.cache.lookup q.name q.type).1 = some a) :
    ∃ t, run env port top (budget + 1) s w =
        (.ok t, ⟨(w.cache.lookup q.name q.type).2, (env.draw w.outside).2⟩) ∧
      t.exchanges = s.exchanges ∧ t.lastServer = s.lastServer := by
  refine ⟨_, (run_of_settled hpending (prepare_of_lookup h)).trans (run_of_pending_eq_nil ?_), ?_⟩
  · cases a.isNegative <;> rfl
  · cases a.isNegative <;> exact ⟨rfl, rfl⟩

/-- When the only pending question leads to an alias, the target of the alias is all that is pending
after the next step, unless it closes a loop. -/
theorem run_of_alias? (env : Environment σ) (port : UInt16) (top : Question) {current : Question}
    {target : String} {e : Entry} (hpending : s.pending.questions = [current])
    (hnone : (w.cache.lookup current.name current.type).1 = none) (htype : current.type ≠ .cname)
    (halias : w.cache.alias? current.name = some (target, e)) :
    ∃ t, run env port top (budget + 1) s w =
        run env port top budget t
          ⟨((w.cache.lookup current.name current.type).2.readAlias? current.name).2,
            (env.draw w.outside).2⟩ ∧
      (t.pending.questions = [] ∨ t.pending.questions = [.make target current.type]) ∧
      t.exchanges = s.exchanges ∧ t.lastServer = s.lastServer :=
  ⟨_, run_of_settled hpending (prepare_of_alias? hnone htype halias), questions_chase _ _ rfl,
    exchanges_chase _ _ _, lastServer_chase _ _ _⟩

/-- A question that the cache decides is settled in two steps at most, without asking a server. -/
theorem run_of_decision {outcome : Except Failure Resolution} (h : Decision w.cache q outcome) :
    ∃ t v, run env port q (budget + 2) (.start q) w = (.ok t, v) ∧ Quiet env w t v := by
  have hone : ∀ a, (w.cache.lookup q.name q.type).1 = some a →
      ∃ t v, run env port q (budget + 2) (.start q) w = (.ok t, v) ∧ Quiet env w t v := by
    intro a ha
    obtain ⟨t, hrun, hexchanges, hserver⟩ := run_of_lookup (s := .start q) env port q rfl ha
    exact ⟨t, _, hrun, ⟨sweeps_lookup _ _ _, ⟨1, rfl⟩, hexchanges, hserver⟩⟩
  cases h with
  | failure hfails =>
      obtain ⟨a, ha, -⟩ := hfails
      exact hone a ha
  | direct hfound => exact hone _ (lookup_eq_some_false_iff.2 hfound)
  | along hnone htype halias hfound =>
      rename_i target e f
      -- The first step puts the target in place of the question, the second one settles it.
      obtain ⟨next, hrun, hpending, hexchanges, hserver⟩ :=
        run_of_alias? (s := .start q) env port q rfl hnone htype halias
      have hreads := (sweeps_lookup w.cache q.name q.type).trans (sweeps_readAlias? _ q.name)
      rw [hrun]
      rcases hpending with hnil | hnext
      · exact ⟨next, _, run_of_pending_eq_nil hnil, ⟨hreads, ⟨1, rfl⟩, hexchanges, hserver⟩⟩
      · have hfound' : (((w.cache.lookup q.name q.type).2.readAlias? q.name).2.lookup
            (Question.make target q.type).name (Question.make target q.type).type).1 =
              some ⟨f, false⟩ := by
          rw [lookup_eq_some_false_iff, makeKey_make, hreads.found?_eq, hfound]
        obtain ⟨t, hrun, hsame⟩ :=
          run_of_lookup (w := ⟨_, (env.draw w.outside).2⟩) env port q hnext hfound'
        exact ⟨t, _, hrun, ⟨hreads.trans (sweeps_lookup _ _ _), ⟨2, rfl⟩,
          hsame.1.trans hexchanges, hsame.2.trans hserver⟩⟩

theorem isCacheHit_of_decision {c : Cache} {resolution : Resolution}
    (h : Decision c q (.ok resolution)) : resolution.isCacheHit = true := by
  cases h <;> rfl

/-- When the cache decides a question, a lookup asks no server.  It gives the same outcome exactly
when the aliases of a name that is known to fail do not lead to cached records. -/
theorem lookup_eq_answerFromCache_iff (r : Iterative) (env : Environment σ) (q : Question)
    (w : World σ) {outcome : Except Failure Resolution} (hsteps : 2 ≤ r.maxSteps)
    (hdecided : (w.cache.answerFromCache q).1 = outcome.map some) :
    (∃ n, (r.lookup env q w).2.outside = env.afterDraws n w.outside) ∧
      (∀ resolution, outcome = .ok resolution → resolution.isCacheHit = true) ∧
      ((r.lookup env q w).1 = outcome ↔
        ∀ failure, outcome = .error failure →
          w.cache.follow? q.type (maxAliases + 1) q.name = none) := by
  have hdecision := decision_of_answerFromCache hdecided
  obtain ⟨budget, hbudget⟩ := Nat.exists_eq_add_of_le' hsteps
  obtain ⟨t, v, hrun, hquiet⟩ : ∃ t v,
      run env r.port q (budget + 2) (.start q) w = (.ok t, v) ∧ Quiet env w t v :=
    run_of_decision hdecision
  have hlookup : r.lookup env q w =
      ((v.cache.compose q 0 none).1, { v with cache := (v.cache.compose q 0 none).2 }) := by
    unfold lookup
    rw [hbudget, hrun, ← hquiet.exchanges, ← hquiet.lastServer]
  rw [hlookup]
  refine ⟨hquiet.outside, ?_, ?_⟩
  · rintro resolution rfl
    exact isCacheHit_of_decision hdecision
  · rw [hquiet.reads.compose_fst_eq]
    exact hdecision.compose_eq_iff

/-! ### Examples -/

def aliasQuestion : Question :=
  .make "alias.example.com." .a

/-- A cache with an alias and the address of its target. -/
def aliasCache : Cache :=
  (({} : Cache).set "alias.example.com." .cname ["web.example.com."] 300 0).set
    "web.example.com." .a ["203.0.113.50"] 300 0

/-- The theorem at work: the lookup gives the alias and then the address. -/
theorem lookup_aliasQuestion :
    (({} : Iterative).lookup (.responding {}) aliasQuestion ⟨aliasCache, ()⟩).1 =
      .ok
        { records :=
            [.make "alias.example.com." 300 .cname "web.example.com.",
             .make "web.example.com." 300 .a "203.0.113.50"]
          isCacheHit := true
          aliases := ["web.example.com."] } := by
  have hdecided : (aliasCache.answerFromCache aliasQuestion).1 =
      (Except.ok
        { records :=
            [.make "alias.example.com." 300 .cname "web.example.com.",
             .make "web.example.com." 300 .a "203.0.113.50"]
          isCacheHit := true
          aliases := ["web.example.com."] } : Except Failure Resolution).map some := by
    decide +kernel
  have hsteps : 2 ≤ ({} : Iterative).maxSteps := by decide
  refine (lookup_eq_answerFromCache_iff {} (.responding {}) aliasQuestion ⟨aliasCache, ()⟩ hsteps
    hdecided).2.2.2 ?_
  intro failure herror
  cases herror

/-- A failure on record for the question, besides the alias. -/
def failedAliasCache : Cache :=
  aliasCache.setNegative "alias.example.com." .a "refused"

/-- The short way fails, and the lookup finds the records. -/
theorem answered_despite_failure :
    ¬ ∀ (r : Iterative) (env : Environment Unit) (q : Question) (w : World Unit)
        (outcome : Except Failure Resolution), 2 ≤ r.maxSteps →
        (w.cache.answerFromCache q).1 = outcome.map some → (r.lookup env q w).1 = outcome := by
  intro hclaim
  have hdecided : (failedAliasCache.answerFromCache aliasQuestion).1 =
      (Except.error (.knownFailure aliasQuestion.text) : Except Failure Resolution).map some := by
    decide +kernel
  have hlookup := hclaim {} (.responding {}) aliasQuestion ⟨failedAliasCache, ()⟩ _ (by decide)
    hdecided
  exact absurd hlookup (by decide +kernel)

end Iterative

end CachingResolver
