import CachingResolver.Proofs.Lookup.Step

/-!
# Which failures end a lookup

A lookup as a whole may fail because it took too many steps, because no zone is known, or because
its question stays without an answer.  Any other failure concerns a single pending question, and a
question that fails should not take the others with it.  It does in one case: when a question comes
up whose name has no wire form and some server could be asked (`run_of_visits_unaskable`).
-/

namespace CachingResolver

/-- The failures of a lookup as a whole, as opposed to those of a single question or exchange. -/
def Failure.ofLookup : Failure → Bool
  | stepLimit _ | rootHints _ | unresolved _ | knownFailure _ => true
  | _ => false

theorem Cache.ofLookup_of_compose_eq_error {c : Cache} {q : Question} {exchanges : Nat}
    {server : Option Endpoint} {failure : Failure}
    (h : (c.compose q exchanges server).1 = .error failure) : failure.ofLookup = true := by
  unfold compose at h
  dsimp only at h
  split at h
  · cases h
  · split at h
    · cases h
      rfl
    · cases h
      rfl

namespace Iterative

open CachingResolver.Search

variable {σ : Type} {env : Environment σ} {port : UInt16}

/-- The questions that a run takes a step on, with the search and the world at that moment. -/
inductive Visits (env : Environment σ) (port : UInt16) :
    (budget : Nat) → Search → World σ → Question → Search → World σ → Prop
  | here {budget : Nat} {s : Search} {w : World σ} {current : Question} {pending : PendingStack}
      (hpop : s.pending.pop? = some (current, pending)) :
      Visits env port (budget + 1) s w current { s with pending } w
  | later {budget : Nat} {s s' t : Search} {w w' v : World σ} {current q : Question}
      {pending : PendingStack} (hpop : s.pending.pop? = some (current, pending))
      (hstep : step env port current { s with pending } w = (.ok s', w'))
      (hrest : Visits env port budget s' w' q t v) :
      Visits env port (budget + 1) s w q t v

/-! ### One step -/

section Step

variable {current : Question} {s : Search} {w : World σ}

theorem step_eq_error {failure : Failure} (h : (step env port current s w).1 = .error failure) :
    failure.ofLookup = true ∨ Unaskable w.cache current := by
  unfold step at h
  dsimp only at h
  cases hprepare : prepare (env.draw w.outside).1 port current s w.cache with
  | mk preparation cache =>
      rw [hprepare] at h
      cases preparation with
      | settled s' => cases h
      | ask zone server query => cases h
      | impossible f =>
          cases h
          have himpossible := congrArg Prod.fst hprepare
          rcases prepare_eq_impossible himpossible with rfl | hunaskable
          · exact .inl rfl
          · exact .inr hunaskable

theorem step_of_unaskable (h : Unaskable w.cache current) :
    (step env port current s w).1 = .error (noWireForm current.name) := by
  have hprepare : (prepare (env.draw w.outside).1 port current s w.cache).1 =
      .impossible (noWireForm current.name) := prepare_of_unaskable h
  unfold step
  dsimp only
  generalize prepare (env.draw w.outside).1 port current s w.cache = prepared at hprepare ⊢
  obtain ⟨preparation, cache⟩ := prepared
  obtain rfl : preparation = _ := hprepare
  rfl

end Step

/-! ### Runs -/

variable {q : Question} {budget : Nat} {s : Search} {w : World σ}

/-- A run that fails for another reason than the lookup as a whole has met a question that cannot be
asked. -/
theorem run_eq_error {failure : Failure}
    (h : (run env port q budget s w).1 = .error failure) :
    failure.ofLookup = true ∨
      ∃ current t v, Visits env port budget s w current t v ∧ Unaskable v.cache current := by
  induction budget generalizing s w with
  | zero =>
      -- Without budget the run ends well or has taken too many steps.
      unfold run at h
      dsimp only at h
      split at h
      · cases h
      · cases h
        exact .inl rfl
  | succ budget ih =>
      unfold run at h
      cases hpop : s.pending.pop? with
      | none =>
          rw [hpop] at h
          cases h
      | some top =>
          obtain ⟨current, pending⟩ := top
          rw [hpop] at h
          dsimp only at h
          cases hstep : step env port current { s with pending } w with
          | mk result w' =>
              rw [hstep] at h
              cases result with
              | error f =>
                  cases h
                  have herror := congrArg Prod.fst hstep
                  rcases step_eq_error herror with hf | hunaskable
                  · exact .inl hf
                  · exact .inr ⟨current, _, w, .here hpop, hunaskable⟩
              | ok s' =>
                  rcases ih h with hf | ⟨r, t, v, hvisits, hunaskable⟩
                  · exact .inl hf
                  · exact .inr ⟨r, t, v, .later hpop hstep hvisits, hunaskable⟩

/-- A question that cannot be asked ends the run, whatever else is pending. -/
theorem run_of_visits_unaskable {current : Question} {t : Search} {v : World σ}
    (h : Visits env port budget s w current t v) (hunaskable : Unaskable v.cache current) :
    (run env port q budget s w).1 = .error (noWireForm current.name) := by
  induction h with
  | @here budget s w current pending hpop =>
      have hstep : (step env port current { s with pending } w).1 =
          .error (noWireForm current.name) := step_of_unaskable hunaskable
      unfold run
      rw [hpop]
      dsimp only
      generalize step env port current { s with pending } w = stepped at hstep ⊢
      obtain ⟨result, w'⟩ := stepped
      obtain rfl : result = _ := hstep
      rfl
  | later hpop hstep _ ih =>
      unfold run
      rw [hpop]
      dsimp only
      rw [hstep]
      exact ih hunaskable

/-- The failures of a lookup are those of its run, and those of composing its answer. -/
theorem lookup_eq_error {r : Iterative} {failure : Failure}
    (h : (r.lookup env q w).1 = .error failure) :
    (run env r.port q r.maxSteps (.start q) w).1 = .error failure ∨ failure.ofLookup = true := by
  unfold lookup at h
  cases hrun : run env r.port q r.maxSteps (.start q) w with
  | mk result w' =>
      rw [hrun] at h
      cases result with
      | error f =>
          cases h
          exact .inl rfl
      | ok s => exact .inr (Cache.ofLookup_of_compose_eq_error h)

theorem lookup_of_run_eq_error {r : Iterative} {failure : Failure}
    (h : (run env r.port q r.maxSteps (.start q) w).1 = .error failure) :
    (r.lookup env q w).1 = .error failure := by
  unfold lookup
  generalize run env r.port q r.maxSteps (.start q) w = ran at h ⊢
  obtain ⟨result, w'⟩ := ran
  obtain rfl : result = _ := h
  rfl

/-- A lookup fails with failures of the lookup as a whole only, exactly when it never takes a step
on a question that cannot be asked. -/
theorem failures_ofLookup_iff (r : Iterative) (env : Environment σ) (q : Question) (w : World σ) :
    (∀ failure, (r.lookup env q w).1 = .error failure → failure.ofLookup = true) ↔
      ∀ current t v, Visits env r.port r.maxSteps (.start q) w current t v →
        ¬ Unaskable v.cache current := by
  constructor
  · intro h current t v hvisits hunaskable
    have hrun := run_of_visits_unaskable (q := q) hvisits hunaskable
    have hfailure := h _ (lookup_of_run_eq_error hrun)
    -- A name without a wire form is no failure of the lookup as a whole.
    cases hfailure
  · intro h failure hlookup
    rcases lookup_eq_error hlookup with hrun | hfailure
    · rcases run_eq_error hrun with hfailure | ⟨current, t, v, hvisits, hunaskable⟩
      · exact hfailure
      · exact absurd hunaskable (h current t v hvisits)
    · exact hfailure

/-! ### A lookup cut short -/

/-- A root server refers to two servers of `example.com.` and gives no addresses.  The name of the
second one has no wire form. -/
def unwritableReferral : Message :=
  { isResponse := true
    authorities :=
      [{ owner := .ofTexts ["example", "com"], ttl := 3600
         data := .ns (.ofTexts ["ns", "good", "test"]) },
       { owner := .ofTexts ["example", "com"], ttl := 3600
         data := .ns (.ofTexts ["a!b", "test"]) }] }

/-- A cache with a root server. -/
def rootCache : Cache :=
  (({} : Cache).set "." .ns ["a.root-servers.net."] 300 0).set
    "a.root-servers.net." .a ["198.51.100.1"] 300 0

/-- The question of the lookup. -/
def exampleQuestion : Question :=
  .make "www.example.com." .a

/-- The second server ends the lookup, although the first one is still pending. -/
theorem aborted_by_unwritable_server :
    ¬ ∀ (r : Iterative) (env : Environment Unit) (q : Question) (w : World Unit),
        (DomainName.ofText? (Name.canonical q.name)).isSome = true →
        ∀ failure, (r.lookup env q w).1 = .error failure → failure.ofLookup = true := by
  intro hclaim
  have hwire : (DomainName.ofText? (Name.canonical exampleQuestion.name)).isSome = true := by
    decide +kernel
  have hfails : (match (lookup {} (.responding unwritableReferral) exampleQuestion
      ⟨rootCache, ()⟩).1 with
      | .error failure => failure.ofLookup
      | .ok _ => true) = false := by decide +kernel
  have hlookup := hclaim {} (.responding unwritableReferral) exampleQuestion ⟨rootCache, ()⟩ hwire
  cases hresult : (lookup {} (.responding unwritableReferral) exampleQuestion
      ⟨rootCache, ()⟩).1 with
  | ok resolution =>
      rw [hresult] at hfails
      cases hfails
  | error failure =>
      rw [hresult] at hfails
      have hfalse : failure.ofLookup = false := hfails
      rw [hlookup failure hresult] at hfalse
      cases hfalse

end Iterative

end CachingResolver
