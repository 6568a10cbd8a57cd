import CachingResolver.Proofs.Lookup.Course
import CachingResolver.Proofs.Lookup.Isolation

/-!
# The budget of a lookup

Whatever servers answer, a lookup comes to an end: it takes no more steps than its budget allows and
asks at most once in each of them.  `Environment.counted` is any outside with a count of the
exchanges added to its state, and a lookup is the same with the count as without (`lookup_counted`).

A lookup fails for want of steps exactly when a question is still pending after as many steps as it
may take, all of them without a failure (`run_eq_stepLimit_iff`).
-/

namespace CachingResolver

variable {σ : Type}

/-- An outside that also counts the exchanges. -/
def Environment.counted (env : Environment σ) : Environment (σ × Nat) where
  draw o :=
    let (draw, outside) := env.draw o.1
    (draw, outside, o.2)
  exchange o server query :=
    let (arrival, outside) := env.exchange o.1 server query
    (arrival, outside, o.2 + 1)

/-- A world after a number of exchanges. -/
def World.counted (w : World σ) (exchanges : Nat) : World (σ × Nat) where
  cache := w.cache
  outside := (w.outside, exchanges)

namespace Iterative

variable {env : Environment σ} {port : UInt16} {q : Question} {budget : Nat} {s : Search}
  {w : World σ}

/-- From a search and a world to others by a number of steps, none of which fails. -/
inductive Steps (env : Environment σ) (port : UInt16) :
    Nat → Search → World σ → Search → World σ → Prop
  | none {s : Search} {w : World σ} : Steps env port 0 s w s w
  | more {n : Nat} {s s' t : Search} {w w' v : World σ} {current : Question}
      {pending : PendingStack} (hpop : s.pending.pop? = some (current, pending))
      (hstep : step env port current { s with pending } w = (.ok s', w'))
      (hrest : Steps env port n s' w' t v) : Steps env port (n + 1) s w t v

/-! ### Counting -/

theorem length_runMoves_le : (runMoves env port budget s w).length ≤ budget := by
  induction budget generalizing s w with
  | zero => exact Nat.le_refl 0
  | succ budget ih =>
      unfold runMoves
      cases s.pending.pop? with
      | none => exact Nat.zero_le _
      | some top =>
          obtain ⟨current, pending⟩ := top
          dsimp only
          rw [List.length_cons]
          cases step env port current { s with pending } w with
          | mk result v =>
              cases result with
              | error failure => exact Nat.succ_le_succ (Nat.zero_le _)
              | ok t => exact Nat.succ_le_succ ih

/-- A step asks at most once. -/
theorem step_counted (env : Environment σ) (port : UInt16) (current : Question) (s : Search)
    (w : World σ) (n : Nat) :
    ∃ k ≤ 1, step env.counted port current s (w.counted n) =
      ((step env port current s w).1, (step env port current s w).2.counted (n + k)) := by
  unfold step
  dsimp only [Environment.counted, World.counted]
  cases Search.prepare (env.draw w.outside).1 port current s w.cache with
  | mk preparation cache =>
      cases preparation with
      | settled t => exact ⟨0, Nat.zero_le 1, rfl⟩
      | impossible failure => exact ⟨0, Nat.zero_le 1, rfl⟩
      | ask zone server query => exact ⟨1, Nat.le_refl 1, rfl⟩

/-- A run asks at most as often as it takes steps. -/
theorem run_counted (env : Environment σ) (port : UInt16) (q : Question) (budget : Nat) (s : Search)
    (w : World σ) (n : Nat) :
    ∃ k ≤ (runMoves env port budget s w).length,
      run env.counted port q budget s (w.counted n) =
        ((run env port q budget s w).1, (run env port q budget s w).2.counted (n + k)) := by
  induction budget generalizing s w n with
  | zero => exact ⟨0, Nat.zero_le _, rfl⟩
  | succ budget ih =>
      unfold run runMoves
      cases s.pending.pop? with
      | none => exact ⟨0, Nat.zero_le _, rfl⟩
      | some top =>
          obtain ⟨current, pending⟩ := top
          obtain ⟨k, hk, hstep⟩ := step_counted env port current { s with pending } w n
          dsimp only
          rw [hstep, List.length_cons]
          cases step env port current { s with pending } w with
          | mk result v =>
              cases result with
              | error failure => exact ⟨k, Nat.le_trans hk (Nat.succ_le_succ (Nat.zero_le _)), rfl⟩
              | ok t =>
                  obtain ⟨j, hj, hrun⟩ := ih t v (n + k)
                  refine ⟨k + j, by dsimp only; omega, ?_⟩
                  dsimp only
                  rw [hrun, Nat.add_assoc]

/-- Counting the exchanges changes nothing else. -/
theorem lookup_counted (r : Iterative) (env : Environment σ) (q : Question) (w : World σ) :
    ∃ k ≤ (runMoves env r.port r.maxSteps (.start q) w).length,
      r.lookup env.counted q (w.counted 0) =
        ((r.lookup env q w).1, (r.lookup env q w).2.counted k) := by
  obtain ⟨k, hk, hrun⟩ := run_counted env r.port q r.maxSteps (.start q) w 0
  refine ⟨k, hk, ?_⟩
  unfold lookup
  rw [hrun, Nat.zero_add]
  cases run env r.port q r.maxSteps (.start q) w with
  | mk result v =>
      cases result with
      | error failure => rfl
      | ok s => dsimp only [World.counted]

/-! ### Running out of steps -/

theorem step_ne_stepLimit {current : Question} {text : String} :
    (step env port current s w).1 ≠ .error (.stepLimit text) := by
  intro hstep
  unfold step at hstep
  dsimp only at hstep
  cases hprepare : Search.prepare (env.draw w.outside).1 port current s w.cache with
  | mk preparation cache =>
      rw [hprepare] at hstep
      cases preparation with
      | settled t => cases hstep
      | ask zone server query => cases hstep
      | impossible failure =>
          cases hstep
          have himpossible := congrArg Prod.fst hprepare
          rcases Search.prepare_eq_impossible himpossible with hroot | hunaskable
          · cases hroot
          · rw [Search.prepare_of_unaskable hunaskable] at himpossible
            cases himpossible

theorem steps_succ_iff {n : Nat} {t : Search} {v : World σ} {current : Question}
    {pending : PendingStack} (hpop : s.pending.pop? = some (current, pending)) :
    Steps env port (n + 1) s w t v ↔
      ∃ s' w', step env port current { s with pending } w = (.ok s', w') ∧
        Steps env port n s' w' t v := by
  constructor
  · intro hsteps
    cases hsteps with
    | more hsome hstep hrest =>
        obtain ⟨rfl, rfl⟩ := Prod.mk.inj (Option.some.inj (hpop.symm.trans hsome))
        exact ⟨_, _, hstep, hrest⟩
  · rintro ⟨s', w', hstep, hrest⟩
    exact .more hpop hstep hrest

/-- A run of a number of steps fails for want of further ones exactly when a question is pending
after them. -/
theorem run_eq_stepLimit_iff {text : String} :
    (run env port q budget s w).1 = .error (.stepLimit text) ↔
      text = q.text ∧ ∃ t v, Steps env port budget s w t v ∧ t.pending.isEmpty = false := by
  induction budget generalizing s w with
  | zero =>
      unfold run
      dsimp only
      constructor
      · intro h
        split at h
        · cases h
        · rename_i hpending
          cases h
          exact ⟨rfl, s, w, .none, by simpa using hpending⟩
      · rintro ⟨rfl, t, v, hsteps, hpending⟩
        cases hsteps
        rw [hpending]
        rfl
  | succ budget ih =>
      unfold run
      cases hpop : s.pending.pop? with
      | none =>
          refine ⟨fun h => (by cases h), ?_⟩
          rintro ⟨-, t, v, hsteps, -⟩
          cases hsteps with
          | more hsome => simp [hpop] at hsome
      | some top =>
          obtain ⟨current, pending⟩ := top
          dsimp only
          simp only [steps_succ_iff hpop]
          cases hstep : step env port current { s with pending } w with
          | mk result w' =>
              cases result with
              | error failure =>
                  -- A step that fails takes the run with it, for another reason.
                  constructor
                  · intro h
                    cases h
                    exact absurd (congrArg Prod.fst hstep) step_ne_stepLimit
                  · rintro ⟨-, t, v, ⟨s', w'', hok, -⟩, -⟩
                    cases hok
              | ok s' =>
                  refine ih.trans (and_congr_right fun _ => ?_)
                  constructor
                  · rintro ⟨t, v, hsteps, hpending⟩
                    exact ⟨t, v, ⟨s', w', rfl, hsteps⟩, hpending⟩
                  · rintro ⟨t, v, ⟨s'', w'', hok, hsteps⟩, hpending⟩
                    cases hok
                    exact ⟨t, v, hsteps, hpending⟩

/-- Composing an answer takes no steps. -/
theorem lookup_eq_stepLimit_iff {r : Iterative} {text : String} :
    (r.lookup env q w).1 = .error (.stepLimit text) ↔
      (run env r.port q r.maxSteps (.start q) w).1 = .error (.stepLimit text) := by
  unfold lookup
  cases run env r.port q r.maxSteps (.start q) w with
  | mk result v =>
      cases result with
      | error failure => exact ⟨fun h => by cases h; rfl, fun h => by cases h; rfl⟩
      | ok s =>
          refine ⟨fun h => ?_, fun h => by cases h⟩
          dsimp only at h
          cases hfollow : v.cache.follow? q.type (Cache.maxAliases + 1) q.name with
          | some found =>
              rw [Cache.compose_fst_of_follow? hfollow] at h
              cases h
          | none =>
              rw [Cache.compose_fst_of_follow?_eq_none hfollow] at h
              split at h <;> cases h

/-- Whatever the outside does, a lookup takes no more steps than it may, and no more exchanges than
steps.  It fails for want of steps exactly when it has taken as many as it may, none of them has
failed, and a question is pending; without any steps to take that is all it does. -/
theorem lookup_within_budget (r : Iterative) (env : Environment σ) (q : Question) (w : World σ) :
    (runMoves env r.port r.maxSteps (.start q) w).length ≤ r.maxSteps ∧
      (∃ exchanges ≤ (runMoves env r.port r.maxSteps (.start q) w).length,
        r.lookup env.counted q (w.counted 0) =
          ((r.lookup env q w).1, (r.lookup env q w).2.counted exchanges)) ∧
      (∀ text, (r.lookup env q w).1 = .error (.stepLimit text) ↔
        text = q.text ∧ ∃ s v, Steps env r.port r.maxSteps (.start q) w s v ∧
          s.pending.isEmpty = false) ∧
      ({ r with maxSteps := 0 } : Iterative).lookup env q w = (.error (.stepLimit q.text), w) := by
  refine ⟨length_runMoves_le, lookup_counted r env q w, fun text => ?_, rfl⟩
  rw [lookup_eq_stepLimit_iff, run_eq_stepLimit_iff]

end Iterative

end CachingResolver
