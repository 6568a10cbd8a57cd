import CachingResolver.Lookup.Answering
import CachingResolver.Proofs.Cache.Composing

/-!
# Admission of questions

Questions that are in progress side by side.  A question arrives and is admitted or refused, it is
looked up in the cache, and it is settled by the resolver when the cache did not decide it.  These
are steps of their own, so anything can happen to other questions in between; `answerTogether` takes
them one after the other, which is `Resolver.answer` (`run_answerTogether`).

Whatever the order of the steps and whatever the resolver says, the questions in progress are those
that the admission counts (`Balanced`), and one more is refused exactly when their number has
reached the limit.  A question that is refused changes nothing, and one that is answered gives back
what its admission took, on every way out (`admission_exact`).
-/

namespace CachingResolver

namespace Admission

variable {a b : Admission}

theorem admit?_eq_none_iff : a.admit? = none ↔ a.available = 0 := by
  have hle := a.inProgress_le
  unfold admit? available
  split <;> simp <;> omega

theorem limit_of_admit? (h : a.admit? = some b) : b.limit = a.limit := by
  unfold admit? at h
  split at h
  · cases h
    rfl
  · cases h

theorem inProgress_of_admit? (h : a.admit? = some b) : b.inProgress = a.inProgress + 1 := by
  unfold admit? at h
  split at h
  · cases h
    rfl
  · cases h

theorem ofLimit?_eq_none_iff {limit : Nat} : ofLimit? limit = none ↔ maxLimit < limit := by
  unfold ofLimit?
  split <;> simp <;> omega

theorem of_ofLimit? {limit : Nat} (h : ofLimit? limit = some a) :
    a.limit = limit ∧ a.inProgress = 0 := by
  unfold ofLimit? at h
  split at h
  · cases h
    exact ⟨rfl, rfl⟩
  · cases h

/-- A question that is admitted and then released leaves the admission as it was. -/
theorem release_of_admit? (h : a.admit? = some b) : b.release = a := by
  unfold admit? at h
  split at h
  · cases h
    rfl
  · cases h

theorem begin_of_admit?_eq_none (h : a.admit? = none) (q : Question) (c : Cache) :
    a.begin q c = (.finished (.error .overloaded), a, c) := by
  unfold begin
  rw [h]

/-- The cache never refuses a question for the number of those in progress. -/
theorem answerFromCache_ne_overloaded (c : Cache) (q : Question) :
    (c.answerFromCache q).1 ≠ .error .overloaded := by
  unfold Cache.answerFromCache
  dsimp only
  cases (c.lookup q.name q.type).1 with
  | some a =>
      dsimp only
      split <;> exact nofun
  | none =>
      dsimp only
      split
      · exact nofun
      · split <;> exact nofun

/-- A question is refused at its arrival exactly when no other would be admitted. -/
theorem begin_eq_overloaded_iff (q : Question) (c : Cache) :
    (a.begin q c).1 = .finished (.error .overloaded) ↔ a.available = 0 := by
  rw [← admit?_eq_none_iff]
  constructor
  · intro h
    unfold begin at h
    cases hplace : a.admit? with
    | none => rfl
    | some admitted =>
        rw [hplace] at h
        dsimp only at h
        have hcache := answerFromCache_ne_overloaded c q
        split at h
        · rename_i heq
          rw [heq] at hcache
          cases h
          exact absurd rfl hcache
        · cases h
        · cases h
  · intro h
    rw [begin_of_admit?_eq_none h]

end Admission

/-- A question gives back what its admission took, on every way out. -/
theorem Resolver.admission_answer {σ : Type} (r : Resolver) (env : Environment σ) (a : Admission)
    (q : Question) (w : World σ) : (r.answer env a q w).2.1 = a := by
  unfold Resolver.answer Admission.begin
  cases hplace : a.admit? with
  | none => rfl
  | some admitted =>
      have hback := Admission.release_of_admit? hplace
      rcases w.cache.answerFromCache q with ⟨failure | (_ | resolution), cache⟩ <;> exact hback

/-- How far a question in progress has got. -/
inductive Stage where
  | admitted
  -- The cache did not decide it.
  | asking
  deriving DecidableEq, Repr

/-- A question in progress. -/
structure Job where
  question : Question
  stage : Stage := .admitted
  deriving DecidableEq, Repr

/-- The questions in progress, in the order of their arrival, and what they share. -/
structure Service (σ : Type) where
  admission : Admission
  jobs : List Job := []
  world : World σ

namespace Service

variable {σ : Type}

/-- What can happen while questions are in progress. -/
inductive Event (σ : Type) where
  | arrive (q : Question)
  -- The job at a place is looked up in the cache.
  | consult (i : Nat)
  -- The resolver has come to an end with the job at a place, and left the world as it is now.
  | settle (i : Nat) (result : Except Failure Resolution) (world : World σ)
  -- The world changes in the middle of a lookup, or by itself.
  | drift (world : World σ)

/-- The job at a place is no longer in progress. -/
def finish (s : Service σ) (i : Nat) : Service σ :=
  { s with admission := s.admission.release, jobs := s.jobs.eraseIdx i }

/-- An event that does not apply to the job at its place, or to which there is no job, changes
nothing. -/
def apply (s : Service σ) : Event σ → Service σ
  | .arrive q =>
    match s.admission.admit? with
    | none => s
    | some admitted => { s with admission := admitted, jobs := s.jobs ++ [{ question := q }] }
  | .consult i =>
    match s.jobs[i]? with
    | some ⟨q, .admitted⟩ =>
      let (decision, cache) := s.world.cache.answerFromCache q
      let s := { s with world := { s.world with cache } }
      match decision with
      | .ok none => { s with jobs := s.jobs.set i ⟨q, .asking⟩ }
      | _ => s.finish i
    | _ => s
  | .settle i _ world =>
    match s.jobs[i]? with
    | some ⟨_, .asking⟩ => { s with world }.finish i
    | _ => s
  | .drift world => { s with world }

def run (s : Service σ) (events : List (Event σ)) : Service σ :=
  events.foldl apply s

/-- What the one who asked is told at an event, if anything. -/
def outcome? (s : Service σ) : Event σ → Option (Except Failure Resolution)
  | .arrive _ =>
    match s.admission.admit? with
    | none => some (.error .overloaded)
    | some _ => none
  | .consult i =>
    match s.jobs[i]? with
    | some ⟨q, .admitted⟩ =>
      match (s.world.cache.answerFromCache q).1 with
      | .ok none => none
      | .ok (some resolution) => some (.ok resolution)
      | .error failure => some (.error failure)
    | _ => none
  | .settle i result _ =>
    match s.jobs[i]? with
    | some ⟨_, .asking⟩ => some result
    | _ => none
  | .drift _ => none

/-- What is told in the course of some events, in this order. -/
def outcomes (s : Service σ) : List (Event σ) → List (Except Failure Resolution)
  | [] => []
  | event :: events => (s.outcome? event).toList ++ (s.apply event).outcomes events

/-! ### One question after the other -/

/-- A question arrives and is looked up in the cache before anything else happens. -/
def take (s : Service σ) (q : Question) : Service σ :=
  match s.admission.begin q s.world.cache with
  | (.finished _, admission, cache) => { s with admission, world := { s.world with cache } }
  | (.waiting, admission, cache) =>
    { s with
      admission
      jobs := s.jobs ++ [{ question := q, stage := .asking }]
      world := { s.world with cache } }

/-- To take a question in is to let it arrive and to look it up in the cache.  A question that this
finishes is not in progress afterwards. -/
theorem run_arrive_consult (s : Service σ) (q : Question) :
    s.run [.arrive q, .consult s.jobs.length] = s.take q := by
  unfold take Admission.begin
  cases hplace : s.admission.admit? with
  | none => simp [run, apply, hplace]
  | some admitted =>
      rcases hdecision : s.world.cache.answerFromCache q with ⟨decision, cache⟩
      rcases decision with failure | (_ | resolution) <;>
        simp [run, apply, finish, hplace, hdecision, List.eraseIdx_append_of_length_le]

/-- All that happens to a question when nothing else happens before its end.  It is the last of the
jobs, if it is admitted. -/
def answerTogether (s : Service σ) (r : Resolver) (env : Environment σ) (q : Question) :
    List (Event σ) :=
  let read := { s.world with cache := (s.world.cache.answerFromCache q).2 }
  let (result, world) := r.lookup env q read
  [.arrive q, .consult s.jobs.length, .settle s.jobs.length result world]

/-- Answering a question from its arrival to its end is to take its events one after the other.  The
question is told one thing, and the other jobs stay as they are. -/
theorem run_answerTogether (s : Service σ) (r : Resolver) (env : Environment σ) (q : Question) :
    s.run (s.answerTogether r env q) =
        { s with
          admission := (r.answer env s.admission q s.world).2.1
          world := (r.answer env s.admission q s.world).2.2 } ∧
      s.outcomes (s.answerTogether r env q) = [(r.answer env s.admission q s.world).1] := by
  unfold answerTogether Resolver.answer Admission.begin
  cases hplace : s.admission.admit? with
  | none => simp [run, apply, outcomes, outcome?, hplace]
  | some admitted =>
      -- The job is admitted as the last one, so its place is the number of those before it.
      rcases hdecision : s.world.cache.answerFromCache q with ⟨decision, cache⟩
      rcases decision with failure | (_ | resolution) <;>
        simp [run, apply, outcomes, outcome?, finish, hplace, hdecision,
          List.eraseIdx_append_of_length_le]

/-! ### The count of the questions in progress -/

/-- The jobs are what the admission counts. -/
structure Balanced (limit : Nat) (s : Service σ) : Prop where
  limit_eq : s.admission.limit = limit
  inProgress_eq : s.admission.inProgress = s.jobs.length

namespace Balanced

variable {limit : Nat} {s : Service σ}

theorem available_add (h : Balanced limit s) : s.admission.available + s.jobs.length = limit := by
  have hle := s.admission.inProgress_le
  have hlimit := h.limit_eq
  have hjobs := h.inProgress_eq
  unfold Admission.available
  omega

theorem available_eq_zero_iff (h : Balanced limit s) :
    s.admission.available = 0 ↔ s.jobs.length = limit := by
  have hadd := h.available_add
  omega

theorem withWorld (h : Balanced limit s) (world : World σ) : Balanced limit { s with world } :=
  ⟨h.limit_eq, h.inProgress_eq⟩

theorem finish (h : Balanced limit s) {i : Nat} (hi : i < s.jobs.length) :
    Balanced limit (s.finish i) where
  limit_eq := h.limit_eq
  inProgress_eq := by
    show s.admission.inProgress - 1 = (s.jobs.eraseIdx i).length
    rw [List.length_eraseIdx_of_lt hi, h.inProgress_eq]

/-- One event keeps the balance. -/
theorem apply (h : Balanced limit s) (event : Event σ) : Balanced limit (s.apply event) := by
  unfold Service.apply
  cases event with
  | arrive q =>
      dsimp only
      cases hplace : s.admission.admit? with
      | none => exact h
      | some admitted =>
          refine ⟨(Admission.limit_of_admit? hplace).trans h.limit_eq, ?_⟩
          dsimp only
          rw [Admission.inProgress_of_admit? hplace, h.inProgress_eq, List.length_append]
          rfl
  | consult i =>
      dsimp only
      split
      · rename_i q hjob
        have hi : i < s.jobs.length := (List.getElem?_eq_some_iff.1 hjob).1
        have hread := h.withWorld
          { s.world with cache := (s.world.cache.answerFromCache q).2 }
        split
        · exact ⟨hread.limit_eq, hread.inProgress_eq.trans (List.length_set ..).symm⟩
        · exact hread.finish hi
      · exact h
  | settle i result world =>
      dsimp only
      split
      · rename_i hjob
        exact (h.withWorld world).finish (List.getElem?_eq_some_iff.1 hjob).1
      · exact h
  | drift world => exact h.withWorld world

theorem run (h : Balanced limit s) (events : List (Event σ)) : Balanced limit (s.run events) := by
  induction events generalizing s with
  | nil => exact h
  | cons event events ih => exact ih (h.apply event)

end Balanced

/-- A service with no question in progress, if it can start. -/
def start? (limit : Nat) (world : World σ) : Option (Service σ) :=
  (Admission.ofLimit? limit).map fun admission => { admission, world }

theorem start?_eq_none_iff {limit : Nat} {world : World σ} :
    start? limit world = none ↔ Admission.maxLimit < limit := by
  rw [start?, Option.map_eq_none_iff, Admission.ofLimit?_eq_none_iff]

theorem balanced_of_start? {limit : Nat} {world : World σ} {s : Service σ}
    (h : start? limit world = some s) : Balanced limit s := by
  obtain ⟨a, ha, rfl⟩ := Option.map_eq_some_iff.1 h
  obtain ⟨hlimit, hnone⟩ := Admission.of_ofLimit? ha
  exact ⟨hlimit, hnone⟩

theorem outcome?_arrive_eq_overloaded_iff (s : Service σ) (q : Question) :
    s.outcome? (.arrive q) = some (.error .overloaded) ↔ s.admission.available = 0 := by
  rw [← Admission.admit?_eq_none_iff]
  unfold outcome?
  cases s.admission.admit? <;> simp

/-- A service starts unless its limit is too large to be kept count of.  Whatever then happens to
questions that are in progress side by side, the number of those that would still be admitted and
the number of those in progress add up to the limit.  One more is refused exactly when their number
has reached the limit.  A question that is refused leaves everything as it is: the admission, the
cache with its counters, and the outside that the resolver would ask.  A question that is taken in
is an arrival and a look into the cache, and to answer it is to settle it as well; on every way out
it leaves the admission and the other questions as it found them. -/
theorem admission_exact (limit : Nat) (world : World σ) :
    (start? limit world = none ↔ Admission.maxLimit < limit) ∧
    ∀ idle, start? limit world = some idle → ∀ events,
      let s := idle.run events
      s.admission.available + s.jobs.length = limit ∧
      ∀ q,
        ((s.outcome? (.arrive q) = some (.error .overloaded) ↔ s.jobs.length = limit) ∧
          ((s.admission.begin q s.world.cache).1 = .finished (.error .overloaded) ↔
            s.jobs.length = limit) ∧
          (s.jobs.length = limit → s.apply (.arrive q) = s ∧
            s.admission.begin q s.world.cache =
              (.finished (.error .overloaded), s.admission, s.world.cache) ∧
            ∀ (r : Resolver) (env : Environment σ),
              r.answer env s.admission q s.world = (.error .overloaded, s.admission, s.world))) ∧
        s.run [.arrive q, .consult s.jobs.length] = s.take q ∧
        ∀ (r : Resolver) (env : Environment σ),
          (r.answer env s.admission q s.world).2.1 = s.admission ∧
          s.run (s.answerTogether r env q) =
            { s with world := (r.answer env s.admission q s.world).2.2 } ∧
          s.outcomes (s.answerTogether r env q) = [(r.answer env s.admission q s.world).1] := by
  refine ⟨start?_eq_none_iff, fun idle hidle events => ?_⟩
  dsimp only
  have hbalanced := (balanced_of_start? hidle).run events
  generalize idle.run events = s at hbalanced
  refine ⟨hbalanced.available_add, fun q => ⟨⟨?_, ?_, fun hfull => ?_⟩,
    run_arrive_consult s q, fun r env => ?_⟩⟩
  · rw [outcome?_arrive_eq_overloaded_iff, hbalanced.available_eq_zero_iff]
  · rw [Admission.begin_eq_overloaded_iff, hbalanced.available_eq_zero_iff]
  · have hnone : s.admission.admit? = none :=
      Admission.admit?_eq_none_iff.2 (hbalanced.available_eq_zero_iff.2 hfull)
    have hbegin := Admission.begin_of_admit?_eq_none hnone q s.world.cache
    refine ⟨?_, hbegin, fun r env => ?_⟩
    · unfold apply
      dsimp only
      rw [hnone]
    · unfold Resolver.answer
      rw [hbegin]
  · obtain ⟨hrun, houtcomes⟩ := run_answerTogether s r env q
    have hback := r.admission_answer env s.admission q s.world
    rw [hback] at hrun
    exact ⟨hback, hrun, houtcomes⟩

/-- Two questions at once, the third of which is refused. -/
def exampleEvents : List (Event Unit) :=
  [.arrive (.make "www.example" .a), .consult 0, .arrive (.make "mail.example" .mx),
   .arrive (.make "ns.example" .aaaa)]

/-- The theorem at work: with two questions in progress, one of them with the resolver, a third is
refused. -/
theorem admission_exact_exampleEvents :
    ∃ idle : Service Unit, start? 2 ⟨{}, ()⟩ = some idle ∧
      (idle.run exampleEvents).jobs.length = 2 ∧
      (idle.run exampleEvents).admission.available + 2 = 2 ∧
      (idle.run exampleEvents).outcome? (.arrive (.make "www.example" .a)) =
        some (.error .overloaded) := by
  have hidle : start? 2 ⟨{}, ()⟩ =
      some { admission := { limit := 2, limit_le := by decide }, world := ⟨{}, ()⟩ } := rfl
  obtain ⟨hadd, hevery⟩ := (admission_exact 2 ⟨{}, ()⟩).2 _ hidle exampleEvents
  have hjobs : (run { admission := { limit := 2, limit_le := by decide }, world := ⟨{}, ()⟩ }
      exampleEvents).jobs.length = 2 := by decide +kernel
  rw [hjobs] at hadd
  exact ⟨_, hidle, hjobs, hadd, (hevery (.make "www.example" .a)).1.1.2 hjobs⟩

end Service

end CachingResolver
