import CachingResolver.Proofs.Lookup.Inquiry

/-!
# What happens to a cache in the course of lookups

The life of a cache under iterative lookups as a list of moves: time passes, a step is taken, an
answer is composed.  Every lookup is such a course (`lookup_snd`), and so is every sequence of
lookups with pauses between them.

Entries that are there with no failure on record for their keys, and that do not expire on the way,
are there at every moment of a course exactly when no response replaces one of them
(`throughout_holds_iff`).
-/

namespace CachingResolver

/-- One thing that happens to a cache. -/
inductive Move where
  | wait (seconds : Int64)
  | step (port : UInt16) (current : Question) (s : Search)
  | compose (q : Question) (exchanges : Nat) (server : Option Endpoint)

namespace Move

variable {σ : Type} (env : Environment σ)

def apply (w : World σ) : Move → World σ
  | wait seconds => { w with cache := w.cache.advance seconds }
  | step port current s => (Iterative.step env port current s w).2
  | compose q exchanges server => { w with cache := (w.cache.compose q exchanges server).2 }

/-- The world after some moves. -/
def course (w : World σ) (ms : List Move) : World σ :=
  ms.foldl (apply env) w

/-- The clock never goes back. -/
def Forward (w : World σ) : List Move → Prop
  | [] => True
  | m :: ms => w.cache.now ≤ (m.apply env w).cache.now ∧ Forward (m.apply env w) ms

instance Forward.decidable : (w : World σ) → (ms : List Move) → Decidable (Forward env w ms)
  | _, [] => .isTrue trivial
  | w, m :: ms =>
    have := Forward.decidable (m.apply env w) ms
    inferInstanceAs (Decidable (_ ∧ _))

/-- Something holds at every moment of a course: before each move, and at the end. -/
def Throughout (P : World σ → Prop) (w : World σ) : List Move → Prop
  | [] => P w
  | m :: ms => P w ∧ Throughout P (m.apply env w) ms

/-- A response in this move puts another entry in the place of one of the given entries. -/
def Replaces (entries : String → Entry → Prop) (w : World σ) (m : Move) : Prop :=
  ∃ port current s, ∃ x : Inquiry env port current s w, m = .step port current s ∧
    ∃ g ∈ x.stored, ∃ e, entries g.key e ∧ x.entryOf g ≠ e

/-- No response of a course replaces one of the given entries. -/
def Unreplaced (entries : String → Entry → Prop) (w : World σ) : List Move → Prop
  | [] => True
  | m :: ms => ¬ m.Replaces env entries w ∧ Unreplaced entries (m.apply env w) ms

variable {env} {w : World σ} {ms ns : List Move} {P Q : World σ → Prop}

theorem course_append (w : World σ) (ms ns : List Move) :
    course env w (ms ++ ns) = course env (course env w ms) ns :=
  List.foldl_append

theorem now_le_now_course (h : Forward env w ms) : w.cache.now ≤ (course env w ms).cache.now := by
  induction ms generalizing w with
  | nil => exact Int64.le_refl _
  | cons m ms ih => exact Int64.le_trans h.1 (ih h.2)

theorem Throughout.first (h : Throughout env P w ms) : P w := by
  cases ms with
  | nil => exact h
  | cons m ms => exact h.1

theorem Throughout.last (h : Throughout env P w ms) : P (course env w ms) := by
  induction ms generalizing w with
  | nil => exact h
  | cons m ms ih => exact ih h.2

theorem Throughout.imp (h : Throughout env P w ms) (hPQ : ∀ v, P v → Q v) :
    Throughout env Q w ms := by
  induction ms generalizing w with
  | nil => exact hPQ w h
  | cons m ms ih => exact ⟨hPQ w h.1, ih h.2⟩

theorem Throughout.and (hP : Throughout env P w ms)
    (hQ : Throughout env Q w ms) : Throughout env (fun v => P v ∧ Q v) w ms := by
  induction ms generalizing w with
  | nil => exact ⟨hP, hQ⟩
  | cons m ms ih => exact ⟨⟨hP.1, hQ.1⟩, ih hP.2 hQ.2⟩

/-- The clock stays between its first and its last value. -/
theorem throughout_now (hforward : Forward env w ms) {now deadline : Int64} (hfrom : now ≤ w.cache.now)
    (hto : (course env w ms).cache.now ≤ deadline) :
    Throughout env (fun v => now ≤ v.cache.now ∧ v.cache.now ≤ deadline) w ms := by
  induction ms generalizing w with
  | nil => exact ⟨hfrom, hto⟩
  | cons m ms ih =>
      have hlast := now_le_now_course hforward
      exact ⟨⟨hfrom, Int64.le_trans hlast hto⟩,
        ih hforward.2 (Int64.le_trans hfrom hforward.1) hto⟩

theorem throughout_append :
    Throughout env P w (ms ++ ns) ↔
      Throughout env P w ms ∧ Throughout env P (course env w ms) ns := by
  induction ms generalizing w with
  | nil => exact ⟨fun h => ⟨h.first, h⟩, fun h => h.2⟩
  | cons m ms ih =>
      show P w ∧ Throughout env P (m.apply env w) (ms ++ ns) ↔
        (P w ∧ Throughout env P (m.apply env w) ms) ∧ _
      rw [ih, and_assoc]
      rfl

end Move

/-! ### Lookups are courses -/

namespace Iterative

variable {σ : Type} (env : Environment σ) (port : UInt16)

/-- The steps of a run. -/
def runMoves : (budget : Nat) → Search → World σ → List Move
  | 0, _, _ => []
  | budget + 1, s, w =>
    match s.pending.pop? with
    | none => []
    | some (current, pending) =>
      .step port current { s with pending } ::
        match step env port current { s with pending } w with
        | (.ok s, w) => runMoves budget s w
        | (.error _, _) => []

/-- The moves of a lookup: its steps, and the answer if it gets there. -/
def moves (r : Iterative) (q : Question) (w : World σ) : List Move :=
  let steps := runMoves env r.port r.maxSteps (.start q) w
  match (run env r.port q r.maxSteps (.start q) w).1 with
  | .ok s => steps ++ [.compose q s.exchanges s.lastServer]
  | .error _ => steps

variable {env port} {q : Question} {budget : Nat} {s : Search} {w : World σ}

theorem run_snd : (run env port q budget s w).2 =
    Move.course env w (runMoves env port budget s w) := by
  induction budget generalizing s w with
  | zero => rfl
  | succ budget ih =>
      unfold run runMoves
      cases s.pending.pop? with
      | none => rfl
      | some top =>
          obtain ⟨current, pending⟩ := top
          dsimp only
          have happly : (Move.step port current { s with pending }).apply env w =
              (step env port current { s with pending } w).2 := rfl
          unfold Move.course
          rw [List.foldl_cons, happly]
          cases step env port current { s with pending } w with
          | mk result w' =>
              cases result with
              | error failure => rfl
              | ok s' => exact ih

theorem lookup_snd (r : Iterative) (env : Environment σ) (q : Question) (w : World σ) :
    (r.lookup env q w).2 = Move.course env w (r.moves env q w) := by
  have hrun : (run env r.port q r.maxSteps (.start q) w).2 = _ := run_snd
  unfold lookup moves
  generalize hran : run env r.port q r.maxSteps (.start q) w = ran at hrun
  obtain ⟨result, v⟩ := ran
  cases result with
  | error failure => exact hrun
  | ok s =>
      dsimp only at hrun ⊢
      rw [Move.course_append, ← hrun]
      rfl

/-- A lookup that succeeds has composed its answer after its run. -/
theorem lookup_eq_ok_iff {r : Iterative} {resolution : Resolution} :
    (r.lookup env q w).1 = .ok resolution ↔
      ∃ s v, run env r.port q r.maxSteps (.start q) w = (.ok s, v) ∧
        (v.cache.compose q s.exchanges s.lastServer).1 = .ok resolution := by
  unfold lookup
  cases run env r.port q r.maxSteps (.start q) w with
  | mk result v =>
      cases result with
      | error failure => exact ⟨fun h => (by cases h), fun ⟨_, _, hrun, _⟩ => (by cases hrun)⟩
      | ok s =>
          refine ⟨fun h => ⟨s, v, rfl, h⟩, ?_⟩
          rintro ⟨t, u, hrun, h⟩
          cases hrun
          exact h

theorem lookup_snd_of_run {r : Iterative} {v : World σ}
    (h : run env r.port q r.maxSteps (.start q) w = (.ok s, v)) :
    (r.lookup env q w).2 =
      { v with cache := (v.cache.compose q s.exchanges s.lastServer).2 } := by
  unfold lookup
  rw [h]

/-- A failure of a run that is not the lack of further steps is a failure of one of its steps. -/
theorem run_ne_error {P : World σ → Prop} {failure : Failure}
    (hthroughout : Move.Throughout env P w (runMoves env port budget s w))
    (hsteps : ∀ current t v, P v → (step env port current t v).1 ≠ .error failure)
    (hfailure : failure ≠ .stepLimit q.text) :
    (run env port q budget s w).1 ≠ .error failure := by
  induction budget generalizing s w with
  | zero =>
      unfold run
      dsimp only
      split
      · exact fun h => by cases h
      · rintro ⟨⟩
        exact hfailure rfl
  | succ budget ih =>
      unfold run
      unfold runMoves at hthroughout
      cases hpop : s.pending.pop? with
      | none => exact fun h => by cases h
      | some top =>
          obtain ⟨current, pending⟩ := top
          rw [hpop] at hthroughout
          obtain ⟨hP, hrest⟩ := hthroughout
          have hstep := hsteps current { s with pending } w hP
          have happly : (Move.step port current { s with pending }).apply env w =
              (step env port current { s with pending } w).2 := rfl
          rw [happly] at hrest
          dsimp only
          generalize step env port current { s with pending } w = stepped at hstep hrest
          obtain ⟨result, v⟩ := stepped
          cases result with
          | error f =>
              intro h
              exact hstep (by cases h; rfl)
          | ok t => exact ih hrest

end Iterative

/-! ### Entries that stay -/

namespace Cache

/-- All given entries are there, and no failure is on record for their keys. -/
def Holds (entries : String → Entry → Prop) (c : Cache) : Prop :=
  ∀ key e, entries key e → c.NoFailure key ∧ c.positive.get? key = some e

/-- All given entries have values, and none of them expires before a time. -/
structure Lasting (entries : String → Entry → Prop) (now deadline : Int64) : Prop where
  values_ne_nil : ∀ key e, entries key e → e.values ≠ []
  stored : ∀ key e, entries key e → e.storedAt.toInt ≤ now.toInt
  deadline_le : ∀ key e, entries key e → deadline.toInt ≤ e.storedAt.toInt + e.ttl.toNat

variable {entries : String → Entry → Prop} {c d : Cache} {now t deadline : Int64}

theorem Lasting.later (h : Lasting entries now deadline) (ht : now ≤ t) :
    Lasting entries t deadline where
  values_ne_nil := h.values_ne_nil
  stored key e he := Int.le_trans (h.stored key e he) (Int64.le_iff_toInt_le.1 ht)
  deadline_le := h.deadline_le

theorem Lasting.found? (h : Lasting entries now deadline) (hholds : Holds entries c)
    (hfrom : now ≤ c.now) (hto : c.now ≤ deadline) {key : String} {e : Entry}
    (he : entries key e) : c.found? key = some e := by
  obtain ⟨hnone, hpositive⟩ := hholds key e he
  have hstored := h.stored key e he
  have hdeadline := h.deadline_le key e he
  have hnow := Int64.le_iff_toInt_le.1 hfrom
  have hlast := Int64.le_iff_toInt_le.1 hto
  exact found?_of_stored hnone hpositive (h.values_ne_nil key e he) (by omega) (by omega)

/-- Reading does not take away entries that are not expired. -/
theorem Lasting.holds_of_sweeps (h : Lasting entries now deadline) (hsweeps : Sweeps c d)
    (hholds : Holds entries c) (hfrom : now ≤ c.now) (hto : c.now ≤ deadline) :
    Holds entries d := by
  intro key e he
  have hfound := h.found? hholds hfrom hto he
  exact ⟨hsweeps.noFailure (hholds key e he).1, hsweeps.positive_of_found? hfound⟩

/-- What is there after reads was there before them. -/
theorem Sweeps.holds (h : Sweeps c d) (hholds : Holds entries d) : Holds entries c := by
  intro key e he
  obtain ⟨hnone, hpositive⟩ := hholds key e he
  rcases h.keeps key with ⟨hp, hn⟩ | ⟨-, hp, -⟩
  · exact ⟨fun f hf => hnone f (hn.trans hf), hp.symm.trans hpositive⟩
  · rw [hp] at hpositive
    cases hpositive

theorem Holds.advance (h : Holds entries c) (seconds : Int64) :
    Holds entries (c.advance seconds) :=
  h

end Cache

namespace Inquiry

open CachingResolver.Cache

variable {σ : Type} {env : Environment σ} {port : UInt16} {current : Question} {s : Search}
  {w : World σ} (x : Inquiry env port current s w) {entries : String → Entry → Prop}
  {deadline : Int64}

theorem now_after : x.after.now = x.received.now := by
  rw [x.sweeps_after.now_eq, Search.written_now]

/-- What a message stores replaces what was there, and nothing that is there is made a known
failure. -/
theorem holds_written_iff (hholds : Holds entries x.received)
    (hvalues : ∀ key e, entries key e → e.values ≠ []) :
    Holds entries (Search.written current x.zone x.message x.arrival.rttMs x.received) ↔
      ∀ g ∈ x.stored, ∀ e, entries g.key e → x.entryOf g = e := by
  constructor
  · intro h g hg e he
    have hpositive := (h g.key e he).2
    rw [Search.written_positive] at hpositive
    have hentry := x.received.get?_storeAll_of_mem x.arrival.rttMs x.nodup_keys_stored hg
    exact Option.some.inj (hentry.symm.trans hpositive)
  · intro h key e he
    obtain ⟨hnone, hpositive⟩ := hholds key e he
    by_cases hkey : ∃ g ∈ x.stored, g.key = key
    · obtain ⟨g, hg, hgkey, hentry⟩ := x.received.exists_get?_storeAll x.arrival.rttMs hkey
      have hrefusal := x.refusal?_eq_none_of_mem_stored hg
      rw [Search.written_of_refusal?_eq_none hrefusal]
      refine ⟨(noFailure_storeAll _ _ _).2 hnone, hentry.trans ?_⟩
      exact congrArg some (h g hg e (hgkey ▸ he))
    · -- The question has no entry, so it is not the key that is made a known failure.
      have hwrites : ¬ x.Writes key := by
        rintro (hstored | ⟨-, rfl⟩)
        · exact hkey hstored
        · have hvacant := x.vacant_received.2 e hpositive
          rw [isVacant_eq_false (hvalues _ e he)] at hvacant
          cases hvacant
      obtain ⟨hpos, hneg⟩ := x.get?_written_of_not_writes hwrites
      exact ⟨fun f hf => hnone f (hneg.symm.trans hf), hpos.trans hpositive⟩

/-- Entries that do not expire meanwhile are there after the step exactly when the message does not
replace them. -/
theorem holds_after_iff (hlasting : Lasting entries w.cache.now deadline)
    (hholds : Holds entries w.cache) (hforward : w.cache.now ≤ x.after.now)
    (hto : x.after.now ≤ deadline) :
    Holds entries x.after ↔ ∀ g ∈ x.stored, ∀ e, entries g.key e → x.entryOf g = e := by
  have hcache : Holds entries x.cache :=
    hlasting.holds_of_sweeps x.sweeps_cache hholds (Int64.le_refl _)
      (Int64.le_trans hforward hto)
  have hreceived : Holds entries x.received := hcache.advance _
  rw [← x.holds_written_iff hreceived hlasting.values_ne_nil]
  have hnow : (Search.written current x.zone x.message x.arrival.rttMs x.received).now =
      x.after.now := by
    rw [Search.written_now, x.now_after]
  constructor
  · exact x.sweeps_after.holds
  · intro h
    refine hlasting.holds_of_sweeps x.sweeps_after h ?_ ?_
    · rw [hnow]
      exact hforward
    · rw [hnow]
      exact hto

end Inquiry

namespace Move

open CachingResolver.Cache

variable {σ : Type} {env : Environment σ} {w : World σ} {m : Move} {ms : List Move}
  {entries : String → Entry → Prop} {deadline : Int64}

/-- Entries that do not expire meanwhile are there after a move exactly when it does not replace
them. -/
theorem holds_apply_iff (hlasting : Lasting entries w.cache.now deadline)
    (hholds : Holds entries w.cache) (hforward : w.cache.now ≤ (m.apply env w).cache.now)
    (hto : (m.apply env w).cache.now ≤ deadline) :
    Holds entries (m.apply env w).cache ↔ ¬ m.Replaces env entries w := by
  have hnow : w.cache.now ≤ deadline := Int64.le_trans hforward hto
  cases m with
  | wait seconds =>
      refine ⟨fun _ => ?_, fun _ => hholds⟩
      rintro ⟨_, _, _, _, hmove, -⟩
      cases hmove
  | compose q exchanges server =>
      refine ⟨fun _ => ?_, fun _ => ?_⟩
      · rintro ⟨_, _, _, _, hmove, -⟩
        cases hmove
      · exact hlasting.holds_of_sweeps (sweeps_compose _ _ _ _) hholds (Int64.le_refl _) hnow
  | step port current s =>
      constructor
      · rintro h ⟨_, _, _, x, hmove, g, hg, e, he, hne⟩
        cases hmove
        exact hne ((x.holds_after_iff hlasting hholds hforward hto).1 h g hg e he)
      · intro h
        rcases Iterative.step_cases env port current s w with ⟨d, elapsed, hd, hafter⟩ | ⟨⟨x⟩⟩
        · show Holds entries (Iterative.step env port current s w).2.cache
          rw [hafter]
          exact (hlasting.holds_of_sweeps hd hholds (Int64.le_refl _) hnow).advance elapsed
        · refine (x.holds_after_iff hlasting hholds hforward hto).2 fun g hg e he => ?_
          by_contra hne
          exact h ⟨port, current, s, x, rfl, g, hg, e, he, hne⟩

/-- Entries that do not expire on the way are there at every moment of a course exactly when no
response of it replaces them. -/
theorem throughout_holds_iff (hlasting : Lasting entries w.cache.now deadline)
    (hholds : Holds entries w.cache) (hforward : Forward env w ms)
    (hto : (course env w ms).cache.now ≤ deadline) :
    Throughout env (fun v => Holds entries v.cache) w ms ↔ Unreplaced env entries w ms := by
  induction ms generalizing w with
  | nil => exact ⟨fun _ => trivial, fun _ => hholds⟩
  | cons m ms ih =>
      obtain ⟨hstep, hrest⟩ := hforward
      have hnext : (m.apply env w).cache.now ≤ deadline :=
        Int64.le_trans (now_le_now_course hrest) hto
      have hkept := holds_apply_iff hlasting hholds hstep hnext
      constructor
      · rintro ⟨-, hall⟩
        exact ⟨hkept.1 hall.first, (ih (hlasting.later hstep) hall.first hrest hto).1 hall⟩
      · rintro ⟨hnot, hnone⟩
        have hthere := hkept.2 hnot
        exact ⟨hholds, (ih (hlasting.later hstep) hthere hrest hto).2 hnone⟩

end Move

end CachingResolver
