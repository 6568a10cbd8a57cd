import CachingResolver.Proofs.Cache.Trail
import CachingResolver.Proofs.Lookup.Asking
import CachingResolver.Proofs.Lookup.Delivery

/-!
# What a lookup answers when its run has ended

A run that ends leaves the answer to the cache.  A trail `Composes` the answer to a question when it
has at most sixteen aliases and no name before its last has records of the type asked for.  The
lookup then gives the records on the trail, and without such a trail it fails (`lookup_composed`).
Aliases that lead around in a circle are a case of the latter (`Circles.not_composes`).

An answer is said to come from the cache when the search has counted no exchange.  The count of a
search agrees with the record of its exchanges (`exchanges_of_run`).
-/

namespace CachingResolver

namespace Cache

/-- The records on a trail make up the answer to a question. -/
structure Composes (c : Cache) (q : Question) (trail : List Filed) : Prop where
  leads : Trail c.found? q.type q.name trail
  aliases_le : trail.dropLast.length ≤ 16
  -- The trail goes on from names without records of the type only.
  passes : ∀ p ∈ trail.dropLast, c.found? (makeKey p.name q.type) = none

/-- The name of a question is one of some names without records of its type, and no alias leads away
from these names. -/
structure Circles (c : Cache) (q : Question) (names : List String) : Prop where
  starts : q.name ∈ names
  lacks : ∀ name ∈ names, c.found? (makeKey name q.type) = none
  closed : ∀ name ∈ names, ∀ target e, c.alias? name = some (target, e) → target ∈ names

variable {c : Cache} {q : Question} {exchanges : Nat} {server : Option Endpoint}

/-- The walk along aliases comes to the records of the trail that composes the answer. -/
theorem follow?_eq_some_iff_composes {found : List ResourceRecord × List String} :
    c.follow? q.type (maxAliases + 1) q.name = some found ↔
      ∃ trail, c.Composes q trail ∧
        found = (trail.flatMap (·.records c.now), trail.tail.map (·.name)) := by
  have hlength : ∀ trail : List Filed,
      trail.length ≤ maxAliases + 1 ↔ trail.dropLast.length ≤ 16 := by
    intro trail
    rw [List.length_dropLast, maxAliases]
    omega
  rw [follow?_eq_some_iff]
  constructor
  · rintro ⟨trail, hleads, hrounds, hpasses, hfound⟩
    exact ⟨trail, ⟨hleads, (hlength trail).1 hrounds, hpasses⟩, hfound⟩
  · rintro ⟨trail, ⟨hleads, haliases, hpasses⟩, hfound⟩
    exact ⟨trail, hleads, (hlength trail).2 haliases, hpasses, hfound⟩

theorem follow?_eq_none_iff_not_composes :
    c.follow? q.type (maxAliases + 1) q.name = none ↔ ∀ trail, ¬ c.Composes q trail := by
  constructor
  · intro hnone trail htrail
    have hsome := follow?_eq_some_iff_composes.2 ⟨trail, htrail, rfl⟩
    rw [hnone] at hsome
    cases hsome
  · intro hnot
    cases hfollow : c.follow? q.type (maxAliases + 1) q.name with
    | none => rfl
    | some found =>
        obtain ⟨trail, htrail, -⟩ := follow?_eq_some_iff_composes.1 hfollow
        exact absurd htrail (hnot trail)

/-- A question is known to fail while a failure that is not too old is on record for it. -/
theorem fails_iff :
    c.Fails q ↔ ∃ e, c.negative.get? (makeKey q.name q.type) = some e ∧ e.isVacant = false ∧
      e.isExpired c.now = false := by
  simp only [← read_eq_negative_iff, ← lookup_eq_some_true_iff]
  constructor
  · rintro ⟨⟨e, isNegative⟩, hfound, rfl⟩
    exact ⟨e, hfound⟩
  · rintro ⟨e, hfound⟩
    exact ⟨⟨e, true⟩, hfound, rfl⟩

theorem compose_eq_ok_iff_composes {resolution : Resolution} :
    (c.compose q exchanges server).1 = .ok resolution ↔
      ∃ trail, c.Composes q trail ∧ resolution =
        { records := trail.flatMap (·.records c.now)
          isCacheHit := exchanges == 0
          aliases := trail.tail.map (·.name)
          server } := by
  rw [compose_eq_ok_iff]
  constructor
  · rintro ⟨records, aliases, hfollow, rfl⟩
    obtain ⟨trail, htrail, hfound⟩ := follow?_eq_some_iff_composes.1 hfollow
    obtain ⟨rfl, rfl⟩ := Prod.mk.inj hfound
    exact ⟨trail, htrail, rfl⟩
  · rintro ⟨trail, htrail, rfl⟩
    exact ⟨_, _, follow?_eq_some_iff_composes.2 ⟨trail, htrail, rfl⟩, rfl⟩

theorem compose_eq_error_iff {failure : Failure} :
    (c.compose q exchanges server).1 = .error failure ↔
      (∀ trail, ¬ c.Composes q trail) ∧
        (c.Fails q ∧ failure = .knownFailure q.text ∨
          ¬ c.Fails q ∧ failure = .unresolved q.text) := by
  rw [← follow?_eq_none_iff_not_composes]
  cases hfollow : c.follow? q.type (maxAliases + 1) q.name with
  | some found =>
      rw [compose_fst_of_follow? hfollow]
      simp
  | none =>
      rw [compose_fst_of_follow?_eq_none hfollow, ← isNegative_fst_eq_true_iff]
      cases (c.isNegative q.name q.type).1 <;> simp [eq_comm]

/-- A trail that starts in a circle does not get out of it. -/
theorem Circles.not_composes {names : List String} (h : c.Circles q names) (trail : List Filed) :
    ¬ c.Composes q trail := by
  rintro ⟨hleads, -, -⟩
  have hstays : ∀ {name trail}, Trail c.found? q.type name trail → name ∉ names := by
    intro name trail hleads
    induction hleads with
    | direct hentry =>
        intro hname
        rw [h.lacks _ hname] at hentry
        cases hentry
    | along _ hentry htarget _ ih =>
        intro hname
        exact ih (h.closed _ hname _ _ (alias?_eq_some_iff.2 ⟨hentry, htarget⟩))
  exact hstays hleads h.starts

end Cache

/-! ### Counting exchanges -/

namespace Search

variable {draw : Draw} {port : UInt16} {current : Question} {s t : Search} {c d : Cache}
  {zone : Zone} {server : Endpoint} {m : Message} {rttMs : UInt32}

theorem exchanges_defer : (s.defer draw current zone).exchanges = s.exchanges := by
  rcases defer_cases draw s current zone with ⟨-, hdefer⟩ | ⟨q, -, hdefer⟩
  · rw [hdefer]
    rfl
  · rw [hdefer]

theorem exchanges_followReferral {kind : ResponseKind} :
    (followReferral current zone m kind rttMs s c).1.exchanges = s.exchanges := by
  unfold followReferral
  split
  · rfl
  · dsimp only
    split
    · rfl
    · split <;> rfl

theorem exchanges_take : (take current zone server m rttMs s c).1.exchanges = s.exchanges := by
  unfold take
  cases kindFor current m with
  | cname =>
      dsimp only
      split
      · exact exchanges_chase _ _ _
      · rfl
  | delegation => exact exchanges_followReferral
  | bareDelegation => exact exchanges_followReferral
  | answer | unknown | refused | notUnderstood | none => rfl

/-- Whatever comes back, an exchange is counted. -/
theorem exchanges_conclude {arrival : Arrival} :
    (conclude current zone server arrival s c).1.exchanges = s.exchanges + 1 := by
  unfold conclude
  dsimp only
  cases arrival.outcome with
  | ok m => exact exchanges_take
  | error failure => rfl

/-- Nothing is counted when a question is settled without asking. -/
theorem exchanges_of_settles (h : Settles draw current s c t) : t.exchanges = s.exchanges := by
  cases h with
  | found a _ => cases a.isNegative <;> rfl
  | aliased target e _ _ _ => exact exchanges_chase s current target
  | deferred => exact exchanges_defer

end Search

namespace Iterative

open CachingResolver.Cache CachingResolver.Search

variable {σ : Type} {env : Environment σ} {port : UInt16} {q : Question}

/-- A step counts the exchange that it records. -/
theorem exchanges_of_step {current : Question} {s t : Search}
    {w v : World (σ × List (Endpoint × Message))}
    (h : step env.recorded port current s w = (.ok t, v)) :
    t.exchanges + w.outside.2.length = s.exchanges + v.outside.2.length := by
  unfold step at h
  dsimp only [Environment.recorded] at h
  generalize hprepare : prepare (env.draw w.outside.1).1 port current s w.cache = prepared at h
  obtain ⟨preparation, cache⟩ := prepared
  cases preparation with
  | settled u =>
      cases h
      rw [exchanges_of_settles (settles_of_prepare (congrArg Prod.fst hprepare))]
  | impossible failure => cases h
  | ask zone server query =>
      cases h
      rw [exchanges_conclude, List.length_append, List.length_singleton]
      omega

theorem exchanges_of_run {budget : Nat} {s t : Search}
    {w v : World (σ × List (Endpoint × Message))}
    (h : run env.recorded port q budget s w = (.ok t, v)) :
    t.exchanges + w.outside.2.length = s.exchanges + v.outside.2.length := by
  induction budget generalizing s w with
  | zero =>
      unfold run at h
      split at h <;> cases h
      rfl
  | succ budget ih =>
      unfold run at h
      split at h
      · cases h
        rfl
      · rename_i current pending hpop
        split at h
        · rename_i s' w' hstep
          have hfirst := exchanges_of_step hstep
          have hrest := ih h
          dsimp only at hfirst
          omega
        · cases h

/-- When the run of a lookup ends, its search has counted all exchanges of the lookup. -/
theorem exchanges_eq_length {r : Iterative} {s : Search} {w v : World σ}
    (h : run env r.port q r.maxSteps (.start q) w = (.ok s, v)) :
    s.exchanges = (r.exchanges env q w).length := by
  obtain ⟨added, hrun, -⟩ := run_recorded env r.port q r.maxSteps (.start q) w []
  rw [h] at hrun
  have hcount := exchanges_of_run hrun
  have hexchanges : r.exchanges env q w = added := by
    unfold exchanges
    rw [lookup_snd_of_run hrun]
    rfl
  rw [hexchanges]
  simpa [World.recorded, Search.start] using hcount

/-- For any cache, question and outside, and when the run of the lookup ends with the search `s` in
the world `v`: the lookup gives an answer exactly when a trail composes it, namely the records on
the trail with the time to live that each has left, the names on the trail after the first, and
whether any exchange was made.  Otherwise it fails, with a known failure exactly when one is on
record for the question.  No trail leads out of a circle of aliases. -/
theorem lookup_composed {r : Iterative} {env : Environment σ} {q : Question} {w v : World σ}
    {s : Search} (hrun : run env r.port q r.maxSteps (.start q) w = (.ok s, v)) :
    (∀ resolution, (r.lookup env q w).1 = .ok resolution ↔
      ∃ trail, v.cache.Composes q trail ∧ resolution =
        { records := trail.flatMap (·.records v.cache.now)
          isCacheHit := (r.exchanges env q w).isEmpty
          aliases := trail.tail.map (·.name)
          server := s.lastServer }) ∧
    (∀ failure, (r.lookup env q w).1 = .error failure ↔
      (∀ trail, ¬ v.cache.Composes q trail) ∧
        (v.cache.Fails q ∧ failure = .knownFailure q.text ∨
          ¬ v.cache.Fails q ∧ failure = .unresolved q.text)) ∧
    ∀ names, v.cache.Circles q names → ∀ trail, ¬ v.cache.Composes q trail := by
  have hlookup : (r.lookup env q w).1 = (v.cache.compose q s.exchanges s.lastServer).1 := by
    unfold lookup
    rw [hrun]
  have hhit : (s.exchanges == 0) = (r.exchanges env q w).isEmpty := by
    rw [exchanges_eq_length hrun]
    cases r.exchanges env q w <;> rfl
  rw [hlookup]
  refine ⟨fun resolution => ?_, fun failure => compose_eq_error_iff,
    fun names hcircle => hcircle.not_composes⟩
  rw [compose_eq_ok_iff_composes, hhit]

/-- The theorem at work: two exchanges bring an alias and the address of its target, which compose
the answer. -/
theorem lookup_composed_alias :
    ∃ s v, run .replaying 53 aliasQuestion 64 (.start aliasQuestion) (aliasWorld 1) = (.ok s, v) ∧
      v.cache.Composes aliasQuestion (aliasTrail 1) ∧
      (({} : Iterative).lookup .replaying aliasQuestion (aliasWorld 1)).1 = .ok
        { records :=
            [.make "alias.example.com." 0 .cname "target.example.com.",
             .make "target.example.com." 300 .a "192.0.2.5"]
          isCacheHit := false
          aliases := ["target.example.com."]
          server := some ⟨.v4 ⟨198, 51, 100, 1⟩, 53, 0⟩ } := by
  obtain ⟨hran, hnow, halias, haddress, hnone, hexchanges⟩ :
      (run .replaying 53 aliasQuestion 64 (.start aliasQuestion) (aliasWorld 1)).1 = .ok
        { pending := {}
          chased := [.make "target.example.com." .a]
          exchanges := 2
          lastServer := some ⟨.v4 ⟨198, 51, 100, 1⟩, 53, 0⟩ } ∧
      (run .replaying 53 aliasQuestion 64 (.start aliasQuestion) (aliasWorld 1)).2.cache.now = 1 ∧
      (run .replaying 53 aliasQuestion 64 (.start aliasQuestion) (aliasWorld 1)).2.cache.found?
        (makeKey "alias.example.com." .cname) =
          some { values := ["target.example.com."], ttl := 1 } ∧
      (run .replaying 53 aliasQuestion 64 (.start aliasQuestion) (aliasWorld 1)).2.cache.found?
        (makeKey "target.example.com." .a) =
          some { values := ["192.0.2.5"], ttl := 300, storedAt := 1 } ∧
      (∀ p ∈ (aliasTrail 1).dropLast,
        (run .replaying 53 aliasQuestion 64 (.start aliasQuestion) (aliasWorld 1)).2.cache.found?
          (makeKey p.name aliasQuestion.type) = none) ∧
      (({} : Iterative).exchanges .replaying aliasQuestion (aliasWorld 1)).isEmpty = false := by
    decide +kernel
  obtain ⟨v, hrun⟩ : ∃ v, run .replaying 53 aliasQuestion 64 (.start aliasQuestion) (aliasWorld 1) =
      (.ok _, v) := ⟨_, Prod.ext hran rfl⟩
  rw [hrun] at hnow halias haddress hnone
  have hcomposes : v.cache.Composes aliasQuestion (aliasTrail 1) :=
    ⟨.along (by decide) halias rfl (.direct haddress), by decide, hnone⟩
  obtain ⟨hok, -⟩ := lookup_composed (r := {}) hrun
  refine ⟨_, v, hrun, hcomposes, (hok _).2 ⟨aliasTrail 1, hcomposes, ?_⟩⟩
  rw [hnow, hexchanges]
  decide

end Iterative

end CachingResolver
