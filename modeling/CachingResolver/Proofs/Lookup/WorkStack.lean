import CachingResolver.Proofs.Lookup.Budget
import CachingResolver.Proofs.Lookup.Refusal
import Mathlib.Logic.Relation

/-!
# The stack of pending questions during a lookup

What a step does to the stack (`reworks_of_step`): it drops the question it has taken off, puts the
target of an alias in its place, or puts it back with other questions above it.  So no question ever
stands on the stack twice, and the question at the bottom is the one of the lookup, or one that
aliases have led to from there (`work_stack`).
-/

namespace CachingResolver

namespace PendingStack

variable {s : PendingStack} {p q : Question}

/-- The question that is settled last. -/
def bottom? (s : PendingStack) : Option Question :=
  s.questions.getLast?

theorem questions_push (h : q ∉ s.questions) : (s.push q).questions = q :: s.questions := by
  unfold push contains
  rw [if_neg (by simpa using h)]

theorem mem_push : p ∈ (s.push q).questions ↔ p = q ∨ p ∈ s.questions := by
  unfold push contains
  split
  · rename_i hmem
    have hmem : q ∈ s.questions := by simpa using hmem
    exact ⟨.inr, fun h => h.elim (fun heq => heq ▸ hmem) id⟩
  · exact List.mem_cons

theorem nodup_push (h : s.questions.Nodup) : (s.push q).questions.Nodup := by
  unfold push contains
  split
  · exact h
  · rename_i hnew
    exact List.nodup_cons.2 ⟨by simpa using hnew, h⟩

theorem nodup_pushAll {qs : List Question} (h : s.questions.Nodup) :
    (s.pushAll qs).questions.Nodup := by
  unfold pushAll
  induction qs generalizing s with
  | nil => exact h
  | cons q qs ih => exact ih (nodup_push h)

theorem bottom?_push : (s.push q).bottom? = some (s.bottom?.getD q) := by
  unfold push contains bottom?
  split
  · rename_i hmem
    have hne : s.questions ≠ [] := List.ne_nil_of_mem (by simpa using hmem : q ∈ s.questions)
    rw [List.getLast?_eq_getLast_of_ne_nil hne, Option.getD_some]
  · exact List.getLast?_cons

theorem bottom?_pushAll {qs : List Question} (h : s.bottom? = some q) :
    (s.pushAll qs).bottom? = some q := by
  unfold pushAll
  induction qs generalizing s with
  | nil => exact h
  | cons p qs ih => exact ih (by rw [bottom?_push, h, Option.getD_some])

theorem remove_eq_self (h : q ∉ s.questions) : s.remove q = s := by
  have hall : ∀ p ∈ s.questions, (p != q) = true := fun p hp => by
    simpa using fun heq : p = q => h (heq ▸ hp)
  unfold remove
  rw [List.filter_eq_self.2 hall]

theorem pop?_eq_some_iff {rest : PendingStack} :
    s.pop? = some (q, rest) ↔ s.questions = q :: rest.questions := by
  unfold pop?
  cases s.questions with
  | nil => simp
  | cons top below =>
      cases rest
      simp

theorem isEmpty_of_pop?_eq_none (h : s.pop? = none) : s.isEmpty = true := by
  unfold pop? at h
  unfold isEmpty
  split at h
  · rename_i hnil
    rw [hnil]
    rfl
  · cases h

theorem nodup_of_pop? {rest : PendingStack} (h : s.questions.Nodup)
    (hpop : s.pop? = some (q, rest)) : q ∉ rest.questions ∧ rest.questions.Nodup := by
  rw [pop?_eq_some_iff.1 hpop] at h
  exact List.nodup_cons.1 h

theorem bottom?_of_pop? {rest : PendingStack} (h : s.pop? = some (q, rest)) :
    s.bottom? = some (rest.bottom?.getD q) := by
  unfold bottom?
  rw [pop?_eq_some_iff.1 h, List.getLast?_cons]

/-- No question stands on the stack twice, and the one at the bottom is `q` or one to which
replacements have led from `q`. -/
structure Disciplined (s : PendingStack) (q : Question) (replaces : Question → Question → Prop) :
    Prop where
  nodup : s.questions.Nodup
  bottom : ∀ b, s.bottom? = some b → Relation.ReflTransGen replaces q b

namespace Disciplined

variable {rest : PendingStack} {replaces replaces' : Question → Question → Prop}

theorem imp (h : s.Disciplined q replaces) (himp : ∀ a b, replaces a b → replaces' a b) :
    s.Disciplined q replaces' :=
  ⟨h.nodup, fun b hb => Relation.ReflTransGen.mono himp _ _ (h.bottom b hb)⟩

/-- Taking off the question on top. -/
theorem of_pop? (h : s.Disciplined q replaces) (hpop : s.pop? = some (p, rest)) :
    p ∉ rest.questions ∧ rest.Disciplined q replaces := by
  obtain ⟨hnew, hnodup⟩ := nodup_of_pop? h.nodup hpop
  refine ⟨hnew, hnodup, fun b hb => h.bottom b ?_⟩
  rw [bottom?_of_pop? hpop, hb, Option.getD_some]

end Disciplined

end PendingStack

namespace Search

open CachingResolver.Cache

/-- What may become of the stack below a question that has been taken off, and of the questions that
aliases have led to: the cache is the one at the end of the step. -/
inductive Reworks (current : Question) (c : Cache) (rest : PendingStack) (chased : List Question) :
    PendingStack → List Question → Prop
  | dropped : Reworks current c rest chased rest chased
  | replaced (target : String) (e : Entry) (htype : current.type ≠ .cname)
      (halias : c.alias? current.name = some (target, e)) :
      Reworks current c rest chased (rest.push (.make target current.type))
        (.make target current.type :: chased)
  | kept (others : List Question) (hothers : current ∉ others) :
      Reworks current c rest chased ((rest.push current).pushAll others) chased

variable {draw : Draw} {port : UInt16} {current : Question} {s t : Search} {c d : Cache}
  {zone : Zone} {server : Endpoint} {m : Message} {rttMs : UInt32}

/-! ### The stack after a step -/

theorem type_ne_cname_of_kindFor (h : kindFor current m = .cname) : current.type ≠ .cname := by
  intro htype
  unfold kindFor at h
  split at h
  · rw [if_pos htype] at h
    cases h
  · rename_i hother
    exact hother h

section

variable {rest : PendingStack} (hrest : s.pending = rest) (hnew : current ∉ rest.questions)

include hrest hnew

theorem reworks_settle :
    Reworks current c rest s.chased (s.settle current).pending (s.settle current).chased := by
  unfold settle
  dsimp only
  rw [hrest, PendingStack.remove_eq_self hnew]
  exact .dropped

theorem reworks_fail :
    Reworks current c rest s.chased (s.fail current).pending (s.fail current).chased :=
  reworks_settle hrest hnew

theorem reworks_chase {target : String} {e : Entry} (htype : current.type ≠ .cname)
    (halias : c.alias? current.name = some (target, e)) :
    Reworks current c rest s.chased (s.chase current target).pending
      (s.chase current target).chased := by
  unfold chase
  dsimp only
  split
  · exact reworks_fail hrest hnew
  · dsimp only
    rw [hrest, PendingStack.remove_eq_self hnew]
    exact .replaced target e htype halias

theorem reworks_defer : Reworks current c rest s.chased (s.defer draw current zone).pending
    (s.defer draw current zone).chased := by
  rcases defer_cases draw s current zone with ⟨-, hdefer⟩ | ⟨q, hq, hdefer⟩ <;> rw [hdefer]
  · exact reworks_fail hrest hnew
  · have hother : current ∉ [q] := fun hcurrent =>
      (mem_addressQuestions_iff.1 hq).2.1 (List.mem_singleton.1 hcurrent).symm
    rw [← hrest]
    exact .kept _ hother

theorem reworks_followReferral {kind : ResponseKind} :
    Reworks current d rest s.chased (followReferral current zone m kind rttMs s c).1.pending
      (followReferral current zone m kind rttMs s c).1.chased := by
  unfold followReferral
  split
  · exact reworks_fail hrest hnew
  · dsimp only
    split
    · exact reworks_fail hrest hnew
    · rw [hrest]
      split
      · refine .kept _ fun hmem => ?_
        have := (List.mem_filter.1 hmem).2
        simp at this
      · exact .kept [] List.not_mem_nil

theorem reworks_take :
    Reworks current (take current zone server m rttMs s c).2 rest s.chased
      (take current zone server m rttMs s c).1.pending
      (take current zone server m rttMs s c).1.chased := by
  unfold take
  dsimp only
  cases hkind : kindFor current m with
  | answer => exact reworks_settle hrest hnew
  | cname =>
      have hsweeps := sweeps_readAlias? (storeAnswers current zone m rttMs c) current.name
      -- The question is taken off the stack once more, to no effect.
      have hsettled : ({ s with lastServer := some server }.settle current).pending = rest := by
        rw [← hrest] at hnew ⊢
        exact PendingStack.remove_eq_self hnew
      dsimp only
      split
      · rename_i target e halias
        rw [readAlias?_fst, ← hsweeps.alias?_eq] at halias
        exact reworks_chase hsettled hnew (type_ne_cname_of_kindFor hkind) halias
      · exact reworks_fail hsettled hnew
  | delegation =>
      exact reworks_followReferral (s := { s with lastServer := some server }) hrest hnew
  | bareDelegation =>
      exact reworks_followReferral (s := { s with lastServer := some server }) hrest hnew
  | unknown | refused | notUnderstood | none => exact reworks_fail hrest hnew

theorem reworks_of_settles (hsweeps : Sweeps c d) (h : Settles draw current s c t) :
    Reworks current d rest s.chased t.pending t.chased := by
  cases h with
  | found a hfound =>
      split
      · exact reworks_fail hrest hnew
      · exact reworks_settle hrest hnew
  | aliased target e hnone htype halias =>
      exact reworks_chase hrest hnew htype ((hsweeps.alias?_eq _).trans halias)
  | deferred => exact reworks_defer hrest hnew

end

end Search

namespace Iterative

open CachingResolver.Cache CachingResolver.Search

variable {σ : Type} {env : Environment σ} {port : UInt16} {current q : Question} {n : Nat}
  {s t : Search} {w v : World σ}

/-- What a step that does not fail does to the stack and to the questions that aliases have led
to. -/
theorem reworks_of_step (hnew : current ∉ s.pending.questions)
    (h : step env port current s w = (.ok t, v)) :
    Reworks current v.cache s.pending s.chased t.pending t.chased := by
  have hsweeps := sweeps_prepare (env.draw w.outside).1 port current s w.cache
  unfold step at h
  dsimp only at h
  cases hprepare : prepare (env.draw w.outside).1 port current s w.cache with
  | mk preparation cache =>
      rw [hprepare] at h hsweeps
      cases preparation with
      | settled s' =>
          cases h
          have hsettles := settles_of_prepare (congrArg Prod.fst hprepare)
          exact reworks_of_settles rfl hnew hsweeps hsettles
      | impossible failure => cases h
      | ask zone server query =>
          cases h
          unfold conclude
          dsimp only
          split
          · exact reworks_take rfl hnew
          · exact reworks_fail rfl hnew

/-- Within a number of steps of a lookup, one puts the target of an alias in place of its
question. -/
def Chases (env : Environment σ) (port : UInt16) (q : Question) (w : World σ) (n : Nat)
    (a b : Question) : Prop :=
  ∃ k < n, ∃ s v rest t v', Steps env port k (.start q) w s v ∧ s.pending.pop? = some (a, rest) ∧
    step env port a { s with pending := rest } v = (.ok t, v') ∧
    t.pending = rest.push b ∧ t.chased = b :: s.chased ∧
    ∃ target e, v'.cache.alias? a.name = some (target, e) ∧ b = .make target a.type

theorem Chases.later {a b : Question} {m : Nat} (h : Chases env port q w n a b) (hle : n ≤ m) :
    Chases env port q w m a b := by
  obtain ⟨k, hk, hrest⟩ := h
  exact ⟨k, Nat.lt_of_lt_of_le hk hle, hrest⟩

/-- The last of several steps. -/
theorem Steps.exists_last (h : Steps env port (n + 1) s w t v) :
    ∃ s' w' current rest, Steps env port n s w s' w' ∧ s'.pending.pop? = some (current, rest) ∧
      step env port current { s' with pending := rest } w' = (.ok t, v) := by
  induction n generalizing s w with
  | zero =>
      cases h with
      | more hpop hstep hrest =>
          cases hrest
          exact ⟨s, w, _, _, .none, hpop, hstep⟩
  | succ n ih =>
      cases h with
      | more hpop hstep hrest =>
          obtain ⟨s', w', top, below, hsteps, hlast⟩ := ih hrest
          exact ⟨s', w', top, below, .more hpop hstep hsteps, hlast⟩

/-- What a step does to the stack keeps it disciplined. -/
theorem disciplined_of_reworks {c : Cache} {stack rest after : PendingStack}
    {chased chased' : List Question} {replaces : Question → Question → Prop}
    (h : stack.Disciplined q replaces) (hpop : stack.pop? = some (current, rest))
    (hreworks : Reworks current c rest chased after chased')
    (hreplaces : ∀ target e, c.alias? current.name = some (target, e) →
      after = rest.push (.make target current.type) →
        chased' = .make target current.type :: chased →
          replaces current (.make target current.type)) :
    after.Disciplined q replaces := by
  obtain ⟨-, hrest⟩ := h.of_pop? hpop
  have hbottom := PendingStack.bottom?_of_pop? hpop
  cases hreworks with
  | dropped => exact hrest
  | replaced target e _ halias =>
      refine ⟨PendingStack.nodup_push hrest.nodup, fun b hb => ?_⟩
      rw [PendingStack.bottom?_push] at hb
      cases hbelow : rest.bottom? with
      | some below =>
          rw [hbelow] at hb
          exact hrest.bottom b (hbelow.trans hb)
      | none =>
          -- The question taken off was the last one, and its alias takes its place at the bottom.
          rw [hbelow] at hb hbottom
          obtain rfl := Option.some.inj hb
          exact (h.bottom current hbottom).tail (hreplaces target e halias rfl rfl)
  | kept others _ =>
      refine ⟨PendingStack.nodup_pushAll (PendingStack.nodup_push hrest.nodup), fun b hb => ?_⟩
      rw [PendingStack.bottom?_pushAll PendingStack.bottom?_push, ← hbottom] at hb
      exact h.bottom b hb

theorem disciplined_of_steps (h : Steps env port n (.start q) w s v) :
    s.pending.Disciplined q (Chases env port q w n) := by
  induction n generalizing s v with
  | zero =>
      cases h
      exact ⟨List.nodup_singleton q, fun b hb => by cases hb; exact .refl⟩
  | succ n ih =>
      obtain ⟨t, u, current, rest, hsteps, hpop, hstep⟩ := h.exists_last
      have hbefore := ih hsteps
      have hreworks := reworks_of_step (hbefore.of_pop? hpop).1 hstep
      have hlater := hbefore.imp fun a b hab => hab.later n.le_succ
      refine disciplined_of_reworks hlater hpop hreworks fun target e halias hafter hchased => ?_
      exact ⟨n, n.lt_succ_self, t, u, rest, s, v, hsteps, hpop, hstep, hafter, hchased, target, e,
        halias, rfl⟩

/-- After any number of steps of a lookup, whatever is in the cache, whatever the servers answer and
whatever is drawn: no question is pending twice, and the question at the bottom of the stack is that
of the lookup, or one to which aliases have led from there.  The same holds with the question on top
taken off, which is then no longer pending.  The step on it drops it, puts the target of its alias
in its place, or puts it back and others on top of it. -/
theorem work_stack (h : Steps env port n (.start q) w s v) :
    s.pending.Disciplined q (Chases env port q w n) ∧
      ∀ current rest, s.pending.pop? = some (current, rest) →
        current ∉ rest.questions ∧ rest.Disciplined q (Chases env port q w n) ∧
          ∀ t v', step env port current { s with pending := rest } v = (.ok t, v') →
            Reworks current v'.cache rest s.chased t.pending t.chased := by
  have hstack := disciplined_of_steps h
  refine ⟨hstack, fun current rest hpop => ?_⟩
  obtain ⟨hnew, hrest⟩ := hstack.of_pop? hpop
  exact ⟨hnew, hrest, fun t v' hstep => reworks_of_step hnew hstep⟩

/-- The theorem at work: after one step the target of the cached alias is all that is pending. -/
theorem work_stack_alias :
    ∃ s v, Steps (.responding {}) 53 1 (.start aliasQuestion) ⟨aliasCache, ()⟩ s v ∧
      s.pending.bottom? = some (.make "web.example.com." .a) ∧
      Relation.ReflTransGen (Chases (.responding {}) 53 aliasQuestion ⟨aliasCache, ()⟩ 1)
        aliasQuestion (.make "web.example.com." .a) := by
  have hfound : (aliasCache.lookup aliasQuestion.name aliasQuestion.type).1 = none := by
    decide +kernel
  have halias : aliasCache.alias? aliasQuestion.name =
      some ("web.example.com.", { values := ["web.example.com."], ttl := 300 }) := by
    decide +kernel
  have hstep : (step (.responding {}) 53 aliasQuestion { pending := {} } ⟨aliasCache, ()⟩).1 = _ :=
    step_of_alias? hfound (by decide) halias
  have hsteps : Steps (.responding {}) 53 1 (.start aliasQuestion) ⟨aliasCache, ()⟩
      (Search.chase { pending := {} } aliasQuestion "web.example.com.") _ :=
    .more rfl (Prod.ext hstep rfl) .none
  exact ⟨_, _, hsteps, rfl, (work_stack hsteps).1.bottom _ rfl⟩

end Iterative

end CachingResolver
