import CachingResolver.Proofs.Lookup.WorkStack
import Mathlib.Data.Finset.Card
import Mathlib.Data.Finset.Prod

/-!
# Steps that ask nobody

A lookup may take many steps in a row that the cache decides alone: it drops questions that are
answered or have failed, follows aliases, and puts the question for the address of a server above
the one that the server is needed for.  None of these can go on for ever, provided that every
address record set in the cache holds an address (`finite_silence`).

The stack alone does not show it, because it grows with every question that has to wait.  The
questions that can come up at all are finitely many (`Closed`).  Whenever a question fails for the
first time, or an alias leads to a question for the first time, there are fewer left to which this
can happen, and between two such events a question that has been put above another one is either
given up or has to wait itself: the cache cannot answer it, because then the server would have had
an address (`found?_eq_none_of_mem_serverNames`).  `rank` puts these together.  A record set of
addresses that holds none breaks the last point, and with it a search can go on without end
(`endless_silence`).
-/

namespace CachingResolver

namespace PendingStack

/-- All questions on the stack belong to a set, and none is there twice. -/
structure Within (s : PendingStack) (all : Finset Question) : Prop where
  nodup : s.questions.Nodup
  mem : ∀ q ∈ s.questions, q ∈ all

namespace Within

variable {s rest : PendingStack} {all : Finset Question} {p q : Question}

theorem length_le (h : s.Within all) : s.questions.length ≤ all.card := by
  rw [← List.toFinset_card_of_nodup h.nodup]
  exact Finset.card_le_card fun q hq => h.mem q (List.mem_toFinset.1 hq)

theorem push (h : s.Within all) (hq : q ∈ all) : (s.push q).Within all := by
  refine ⟨nodup_push h.nodup, fun p hp => ?_⟩
  rcases mem_push.1 hp with rfl | hp
  · exact hq
  · exact h.mem p hp

/-- Taking off the question on top. -/
theorem of_pop? (h : s.Within all) (hpop : s.pop? = some (q, rest)) :
    q ∈ all ∧ q ∉ rest.questions ∧ rest.Within all := by
  have hquestions := pop?_eq_some_iff.1 hpop
  obtain ⟨hnew, hnodup⟩ := nodup_of_pop? h.nodup hpop
  refine ⟨h.mem q (hquestions ▸ List.mem_cons_self), hnew, hnodup, fun p hp => h.mem p ?_⟩
  rw [hquestions]
  exact List.mem_cons_of_mem _ hp

end Within

end PendingStack

namespace Search

open CachingResolver.Cache CachingResolver.Iterative

/-- Every record set of addresses that the cache answers with holds an address. -/
def Addressed (c : Cache) : Prop :=
  ∀ name e, c.found? (makeKey name .a) = some e →
    ∃ value ∈ e.values, (IpAddress.ofText? value).isSome = true

/-- A set of questions that neither aliases nor name servers in the cache lead out of. -/
structure Closed (c : Cache) (all : Finset Question) : Prop where
  alias_mem : ∀ q ∈ all, ∀ target e, c.alias? q.name = some (target, e) →
    Question.make target q.type ∈ all
  server_mem : ∀ name, ∀ server ∈ (c.zoneFor name).1.serverNames, Question.make server .a ∈ all

/-- How long the stack can still keep a search busy until a question fails or an alias leads to a
question, for the first time in both cases.  A question that can only be dropped makes the stack
shorter.  Any other one leads to more waiting questions, of which there are at most `all.card`. -/
def slack (all : Finset Question) (c : Cache) (s : Search) : Nat :=
  match s.pending.questions with
  | [] => 0
  | top :: below =>
    if top ∈ s.failed ∨ (c.found? (makeKey top.name top.type)).isSome = true then
      all.card + 1 + (below.length + 1)
    else all.card - (below.length + 1)

/-- The number of questions that aliases have not led to yet, that of questions that have not failed
yet, and the slack of the stack, as the digits of one number. -/
def rank (all : Finset Question) (c : Cache) (s : Search) : Nat :=
  ((all \ s.chased.toFinset).card * (2 * all.card + 2) + (all \ s.failed.toFinset).card) *
    (2 * all.card + 2) + slack all c s

/-! ### The questions that can come up -/

/-- Some questions, and those for everything that stands in the cache, of the same types and for
addresses. -/
def reach (c : Cache) (qs : List Question) : Finset Question :=
  qs.toFinset ∪
    ((c.positive.entries.flatMap fun p => p.2.values).toFinset ×ˢ
      (.a :: qs.map Question.type).toFinset).image fun p => Question.make p.1 p.2

section Reach

variable {c : Cache} {qs : List Question} {q : Question} {value key : String} {e : Entry}
  {type : RecordType}

theorem mem_reach_of_found? (hfound : c.found? key = some e) (hvalue : value ∈ e.values)
    (htype : type ∈ RecordType.a :: qs.map Question.type) :
    Question.make value type ∈ reach c qs := by
  have hentry := Table.mem_entries_of_get? (found?_eq_some_iff.1 hfound).2.1
  refine Finset.mem_union_right _ (Finset.mem_image.2 ⟨(value, type), ?_, rfl⟩)
  refine Finset.mem_product.2 ⟨?_, List.mem_toFinset.2 htype⟩
  exact List.mem_toFinset.2 (List.mem_flatMap.2 ⟨_, hentry, hvalue⟩)

theorem type_mem_of_mem_reach (h : q ∈ reach c qs) :
    q.type ∈ RecordType.a :: qs.map Question.type := by
  rcases Finset.mem_union.1 h with hmem | hmem
  · exact List.mem_cons_of_mem _ (List.mem_map_of_mem (List.mem_toFinset.1 hmem))
  · obtain ⟨p, hp, rfl⟩ := Finset.mem_image.1 hmem
    exact List.mem_toFinset.1 (Finset.mem_product.1 hp).2

/-- The server of an enclosing zone is a value of a record set that the cache answers with. -/
theorem exists_of_mem_serverNames_zoneFor {name server : String}
    (h : server ∈ (c.zoneFor name).1.serverNames) :
    ∃ above e value, c.found? (makeKey above .ns) = some e ∧ value ∈ e.values ∧
      Name.canonical value = server ∧ (c.zoneFor name).1 = c.zoneAt above e := by
  rw [zoneFor_fst] at h ⊢
  rcases c.firstZone_cases (Name.ancestors (Name.canonical name)) with
    hunknown | ⟨above, -, e, hfound, -, hzone⟩
  · rw [hunknown] at h
    exact absurd h List.not_mem_nil
  · rw [hzone] at h ⊢
    obtain ⟨value, hvalue, hname⟩ := mem_serverNames_zoneAt.1 h
    exact ⟨above, e, value, hfound, hvalue, hname, rfl⟩

theorem closed_reach (c : Cache) (qs : List Question) : Closed c (reach c qs) := by
  constructor
  · intro q hq target e halias
    obtain ⟨hfound, hhead⟩ := alias?_eq_some_iff.1 halias
    exact mem_reach_of_found? hfound (List.mem_of_mem_head? hhead) (type_mem_of_mem_reach hq)
  · intro name server hserver
    obtain ⟨above, e, value, hfound, hvalue, rfl, -⟩ := exists_of_mem_serverNames_zoneFor hserver
    have hmem : Question.make value .a ∈ reach c qs :=
      mem_reach_of_found? hfound hvalue List.mem_cons_self
    unfold Question.make at hmem ⊢
    rwa [Name.canonical_canonical]

/-- When no server of the enclosing zone can be reached, the cache answers no question for the
address of one. -/
theorem found?_eq_none_of_mem_serverNames {name server : String} (haddressed : Addressed c)
    (hnone : (c.zoneFor name).1.reachable = [])
    (h : server ∈ (c.zoneFor name).1.serverNames) : c.found? (makeKey server .a) = none := by
  obtain ⟨above, e, value, -, hvalue, rfl, hzone⟩ := exists_of_mem_serverNames_zoneFor h
  rw [makeKey_canonical]
  cases hfound : c.found? (makeKey value .a) with
  | none => rfl
  | some f =>
      obtain ⟨text, htext, hparses⟩ := haddressed value f hfound
      obtain ⟨ip, hip⟩ := Option.isSome_iff_exists.1 hparses
      have hin : ip ∈ c.addressesIn value .a := by
        unfold addressesIn
        rw [hfound]
        exact List.mem_filterMap.2 ⟨text, htext, hip⟩
      have hmem : ip ∈ (c.zoneAt above e).addressesOf value :=
        mem_addressesOf_zoneAt (by decide) hvalue hin
      rw [hzone] at hnone
      exact absurd hnone (Zone.reachable_ne_nil_of_mem_addressesOf hmem)

end Reach

/-! ### What a step without an exchange does to the rank -/

section Rank

variable {all : Finset Question} {draw : Draw} {c : Cache} {s t : Search} {current q : Question}
  {rest : PendingStack} {zone : Zone} {qs : List Question}

theorem digits_lt {a b x y base : Nat} (hx : x < base) (h : a < b) :
    a * base + x < b * base + y :=
  calc
    a * base + x < a * base + base := Nat.add_lt_add_left hx _
    _ = (a + 1) * base := (Nat.succ_mul a base).symm
    _ ≤ b * base := Nat.mul_le_mul_right base h
    _ ≤ b * base + y := Nat.le_add_right _ _

theorem card_sdiff_cons_lt (hmem : q ∈ all) (hnew : q ∉ qs) :
    (all \ (q :: qs).toFinset).card < (all \ qs.toFinset).card := by
  refine Finset.card_lt_card ((Finset.ssubset_iff_of_subset ?_).2 ⟨q, ?_, ?_⟩)
  · exact Finset.sdiff_subset_sdiff (Finset.Subset.refl all) (by simp)
  · simp [hmem, hnew]
  · simp

theorem card_sdiff_lt (all other : Finset Question) : (all \ other).card < 2 * all.card + 2 := by
  have hle : (all \ other).card ≤ all.card := Finset.card_le_card Finset.sdiff_subset
  omega

theorem slack_le (all : Finset Question) (c : Cache) (s : Search) :
    slack all c s ≤ all.card + 1 + s.pending.questions.length := by
  unfold slack
  split
  · exact Nat.zero_le _
  · rename_i heq
    rw [heq, List.length_cons]
    split <;> omega

theorem slack_of_dropped (hpop : s.pending.pop? = some (current, rest))
    (h : current ∈ s.failed ∨ (c.found? (makeKey current.name current.type)).isSome = true) :
    slack all c s = all.card + 1 + (rest.questions.length + 1) := by
  unfold slack
  rw [PendingStack.pop?_eq_some_iff.1 hpop]
  exact if_pos h

theorem slack_ge (hpop : s.pending.pop? = some (current, rest)) :
    all.card - (rest.questions.length + 1) ≤ slack all c s := by
  unfold slack
  rw [PendingStack.pop?_eq_some_iff.1 hpop]
  dsimp only
  split <;> omega

theorem slack_of_waiting (hpop : s.pending.pop? = some (current, rest))
    (hfailed : current ∉ s.failed) (hfound : c.found? (makeKey current.name current.type) = none) :
    slack all c s = all.card - (rest.questions.length + 1) := by
  unfold slack
  rw [PendingStack.pop?_eq_some_iff.1 hpop]
  exact if_neg (by simp [hfailed, hfound])

theorem rank_lt_of_chased (hwithin : t.pending.Within all) (hchased : t.chased = q :: s.chased)
    (hmem : q ∈ all) (hnew : q ∉ s.chased) : rank all c t < rank all c s := by
  have hslack : slack all c t < 2 * all.card + 2 := by
    have := slack_le all c t
    have := hwithin.length_le
    omega
  unfold rank
  rw [hchased]
  exact digits_lt hslack (digits_lt (card_sdiff_lt _ _) (card_sdiff_cons_lt hmem hnew))

theorem rank_lt_of_failed (hwithin : t.pending.Within all) (hchased : t.chased = s.chased)
    (hfailed : t.failed = q :: s.failed) (hmem : q ∈ all) (hnew : q ∉ s.failed) :
    rank all c t < rank all c s := by
  have hslack : slack all c t < 2 * all.card + 2 := by
    have := slack_le all c t
    have := hwithin.length_le
    omega
  unfold rank
  rw [hchased, hfailed]
  exact digits_lt hslack (Nat.add_lt_add_left (card_sdiff_cons_lt hmem hnew) _)

theorem rank_lt_of_slack (hchased : t.chased = s.chased)
    (hfailed : t.failed.toFinset = s.failed.toFinset) (hslack : slack all c t < slack all c s) :
    rank all c t < rank all c s := by
  unfold rank
  rw [hchased, hfailed]
  exact Nat.add_lt_add_left hslack _

/-- A question that is dropped makes the stack shorter. -/
theorem slack_lt_of_dropped (hpop : s.pending.pop? = some (current, rest))
    (h : current ∈ s.failed ∨ (c.found? (makeKey current.name current.type)).isSome = true)
    (ht : t.pending = rest) : slack all c t < slack all c s := by
  have := slack_le all c t
  rw [slack_of_dropped hpop h]
  rw [ht] at this
  omega

/-- Giving up the question on top. -/
theorem rank_lt_of_fail (hwithin : s.pending.Within all)
    (hpop : s.pending.pop? = some (current, rest)) :
    (({ s with pending := rest } : Search).fail current).pending.Within all ∧
      rank all c (({ s with pending := rest } : Search).fail current) < rank all c s := by
  obtain ⟨hmem, hnew, hrest⟩ := hwithin.of_pop? hpop
  have hpending : (({ s with pending := rest } : Search).fail current).pending = rest :=
    PendingStack.remove_eq_self hnew
  rw [← hpending] at hrest
  refine ⟨hrest, ?_⟩
  by_cases hbefore : current ∈ s.failed
  · refine rank_lt_of_slack rfl ?_ (slack_lt_of_dropped hpop (.inl hbefore) hpending)
    show (current :: s.failed).toFinset = s.failed.toFinset
    rw [List.toFinset_cons, Finset.insert_eq_self.2 (List.mem_toFinset.2 hbefore)]
  · exact rank_lt_of_failed hrest rfl rfl hmem hbefore

/-- Putting another question above the one on top, which has not failed and which the cache cannot
answer. -/
theorem rank_lt_of_put (hwithin : t.pending.Within all)
    (hpop : s.pending.pop? = some (current, rest))
    (hpending : t.pending.questions = q :: current :: rest.questions)
    (hchased : t.chased = s.chased) (hfailed : t.failed = s.failed) (hnew : q ∉ s.failed)
    (hfound : c.found? (makeKey q.name q.type) = none) : rank all c t < rank all c s := by
  have hlength := hwithin.length_le
  rw [hpending, List.length_cons, List.length_cons] at hlength
  have hbefore : all.card - (rest.questions.length + 1) ≤ slack all c s := slack_ge hpop
  have hpop' : t.pending.pop? = some (q, ⟨current :: rest.questions⟩) :=
    PendingStack.pop?_eq_some_iff.2 hpending
  have hafter : slack all c t = all.card - (rest.questions.length + 1 + 1) :=
    slack_of_waiting hpop' (hfailed ▸ hnew) hfound
  exact rank_lt_of_slack hchased (by rw [hfailed]) (by omega)

/-- Taking off the question on top, which the cache answers. -/
theorem rank_lt_of_settle (hwithin : s.pending.Within all)
    (hpop : s.pending.pop? = some (current, rest))
    (hfound : (c.found? (makeKey current.name current.type)).isSome = true) :
    (({ s with pending := rest } : Search).settle current).pending.Within all ∧
      rank all c (({ s with pending := rest } : Search).settle current) < rank all c s := by
  obtain ⟨-, hnew, hrest⟩ := hwithin.of_pop? hpop
  have hpending : (({ s with pending := rest } : Search).settle current).pending = rest :=
    PendingStack.remove_eq_self hnew
  rw [← hpending] at hrest
  exact ⟨hrest, rank_lt_of_slack rfl rfl (slack_lt_of_dropped hpop (.inr hfound) hpending)⟩

/-- Following an alias. -/
theorem rank_lt_of_chase {target : String} (hwithin : s.pending.Within all)
    (hpop : s.pending.pop? = some (current, rest))
    (htarget : Question.make target current.type ∈ all) :
    (({ s with pending := rest } : Search).chase current target).pending.Within all ∧
      rank all c (({ s with pending := rest } : Search).chase current target) < rank all c s := by
  obtain ⟨-, hnew, hrest⟩ := hwithin.of_pop? hpop
  unfold chase
  dsimp only
  split
  · exact rank_lt_of_fail hwithin hpop
  · rename_i hfirst
    rw [PendingStack.remove_eq_self hnew]
    exact ⟨hrest.push htarget,
      rank_lt_of_chased (hrest.push htarget) rfl htarget (by simpa using hfirst)⟩

/-- Putting the question for the address of a server above the one on top. -/
theorem rank_lt_of_defer (hwithin : s.pending.Within all)
    (hpop : s.pending.pop? = some (current, rest))
    (hserver : ∀ server ∈ zone.serverNames, Question.make server .a ∈ all ∧
      c.found? (makeKey server .a) = none) :
    (({ s with pending := rest } : Search).defer draw current zone).pending.Within all ∧
      rank all c (({ s with pending := rest } : Search).defer draw current zone) <
        rank all c s := by
  obtain ⟨hmem, hnew, hrest⟩ := hwithin.of_pop? hpop
  rcases defer_cases draw { s with pending := rest } current zone with
    ⟨-, hdefer⟩ | ⟨q, hq, hdefer⟩ <;> rw [hdefer]
  · exact rank_lt_of_fail hwithin hpop
  · obtain ⟨⟨server, hin, rfl⟩, hother, hpending, hfailed⟩ := mem_addressQuestions_iff.1 hq
    obtain ⟨hall, hfound⟩ := hserver server hin
    have hcurrent := PendingStack.questions_push hnew
    have hquestions : ((rest.push current).push (.make server .a)).questions =
        .make server .a :: current :: rest.questions := by
      rw [PendingStack.questions_push, hcurrent]
      rw [hcurrent]
      exact fun hin => (List.mem_cons.1 hin).elim hother hpending
    have hafter := (hrest.push hmem).push hall
    refine ⟨hafter, rank_lt_of_put hafter hpop hquestions rfl rfl hfailed ?_⟩
    rwa [makeKey_make]

/-- Every step that the cache decides lowers the rank. -/
theorem rank_lt_of_settles (hclosed : Closed c all) (haddressed : Addressed c)
    (hwithin : s.pending.Within all) (hpop : s.pending.pop? = some (current, rest))
    (h : Settles draw current { s with pending := rest } c t) :
    t.pending.Within all ∧ rank all c t < rank all c s := by
  obtain ⟨hmem, -, -⟩ := hwithin.of_pop? hpop
  cases h with
  | found a hfound =>
      obtain ⟨e, isNegative⟩ := a
      cases isNegative with
      | true => exact rank_lt_of_fail hwithin hpop
      | false =>
          have hanswers := lookup_eq_some_false_iff.1 hfound
          exact rank_lt_of_settle hwithin hpop (Option.isSome_of_eq_some hanswers)
  | aliased target e _ _ halias =>
      exact rank_lt_of_chase hwithin hpop (hclosed.alias_mem current hmem target e halias)
  | deferred _ _ hnone =>
      exact rank_lt_of_defer hwithin hpop fun server hserver =>
        ⟨hclosed.server_mem current.name server hserver,
          found?_eq_none_of_mem_serverNames haddressed hnone hserver⟩

end Rank

end Search

namespace Iterative

open CachingResolver.Cache CachingResolver.Search

variable {σ : Type} {env : Environment σ} {port : UInt16}

/-- From a search and a world to others by a number of steps, each of which the cache decides. -/
inductive Silent (env : Environment σ) (port : UInt16) :
    Nat → Search → World σ → Search → World σ → Prop
  | none {s : Search} {w : World σ} : Silent env port 0 s w s w
  | more {n : Nat} {s s' t : Search} {w w' v : World σ} {current : Question}
      {pending : PendingStack} (hpop : s.pending.pop? = some (current, pending))
      (hsettled : (prepare (env.draw w.outside).1 port current { s with pending } w.cache).1 =
        .settled s')
      (hstep : step env port current { s with pending } w = (.ok s', w'))
      (hrest : Silent env port n s' w' t v) : Silent env port (n + 1) s w t v

/-- The silence is over: nothing is pending, or the next step fails, or it asks a server. -/
inductive Breaks (env : Environment σ) (port : UInt16) (s : Search) (w : World σ) : Prop
  | ended (hnone : s.pending.isEmpty = true)
  | failed {current : Question} {pending : PendingStack} {failure : Failure}
      (hpop : s.pending.pop? = some (current, pending))
      (hfails : (step env port current { s with pending } w).1 = .error failure)
  | asks {current : Question} {pending : PendingStack} {zone : Zone} {server : Endpoint}
      {query : Message} (hpop : s.pending.pop? = some (current, pending))
      (hasks : (prepare (env.draw w.outside).1 port current { s with pending } w.cache).1 =
        .ask zone server query)

theorem silent_of_prepare {n : Nat} {s s' t : Search} {w v : World σ} {current : Question}
    {pending : PendingStack} {cache : Cache} (hpop : s.pending.pop? = some (current, pending))
    (hprepare : prepare (env.draw w.outside).1 port current { s with pending } w.cache =
      (.settled s', cache))
    (hrest : Silent env port n s' ⟨cache, (env.draw w.outside).2⟩ t v) :
    Silent env port (n + 1) s w t v := by
  refine .more hpop (congrArg Prod.fst hprepare) ?_ hrest
  unfold step
  dsimp only
  rw [hprepare]

/-- A search takes no more steps that the cache decides than its rank says. -/
theorem exists_silent {all : Finset Question} {c : Cache} (hclosed : Closed c all)
    (haddressed : Addressed c) {s : Search} {w : World σ} (hsweeps : Sweeps c w.cache)
    (hwithin : s.pending.Within all) :
    ∃ k ≤ rank all c s, ∃ t v, Silent env port k s w t v ∧ Breaks env port t v := by
  induction hrank : rank all c s using Nat.strong_induction_on generalizing s w with
  | h n ih =>
      cases hpop : s.pending.pop? with
      | none =>
          have hempty := PendingStack.isEmpty_of_pop?_eq_none hpop
          exact ⟨0, Nat.zero_le n, s, w, .none, .ended hempty⟩
      | some top =>
          obtain ⟨current, pending⟩ := top
          have hreads :=
            sweeps_prepare (env.draw w.outside).1 port current { s with pending } w.cache
          cases hprepare :
              prepare (env.draw w.outside).1 port current { s with pending } w.cache with
          | mk preparation cache =>
              rw [hprepare] at hreads
              have hfst := congrArg Prod.fst hprepare
              cases preparation with
              | impossible failure =>
                  exact ⟨0, Nat.zero_le n, s, w, .none, .failed hpop (step_of_impossible hfst)⟩
              | ask zone server query =>
                  exact ⟨0, Nat.zero_le n, s, w, .none, .asks hpop hfst⟩
              | settled s' =>
                  obtain ⟨hafter, hlt⟩ := rank_lt_of_settles hclosed haddressed hwithin hpop
                    ((settles_of_prepare hfst).of_sweeps hsweeps)
                  obtain ⟨k, hk, t, v, hsilent, hbreaks⟩ := ih _ (hrank ▸ hlt)
                    (w := ⟨cache, (env.draw w.outside).2⟩) (hsweeps.trans hreads) hafter rfl
                  have hlonger := silent_of_prepare hpop hprepare hsilent
                  exact ⟨k + 1, by omega, t, v, hlonger, hbreaks⟩

/-- In whatever state a lookup can get to, and for every cache in which all record sets of addresses
hold an address: there is a bound such that the lookup, continued from that state with this cache,
takes no more steps in a row that the cache decides, whatever is drawn.  Then it ends, fails or asks
a server. -/
theorem finite_silence {σ₀ : Type} {env₀ : Environment σ₀} {port₀ : UInt16} {n : Nat} {q : Question}
    {w₀ v₀ : World σ₀} {s : Search} (h : Steps env₀ port₀ n (.start q) w₀ s v₀) (c : Cache)
    (haddressed : Addressed c) :
    ∃ bound, ∀ {σ : Type} (env : Environment σ) (port : UInt16) (outside : σ),
      ∃ k ≤ bound, ∃ t v, Silent env port k s ⟨c, outside⟩ t v ∧ Breaks env port t v := by
  have hwithin : s.pending.Within (reach c s.pending.questions) :=
    ⟨(disciplined_of_steps h).nodup, fun p hp =>
      Finset.mem_union_left _ (List.mem_toFinset.2 hp)⟩
  exact ⟨_, fun env port outside =>
    exists_silent (closed_reach c _) haddressed (Sweeps.refl c) hwithin⟩

/-- Two zones without addresses, each with its server in the other one, and the addresses of a host
in one of them. -/
def entangledZones : Cache :=
  Operation.run {} [.set "a." .ns ["ns.b."] 300 0, .set "b." .ns ["ns.a."] 300 0,
    .set "host.a." .a ["unassigned", "192.0.2.7"] 300 0]

theorem addressed_entangledZones : Addressed entangledZones := by
  intro name e hfound
  have hentries : entangledZones.positive.entries =
      [(makeKey "a." .ns, { values := ["ns.b."], ttl := 300 }),
        (makeKey "b." .ns, { values := ["ns.a."], ttl := 300 }),
        (makeKey "host.a." .a, { values := ["unassigned", "192.0.2.7"], ttl := 300 })] := by
    decide +kernel
  have hentry := Table.mem_entries_of_get? (found?_eq_some_iff.1 hfound).2.1
  rw [hentries] at hentry
  -- Only the entry of the host is one of addresses.
  simp only [List.mem_cons, List.not_mem_nil, Prod.mk.injEq, makeKey_inj, reduceCtorEq, and_false,
    false_and, false_or, and_true, or_false] at hentry
  obtain ⟨-, rfl⟩ := hentry
  exact ⟨"192.0.2.7", by decide, by decide +kernel⟩

/-- The theorem at work: the servers that wait for each other do not keep a lookup busy, for a cache
that holds a live record set of addresses. -/
theorem finite_silence_entangledZones :
    (∃ e, entangledZones.found? (makeKey "host.a." .a) = some e) ∧
      ∃ bound, ∀ {σ : Type} (env : Environment σ) (port : UInt16) (outside : σ),
        ∃ k ≤ bound, ∃ t v, Silent env port k (.start (.make "www.a." .a))
          ⟨entangledZones, outside⟩ t v ∧ Breaks env port t v := by
  have hsteps : Steps (.responding {}) 53 0 (.start (.make "www.a." .a)) ⟨entangledZones, ()⟩
      (.start (.make "www.a." .a)) ⟨entangledZones, ()⟩ := .none
  have hfound : (entangledZones.found? (makeKey "host.a." .a)).isSome = true := by decide +kernel
  exact ⟨Option.isSome_iff_exists.1 hfound,
    finite_silence hsteps entangledZones addressed_entangledZones⟩

/-! ### An address record set without an address -/

/-- A zone whose only server has a record set of addresses that holds none. -/
def unaddressedZone : Cache :=
  Operation.run {} [.set "a." .ns ["ns.b."] 300 0, .set "ns.b." .a ["unassigned"] 300 0]

/-- The search puts the question for the address above the first one. -/
theorem prepare_unaddressedZone (draw : Draw) (port : UInt16) {c : Cache}
    (h : Sweeps unaddressedZone c) :
    (prepare draw port (.make "www.a." .a) { pending := {} } c).1 =
      .settled { pending := ⟨[.make "ns.b." .a, .make "www.a." .a]⟩ } := by
  have hopen : Unsettled unaddressedZone (.make "www.a." .a) :=
    ⟨by decide +kernel, .inr (by decide +kernel)⟩
  have hopen' : Unsettled c (.make "www.a." .a) := by
    unfold Unsettled at hopen ⊢
    rwa [h.lookup_fst_eq, h.readAlias?_fst_eq]
  obtain ⟨d, hd, hquery⟩ := prepare_of_unsettled draw port { pending := {} } hopen'
  have hzone := (h.trans hd).zoneFor_fst_eq (Question.make "www.a." .a).name
  have hquestions : ({ pending := {} } : Search).addressQuestions (.make "www.a." .a)
      (unaddressedZone.zoneFor (Question.make "www.a." .a).name).1 = [.make "ns.b." .a] := by
    decide +kernel
  have hpick := pick_mem draw.server (Question.make "ns.b." .a) []
  rw [hquery, prepareQuery_of_unreachable (by rw [hzone]; decide +kernel)
    (by rw [hzone]; decide +kernel), hzone]
  unfold defer
  rw [hquestions]
  dsimp only
  rw [List.mem_singleton.1 hpick]
  exact congrArg Preparation.settled (by decide +kernel)

/-- The search drops the question for the address as answered. -/
theorem prepare_unaddressedServer (draw : Draw) (port : UInt16) {c : Cache}
    (h : Sweeps unaddressedZone c) :
    (prepare draw port (.make "ns.b." .a) (.start (.make "www.a." .a)) c).1 =
      .settled (.start (.make "www.a." .a)) := by
  have hfound : (unaddressedZone.lookup (Question.make "ns.b." .a).name .a).1 =
      some ⟨{ values := ["unassigned"], ttl := 300 }, false⟩ := by decide +kernel
  rw [← h.lookup_fst_eq] at hfound
  rw [prepare_of_lookup hfound]
  exact congrArg Preparation.settled (by decide +kernel)

/-- So the hypothesis on address record sets is needed: from here the search takes as many steps as
one likes that the cache decides, and is always back where it started. -/
theorem endless_silence (env : Environment σ) (port : UInt16) (rounds : Nat) {w : World σ}
    (h : Sweeps unaddressedZone w.cache) :
    ∃ v, Silent env port (2 * rounds) (.start (.make "www.a." .a)) w (.start (.make "www.a." .a))
      v := by
  induction rounds generalizing w with
  | zero => exact ⟨w, .none⟩
  | succ rounds ih =>
      have hput := prepare_unaddressedZone (env.draw w.outside).1 port h
      have hreads := h.trans (sweeps_prepare (env.draw w.outside).1 port (.make "www.a." .a)
        { pending := {} } w.cache)
      cases hfirst : prepare (env.draw w.outside).1 port (.make "www.a." .a) { pending := {} }
          w.cache with
      | mk first cache =>
          rw [hfirst] at hput hreads
          obtain rfl : first = _ := hput
          have hdropped :=
            prepare_unaddressedServer (env.draw (env.draw w.outside).2).1 port hreads
          have hreads' := hreads.trans (sweeps_prepare (env.draw (env.draw w.outside).2).1 port
            (.make "ns.b." .a) (.start (.make "www.a." .a)) cache)
          cases hsecond : prepare (env.draw (env.draw w.outside).2).1 port (.make "ns.b." .a)
              (.start (.make "www.a." .a)) cache with
          | mk second cache' =>
              rw [hsecond] at hdropped hreads'
              obtain rfl : second = _ := hdropped
              obtain ⟨v, hsilent⟩ := ih (w := ⟨cache', (env.draw (env.draw w.outside).2).2⟩) hreads'
              refine ⟨v, silent_of_prepare rfl hfirst ?_⟩
              exact silent_of_prepare (w := ⟨cache, (env.draw w.outside).2⟩) rfl hsecond hsilent

end Iterative

end CachingResolver
