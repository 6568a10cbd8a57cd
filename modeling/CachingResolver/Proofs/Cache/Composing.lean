import CachingResolver.Lookup.Compose
import CachingResolver.Proofs.Cache.Key
import CachingResolver.Proofs.Cache.Reading

/-!
# Composed answers without the effects of reading

`follow?` walks along aliases on what the keys answer, with no effect, and comes to the same records
as the walk that reads (`walk_fst`).  `decision?` is what the short way decides on a question
(`answerFromCache_fst`).  The two agree, except where a known failure hides records to which aliases
lead: `compose_eq_iff`.
-/

namespace CachingResolver.Cache

variable {c d : Cache}

/-! ### Aliases -/

/-- The alias that the cache answers for a name, with its entry. -/
def alias? (c : Cache) (name : String) : Option (String × Entry) :=
  (c.found? (makeKey name .cname)).bind fun e => e.values.head?.map fun target => (target, e)

theorem alias?_eq_some_iff {name target : String} {e : Entry} :
    c.alias? name = some (target, e) ↔
      c.found? (makeKey name .cname) = some e ∧ e.values.head? = some target := by
  unfold alias?
  simp only [Option.bind_eq_some_iff, Option.map_eq_some_iff, Prod.mk.injEq]
  constructor
  · rintro ⟨f, hf, _, hhead, rfl, rfl⟩
    exact ⟨hf, hhead⟩
  · rintro ⟨he, hhead⟩
    exact ⟨e, he, target, hhead, rfl, rfl⟩

theorem readAlias?_fst (c : Cache) (name : String) : (c.readAlias? name).1 = c.alias? name := by
  unfold readAlias? alias?
  dsimp only
  rw [getPositive?_fst]

theorem sweeps_readAlias? (c : Cache) (name : String) : Sweeps c (c.readAlias? name).2 :=
  sweeps_getPositive? c name .cname

theorem Sweeps.alias?_eq (h : Sweeps c d) (name : String) : d.alias? name = c.alias? name := by
  unfold alias?
  rw [h.found?_eq]

theorem Sweeps.readAlias?_fst_eq (h : Sweeps c d) (name : String) :
    (d.readAlias? name).1 = (c.readAlias? name).1 := by
  rw [readAlias?_fst, readAlias?_fst, h.alias?_eq]

/-! ### Walking along aliases -/

/-- The records of a type to which the cached aliases of a name lead, and the targets of the
aliases. -/
def follow? (c : Cache) (type : RecordType) :
    (rounds : Nat) → (name : String) → Option (List ResourceRecord × List String)
  | 0, _ => none
  | rounds + 1, name =>
    match c.found? (makeKey name type) with
    | some e => some (e.records name type c.now, [])
    | none =>
      if type = .cname then none
      else
        match c.alias? name with
        | none => none
        | some (target, e) =>
          (c.follow? type rounds target).map fun (records, aliases) =>
            (e.records name .cname c.now ++ records, target :: aliases)

theorem Sweeps.follow?_eq (h : Sweeps c d) (type : RecordType) (rounds : Nat) (name : String) :
    d.follow? type rounds name = c.follow? type rounds name := by
  induction rounds generalizing name with
  | zero => rfl
  | succ rounds ih =>
      unfold follow?
      rw [h.found?_eq, h.alias?_eq, h.now_eq]
      simp only [ih]

theorem sweeps_walk (c : Cache) (type : RecordType) (rounds : Nat) (name : String) :
    Sweeps c (c.walk type rounds name).2 := by
  induction rounds generalizing c name with
  | zero => exact Sweeps.refl c
  | succ rounds ih =>
      have hread := sweeps_getPositive? c name type
      unfold walk
      dsimp only
      split
      · exact hread
      · split
        · exact hread
        · have halias := hread.trans (sweeps_readAlias? (c.getPositive? name type).2 name)
          split
          · exact halias
          · exact halias.trans (ih _ _)

/-- The walk that reads comes to the same records. -/
theorem walk_fst (c : Cache) (type : RecordType) (rounds : Nat) (name : String) :
    (c.walk type rounds name).1 = c.follow? type rounds name := by
  induction rounds generalizing c name with
  | zero => rfl
  | succ rounds ih =>
      have hread := sweeps_getPositive? c name type
      have halias := hread.trans (sweeps_readAlias? (c.getPositive? name type).2 name)
      unfold walk follow?
      dsimp only
      rw [getPositive?_fst]
      cases c.found? (makeKey name type) with
      | some e =>
          dsimp only
          rw [hread.now_eq]
      | none =>
          dsimp only
          by_cases htype : type = .cname
          · rw [if_pos htype, if_pos htype]
          · rw [if_neg htype, if_neg htype, readAlias?_fst, hread.alias?_eq]
            cases c.alias? name with
            | none => rfl
            | some link =>
                obtain ⟨target, e⟩ := link
                dsimp only
                have hwalk := halias.trans (sweeps_walk
                  ((c.getPositive? name type).2.readAlias? name).2 type rounds target)
                rw [ih, halias.follow?_eq, hwalk.now_eq]

/-! ### Composing -/

/-- Whether a question is known to fail. -/
def Fails (c : Cache) (q : Question) : Prop :=
  ∃ a, (c.lookup q.name q.type).1 = some a ∧ a.isNegative = true

theorem isNegative_fst_eq_true_iff {q : Question} :
    (c.isNegative q.name q.type).1 = true ↔ c.Fails q := by
  unfold isNegative Fails
  dsimp only
  rw [Option.any_eq_true]

theorem sweeps_compose (c : Cache) (q : Question) (exchanges : Nat) (server : Option Endpoint) :
    Sweeps c (c.compose q exchanges server).2 := by
  have hwalk := sweeps_walk c q.type (maxAliases + 1) q.name
  unfold compose
  dsimp only
  split
  · exact hwalk
  · exact hwalk.trans (sweeps_isNegative _ _ _)

theorem compose_fst_of_follow? {q : Question} {exchanges : Nat} {server : Option Endpoint}
    {records : List ResourceRecord} {aliases : List String}
    (h : c.follow? q.type (maxAliases + 1) q.name = some (records, aliases)) :
    (c.compose q exchanges server).1 =
      .ok { records, isCacheHit := exchanges == 0, aliases, server } := by
  unfold compose
  dsimp only
  rw [walk_fst, h]

theorem Sweeps.isNegative_fst_eq (h : Sweeps c d) (name : String) (type : RecordType) :
    (d.isNegative name type).1 = (c.isNegative name type).1 := by
  unfold isNegative
  dsimp only
  rw [h.lookup_fst_eq]

theorem compose_fst_of_follow?_eq_none {q : Question} {exchanges : Nat} {server : Option Endpoint}
    (h : c.follow? q.type (maxAliases + 1) q.name = none) :
    (c.compose q exchanges server).1 =
      .error (if (c.isNegative q.name q.type).1 then .knownFailure q.text
        else .unresolved q.text) := by
  have hwalk := sweeps_walk c q.type (maxAliases + 1) q.name
  unfold compose
  dsimp only
  rw [walk_fst, h]
  dsimp only
  rw [hwalk.isNegative_fst_eq]

theorem Sweeps.compose_fst_eq (h : Sweeps c d) (q : Question) (exchanges : Nat)
    (server : Option Endpoint) :
    (d.compose q exchanges server).1 = (c.compose q exchanges server).1 := by
  have hfollow := h.follow?_eq q.type (maxAliases + 1) q.name
  cases hc : c.follow? q.type (maxAliases + 1) q.name with
  | none =>
      rw [compose_fst_of_follow?_eq_none hc, compose_fst_of_follow?_eq_none (hfollow.trans hc),
        h.isNegative_fst_eq]
  | some found =>
      rw [compose_fst_of_follow? hc, compose_fst_of_follow? (hfollow.trans hc)]

/-- An answer is composed exactly when the cached aliases lead to records, and then of these. -/
theorem compose_eq_ok_iff {q : Question} {exchanges : Nat} {server : Option Endpoint}
    {resolution : Resolution} :
    (c.compose q exchanges server).1 = .ok resolution ↔
      ∃ records aliases, c.follow? q.type (maxAliases + 1) q.name = some (records, aliases) ∧
        resolution = { records, isCacheHit := exchanges == 0, aliases, server } := by
  constructor
  · intro h
    cases hfollow : c.follow? q.type (maxAliases + 1) q.name with
    | none =>
        rw [compose_fst_of_follow?_eq_none hfollow] at h
        cases h
    | some found =>
        obtain ⟨records, aliases⟩ := found
        rw [compose_fst_of_follow? hfollow] at h
        exact ⟨records, aliases, rfl, (Except.ok.inj h).symm⟩
  · rintro ⟨records, aliases, hfollow, rfl⟩
    exact compose_fst_of_follow? hfollow

/-- Composing an answer only walks along the aliases. -/
theorem compose_snd_of_follow? {q : Question} {exchanges : Nat} {server : Option Endpoint}
    {found : List ResourceRecord × List String}
    (h : c.follow? q.type (maxAliases + 1) q.name = some found) :
    (c.compose q exchanges server).2 = (c.walk q.type (maxAliases + 1) q.name).2 := by
  unfold compose
  dsimp only
  rw [walk_fst, h]

/-! ### The short way -/

/-- How the short way decides a question. -/
inductive Decision (c : Cache) (q : Question) : Except Failure Resolution → Prop
  | failure (hfails : c.Fails q) : Decision c q (.error (.knownFailure q.text))
  | direct {e : Entry} (hfound : c.found? (makeKey q.name q.type) = some e) :
      Decision c q (.ok { records := e.records q.name q.type c.now, isCacheHit := true })
  | along {target : String} {e f : Entry} (hnone : (c.lookup q.name q.type).1 = none)
      (htype : q.type ≠ .cname) (halias : c.alias? q.name = some (target, e))
      (hfound : c.found? (makeKey target q.type) = some f) :
      Decision c q (.ok
        { records := e.records q.name .cname c.now ++ f.records target q.type c.now
          isCacheHit := true
          aliases := [target] })

theorem decision_of_answerFromCache {q : Question} {outcome : Except Failure Resolution}
    (h : (c.answerFromCache q).1 = outcome.map some) : Decision c q outcome := by
  have hread := sweeps_lookup c q.name q.type
  unfold answerFromCache at h
  dsimp only at h
  cases hfound : (c.lookup q.name q.type).1 with
  | some a =>
      rw [hfound] at h
      dsimp only at h
      obtain ⟨e, isNegative⟩ := a
      cases isNegative with
      | true =>
          cases outcome with
          | ok r => cases h
          | error failure =>
              cases h
              exact .failure ⟨_, hfound, rfl⟩
      | false =>
          cases outcome with
          | error failure => cases h
          | ok r =>
              cases h
              rw [hread.now_eq]
              exact .direct (lookup_eq_some_false_iff.1 hfound)
  | none =>
      rw [hfound] at h
      dsimp only at h
      split at h
      · cases outcome <;> cases h
      · rename_i htype
        have halias := hread.trans (sweeps_readAlias? (c.lookup q.name q.type).2 q.name)
        rw [readAlias?_fst, hread.alias?_eq] at h
        cases hlink : c.alias? q.name with
        | none =>
            rw [hlink] at h
            cases outcome <;> cases h
        | some link =>
            obtain ⟨target, e⟩ := link
            rw [hlink] at h
            dsimp only at h
            rw [getPositive?_fst, halias.found?_eq] at h
            cases hrecords : c.found? (makeKey target q.type) with
            | none =>
                rw [hrecords] at h
                cases outcome <;> cases h
            | some f =>
                rw [hrecords] at h
                cases outcome with
                | error failure => cases h
                | ok r =>
                    cases h
                    have hall := halias.trans (sweeps_getPositive?
                      ((c.lookup q.name q.type).2.readAlias? q.name).2 target q.type)
                    rw [hall.now_eq]
                    exact .along hfound htype hlink hrecords

theorem follow?_of_found? {type : RecordType} {rounds : Nat} {name : String} {e : Entry}
    (h : c.found? (makeKey name type) = some e) :
    c.follow? type (rounds + 1) name = some (e.records name type c.now, []) := by
  rw [follow?, h]

theorem follow?_of_alias? {type : RecordType} {rounds : Nat} {name target : String} {e : Entry}
    (hnone : c.found? (makeKey name type) = none) (htype : type ≠ .cname)
    (halias : c.alias? name = some (target, e)) :
    c.follow? type (rounds + 1) name =
      (c.follow? type rounds target).map fun (records, aliases) =>
        (e.records name .cname c.now ++ records, target :: aliases) := by
  rw [follow?, hnone]
  dsimp only
  rw [if_neg htype, halias]

/-- What the short way decides is also composed after a lookup without exchanges, except when the
question is known to fail and the aliases of its name lead to records all the same. -/
theorem Decision.compose_eq_iff {q : Question} {outcome : Except Failure Resolution}
    (h : Decision c q outcome) :
    (c.compose q 0 none).1 = outcome ↔
      ∀ failure, outcome = .error failure → c.follow? q.type (maxAliases + 1) q.name = none := by
  cases h with
  | failure hfails =>
      have hnegative := isNegative_fst_eq_true_iff.2 hfails
      constructor
      · intro hcompose failure _
        cases hfollow : c.follow? q.type (maxAliases + 1) q.name with
        | none => rfl
        | some found =>
            rw [compose_fst_of_follow? hfollow] at hcompose
            cases hcompose
      · intro hnone
        rw [compose_fst_of_follow?_eq_none (hnone _ rfl), hnegative]
        rfl
  | direct hfound =>
      have hfollow : c.follow? q.type (maxAliases + 1) q.name = some (_, []) :=
        follow?_of_found? hfound
      refine ⟨fun _ failure herror => ?_, fun _ => compose_fst_of_follow? hfollow⟩
      cases herror
  | along hnone htype halias hfound =>
      rename_i target e f
      have hmiss : c.found? (makeKey q.name q.type) = none := by
        cases hf : c.found? (makeKey q.name q.type) with
        | none => rfl
        | some g =>
            rw [lookup_eq_some_false_iff.2 hf] at hnone
            cases hnone
      have hfollow : c.follow? q.type (maxAliases + 1) q.name =
          some (e.records q.name .cname c.now ++ f.records target q.type c.now, [target]) := by
        rw [follow?_of_alias? hmiss htype halias, maxAliases, follow?_of_found? hfound]
        rfl
      refine ⟨fun _ failure herror => ?_, fun _ => compose_fst_of_follow? hfollow⟩
      cases herror

end CachingResolver.Cache
