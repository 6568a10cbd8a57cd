import CachingResolver.Proofs.Lookup.AnswerScope
import CachingResolver.Proofs.Lookup.Course
import CachingResolver.Proofs.Lookup.FromCache

/-!
# Looking a question up again

An answer is composed by walking along cached aliases, and the walk removes what it finds expired.
What it has been through can be read again at the same moment without any effect but on the
counters: `Walked` says so of a name, and it holds after every walk that comes to records
(`walked_walk`).

A lookup from such a cache settles the question in as many steps as the walk has rounds and asks no
server (`run_of_walked`).  So a lookup that has succeeded can be repeated at once without an
exchange and without a change to the tables.
-/

namespace CachingResolver

namespace Cache

variable {c d : Cache} {type : RecordType} {rounds : Nat} {name : String}

/-! ### Reading what has been read -/

/-- Reading a key that is not expired only counts. -/
theorem Counted.lookup (h : Counted c d) (hread : c.read (makeKey name type) ≠ .expired) :
    Counted c (d.lookup name type).2 := by
  obtain ⟨f, rfl⟩ := h
  have hsame : (c.count f).read (makeKey name type) = c.read (makeKey name type) := rfl
  unfold Cache.lookup
  dsimp only
  rw [hsame]
  cases hcase : c.read (makeKey name type) with
  | negative e => exact ⟨fun m => { f m with negativeHits := (f m).negativeHits + 1 }, rfl⟩
  | positive e => exact ⟨fun m => { f m with hits := (f m).hits + 1 }, rfl⟩
  | expired => exact absurd hcase hread
  | absent => exact ⟨fun m => { f m with misses := (f m).misses + 1 }, rfl⟩

theorem read_ne_expired_of_found? {key : String} {e : Entry} (h : c.found? key = some e) :
    c.read key ≠ .expired := by
  intro hread
  unfold found? at h
  rw [hread] at h
  cases h

theorem read_ne_expired_of_vacant {key : String} (h : c.Vacant key) : c.read key ≠ .expired := by
  unfold read
  rw [slot_eq_absent_iff.2 h.1, slot_eq_absent_iff.2 h.2]
  exact fun hread => by cases hread

/-- A key that has just been read is not expired: if it was, it is gone. -/
theorem read_lookup_ne_expired (c : Cache) (name : String) (type : RecordType) :
    (c.lookup name type).2.read (makeKey name type) ≠ .expired := by
  cases hfound : (c.lookup name type).1 with
  | none => exact read_ne_expired_of_vacant (vacant_lookup hfound)
  | some a =>
      unfold lookup at hfound ⊢
      dsimp only at hfound ⊢
      cases hread : c.read (makeKey name type) with
      | negative e => exact fun hexpired => Reading.noConfusion (hread.symm.trans hexpired)
      | positive e => exact fun hexpired => Reading.noConfusion (hread.symm.trans hexpired)
      | expired | absent =>
          rw [hread] at hfound
          cases hfound

theorem Sweeps.read_ne_expired (h : Sweeps c d) {key : String} (hread : c.read key ≠ .expired) :
    d.read key ≠ .expired := by
  rcases h.keeps key with ⟨hp, hn⟩ | ⟨hexpired, -, -⟩
  · rw [read_congr h.now_eq hp hn]
    exact hread
  · exact absurd hexpired hread

theorem read_alias_ne_expired {target : String} {e : Entry}
    (h : c.alias? name = some (target, e)) : c.read (makeKey name .cname) ≠ .expired :=
  read_ne_expired_of_found? (alias?_eq_some_iff.1 h).1

/-! ### Walking where a walk has been -/

/-- In a number of rounds the aliases of a name lead to records of a type, and none of the keys on
the way is expired. -/
inductive Walked (c : Cache) (type : RecordType) : Nat → String → Prop
  | found {rounds : Nat} {name : String} {e : Entry}
      (hfound : c.found? (makeKey name type) = some e) : Walked c type (rounds + 1) name
  | along {rounds : Nat} {name target : String} {e : Entry}
      (hnone : c.found? (makeKey name type) = none)
      (hread : c.read (makeKey name type) ≠ .expired) (htype : type ≠ .cname)
      (halias : c.alias? name = some (target, e)) (hrest : Walked c type rounds target) :
      Walked c type (rounds + 1) name

/-- The question for the target of an alias has the canonical form of the target as its name. -/
theorem Walked.make (h : Walked c type rounds name) :
    Walked c (Question.make name type).type rounds (Question.make name type).name := by
  have hkey : ∀ t, makeKey (Question.make name type).name t = makeKey name t :=
    makeKey_canonical name
  cases h with
  | found hfound => exact .found ((hkey type).symm ▸ hfound)
  | @along _ _ target e hnone hread htype halias hrest =>
      have halias' : c.alias? (Question.make name type).name = some (target, e) := by
        unfold alias?
        rw [hkey]
        exact halias
      exact .along ((hkey type).symm ▸ hnone) ((hkey type).symm ▸ hread) htype halias' hrest

/-- After a walk that has come to records none of the keys on the way is expired. -/
theorem walked_walk {found : List ResourceRecord × List String}
    (h : c.follow? type rounds name = some found) :
    Walked (c.walk type rounds name).2 type rounds name := by
  induction rounds generalizing c name found with
  | zero => cases h
  | succ rounds ih =>
      have hread := sweeps_getPositive? c name type
      have hexpired : (c.getPositive? name type).2.read (makeKey name type) ≠ .expired :=
        read_lookup_ne_expired c name type
      unfold walk
      unfold follow? at h
      dsimp only
      rw [getPositive?_fst]
      cases hfound : c.found? (makeKey name type) with
      | some e => exact .found ((hread.found?_eq _).trans hfound)
      | none =>
          rw [hfound] at h
          dsimp only at h ⊢
          split at h
          · cases h
          · rename_i htype
            have halias := hread.trans (sweeps_readAlias? (c.getPositive? name type).2 name)
            rw [if_neg htype, readAlias?_fst, hread.alias?_eq]
            cases hlink : c.alias? name with
            | none =>
                rw [hlink] at h
                cases h
            | some link =>
                obtain ⟨target, e⟩ := link
                rw [hlink] at h
                obtain ⟨rest, hrest, -⟩ := Option.map_eq_some_iff.1 h
                have hwalked := ih ((halias.follow?_eq type rounds target).trans hrest)
                -- The rest of the walk does not bring back what was expired.
                have hlater := (sweeps_readAlias? (c.getPositive? name type).2 name).trans
                  (sweeps_walk ((c.getPositive? name type).2.readAlias? name).2 type rounds target)
                have hall := hread.trans hlater
                exact .along ((hall.found?_eq _).trans hfound) (hlater.read_ne_expired hexpired)
                  htype ((hall.alias?_eq _).trans hlink) hwalked

/-- Walking where a walk has been only counts. -/
theorem Walked.counted_walk (h : Walked c type rounds name) (hcounted : Counted c d) :
    Counted c (d.walk type rounds name).2 := by
  induction h generalizing d with
  | @found rounds name e hfound =>
      unfold walk
      dsimp only
      rw [getPositive?_fst, hcounted.sweeps.found?_eq, hfound]
      exact hcounted.lookup (read_ne_expired_of_found? hfound)
  | @along rounds name target e hnone hread htype halias _ ih =>
      have hread' : Counted c (d.getPositive? name type).2 := hcounted.lookup hread
      have halias' : Counted c ((d.getPositive? name type).2.readAlias? name).2 :=
        hread'.lookup (read_alias_ne_expired halias)
      unfold walk
      dsimp only
      rw [getPositive?_fst, hcounted.sweeps.found?_eq, hnone]
      dsimp only
      rw [if_neg htype, readAlias?_fst, hread'.sweeps.alias?_eq, halias]
      exact ih halias'

end Cache

namespace Iterative

open CachingResolver.Cache CachingResolver.Search

variable {σ τ : Type} {current : Question} {rounds : Nat} {s : Search} {w : World σ} {c : Cache}

/-- A run settles its question in as many steps as the walk has rounds.  It asks no server and only
counts. -/
theorem run_of_walked (env : Environment σ) (port : UInt16) (q : Question) (extra : Nat)
    (h : Walked c current.type rounds current.name) (hpending : s.pending.questions = [current])
    (hcounted : Counted c w.cache) :
    ∃ t v n, run env port q (rounds + extra) s w = (.ok t, v) ∧ Counted c v.cache ∧
      v.outside = env.afterDraws n w.outside ∧ t.exchanges = s.exchanges ∧
      t.lastServer = s.lastServer := by
  induction rounds generalizing s w current with
  | zero => cases h
  | succ rounds ih =>
      rw [Nat.add_right_comm]
      -- Whatever the cache says of the question itself settles it.
      have hone : ∀ a, (w.cache.lookup current.name current.type).1 = some a →
          c.read (makeKey current.name current.type) ≠ .expired →
          ∃ t v n, run env port q (rounds + extra + 1) s w = (.ok t, v) ∧ Counted c v.cache ∧
            v.outside = env.afterDraws n w.outside ∧ t.exchanges = s.exchanges ∧
            t.lastServer = s.lastServer := by
        intro a ha hread
        obtain ⟨t, hrun, hexchanges, hserver⟩ := run_of_lookup env port q hpending ha
        exact ⟨t, _, 1, hrun, hcounted.lookup hread, rfl, hexchanges, hserver⟩
      cases h with
      | found hfound =>
          have hfound' := (hcounted.sweeps.found?_eq _).trans hfound
          exact hone _ (lookup_eq_some_false_iff.2 hfound') (read_ne_expired_of_found? hfound)
      | @along _ _ target e hnone hread htype halias hrest =>
          cases hlookup : (w.cache.lookup current.name current.type).1 with
          | some a => exact hone a hlookup hread
          | none =>
              obtain ⟨next, hrun, hnext, hexchanges, hserver⟩ := run_of_alias? env port q hpending
                hlookup htype ((hcounted.sweeps.alias?_eq _).trans halias)
              have hread := (hcounted.lookup hread).lookup (read_alias_ne_expired halias)
              rw [hrun, ← hexchanges, ← hserver]
              rcases hnext with hnil | hnext
              · -- The target closes a loop, so nothing is left to do.
                exact ⟨next, _, 1, run_of_pending_eq_nil hnil, hread, rfl, rfl, rfl⟩
              · obtain ⟨t, v, n, hrun, hv, houtside, hsame⟩ :=
                  ih (w := ⟨_, (env.draw w.outside).2⟩) hrest.make hnext hread
                exact ⟨t, v, n + 1, hrun, hv, houtside, hsame⟩

/-- A lookup that has succeeded gives the same answer again at the same moment, whatever the outside
may have become.  It asks no server, and it leaves both tables as they are. -/
theorem lookup_again (r r' : Iterative) (env : Environment σ) (env' : Environment τ) (q : Question)
    (w : World σ) (outside : τ) {resolution : Resolution} (hsteps : 17 ≤ r'.maxSteps)
    (hok : (r.lookup env q w).1 = .ok resolution) :
    ∃ again : World τ,
      r'.lookup env' q ⟨(r.lookup env q w).2.cache, outside⟩ =
        (.ok { resolution with isCacheHit := true, server := none }, again) ∧
      (∃ n, again.outside = env'.afterDraws n outside) ∧
      again.cache.positive = (r.lookup env q w).2.cache.positive ∧
      again.cache.negative = (r.lookup env q w).2.cache.negative := by
  obtain ⟨s, v, hrun, hcompose⟩ := lookup_eq_ok_iff.1 hok
  obtain ⟨records, aliases, hfollow, rfl⟩ := compose_eq_ok_iff.1 hcompose
  have hcache : (r.lookup env q w).2.cache = (v.cache.walk q.type (maxAliases + 1) q.name).2 := by
    rw [lookup_snd_of_run hrun, compose_snd_of_follow? hfollow]
  rw [hcache]
  have hwalked := walked_walk hfollow
  have hfollow' := ((sweeps_walk v.cache q.type (maxAliases + 1) q.name).follow?_eq q.type
    (maxAliases + 1) q.name).trans hfollow
  generalize (v.cache.walk q.type (maxAliases + 1) q.name).2 = c at hwalked hfollow'
  obtain ⟨extra, hextra⟩ := Nat.exists_eq_add_of_le hsteps
  obtain ⟨t, u, n, hrun', hcounted, houtside, hexchanges, hserver⟩ :=
    run_of_walked (s := .start q) (w := ⟨c, outside⟩) env' r'.port q extra hwalked rfl
      (Counted.refl c)
  have hrun' : run env' r'.port q r'.maxSteps (.start q) ⟨c, outside⟩ = (.ok t, u) := by
    rw [hextra]
    exact hrun'
  have hfollow'' := (hcounted.sweeps.follow?_eq q.type (maxAliases + 1) q.name).trans hfollow'
  have hresult : (u.cache.compose q t.exchanges t.lastServer).1 =
      .ok { records, isCacheHit := true, aliases, server := none } := by
    rw [hexchanges, hserver]
    exact compose_fst_of_follow? hfollow''
  obtain ⟨f, hf⟩ := hwalked.counted_walk hcounted
  refine ⟨_, Prod.ext (lookup_eq_ok_iff.2 ⟨t, u, hrun', hresult⟩) (lookup_snd_of_run hrun'),
    ⟨n, houtside⟩, ?_⟩
  dsimp only
  rw [compose_snd_of_follow? hfollow'', hf]
  exact ⟨rfl, rfl⟩

/-- The theorem at work: an answer with an alias in it is fetched with one exchange, and then given
again without one. -/
theorem lookup_again_mixedAnswer :
    ∃ resolution, (({} : Iterative).lookup (.responding Inquiry.mixedAnswer) Referral.bankQuestion
        ⟨Referral.bankCache, ()⟩).1 = .ok resolution ∧ resolution.isCacheHit = false ∧
      ∃ again : World Unit,
        ({} : Iterative).lookup (.responding {}) Referral.bankQuestion
            ⟨(({} : Iterative).lookup (.responding Inquiry.mixedAnswer) Referral.bankQuestion
              ⟨Referral.bankCache, ()⟩).2.cache, ()⟩ =
          (.ok { resolution with isCacheHit := true, server := none }, again) := by
  have hok : (({} : Iterative).lookup (.responding Inquiry.mixedAnswer) Referral.bankQuestion
      ⟨Referral.bankCache, ()⟩).1 =
      .ok
        { records :=
            [.make "www.sub.example.com." 300 .cname "web.example.com.",
             .make "web.example.com." 300 .a "203.0.113.50"]
          isCacheHit := false
          aliases := ["web.example.com."]
          server := some ⟨.v4 ⟨203, 0, 113, 10⟩, 53, 0⟩ } := by decide +kernel
  obtain ⟨again, hagain, -⟩ := lookup_again {} {} (.responding Inquiry.mixedAnswer)
    (.responding {}) Referral.bankQuestion ⟨Referral.bankCache, ()⟩ () (by decide) hok
  exact ⟨_, hok, rfl, again, hagain⟩

end Iterative

end CachingResolver
