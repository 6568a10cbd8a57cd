import CachingResolver.Proofs.AnswerChain
import Mathlib.Data.List.Perm.Subperm

/-!
# The walk from a question along its aliases

`Walk` is a walk through an answer section that keeps a list of the names it has passed: it ends at
a name with records of the type asked for, at one without an alias, and at one whose first alias
leads out of the zone or back to a name it has passed.  `chainFrom` keeps no such list and drops the
records of each name that it leaves instead.  The two select the same: from every name there is a
walk, which looks at no more than one name beyond the number of records, and every walk selects what
`chainFrom` does (`exists_walk`, `Walk.eq_chainFrom`).

A walk sees of a section only the records of one owner and type at a time, so nothing hangs on how
the section mixes them (`Walk.congr`), and no record is selected twice (`subperm_chainFrom`).
-/

namespace CachingResolver

/-- A walk that comes to `owner` after the names `passed` looks at `count` names from there on and
selects `chain`. -/
inductive Walk (rs : List ResourceRecord) (type : RecordType) (zone : String) :
    Nat → List String → String → List ResourceRecord → Prop
  -- All records of the type are selected.  Of one that asks for aliases there may be none.
  | direct {passed : List String} {owner : String}
      (h : recordsFor owner type rs ≠ [] ∨ type = .cname) :
      Walk rs type zone 1 passed owner (recordsFor owner type rs)
  | nothing {passed : List String} {owner : String} (htype : type ≠ .cname)
      (hdirect : recordsFor owner type rs = []) (hnone : recordsFor owner .cname rs = []) :
      Walk rs type zone 1 passed owner []
  -- The first alias leads out of the zone or back.
  | last {passed : List String} {owner : String} {first : ResourceRecord}
      {more : List ResourceRecord} (htype : type ≠ .cname)
      (hdirect : recordsFor owner type rs = [])
      (hfirst : recordsFor owner .cname rs = first :: more)
      (hlast : Name.isSubdomain (Name.canonical first.value) zone = false ∨
        Name.canonical first.value ∈ owner :: passed) :
      Walk rs type zone 1 passed owner (recordsFor owner .cname rs)
  | onward {count : Nat} {passed : List String} {owner : String} {first : ResourceRecord}
      {more rest : List ResourceRecord} (htype : type ≠ .cname)
      (hdirect : recordsFor owner type rs = [])
      (hfirst : recordsFor owner .cname rs = first :: more)
      (hzone : Name.isSubdomain (Name.canonical first.value) zone = true)
      (hnew : Name.canonical first.value ∉ owner :: passed)
      (hrest : Walk rs type zone count (owner :: passed) (Name.canonical first.value) rest) :
      Walk rs type zone (count + 1) passed owner (recordsFor owner .cname rs ++ rest)

/-- The records of the names that have not been passed. -/
def recordsBeyond (passed : List String) (rs : List ResourceRecord) : List ResourceRecord :=
  passed.foldr recordsBeside rs

@[simp] theorem recordsBeyond_cons (name : String) (passed : List String)
    (rs : List ResourceRecord) :
    recordsBeyond (name :: passed) rs = recordsBeside name (recordsBeyond passed rs) := rfl

section

variable {rs ss : List ResourceRecord} {zone owner name : String} {type : RecordType}
  {passed : List String} {count : Nat} {chain : List ResourceRecord}

theorem recordsFor_recordsBeyond :
    recordsFor name type (recordsBeyond passed rs) =
      if name ∈ passed then [] else recordsFor name type rs := by
  induction passed with
  | nil => rfl
  | cons other passed ih =>
      rw [recordsBeyond_cons, recordsFor_recordsBeside, ih]
      by_cases hother : name = other
      · simp [hother]
      · simp [hother]

theorem recordsFor_recordsBeyond_of_not_mem (hnew : name ∉ passed) :
    recordsFor name type (recordsBeyond passed rs) = recordsFor name type rs := by
  rw [recordsFor_recordsBeyond, if_neg hnew]

/-- At a name that has been passed nothing is selected any more. -/
theorem chainFrom_recordsBeyond_of_mem (hmem : owner ∈ passed) :
    chainFrom type zone owner (recordsBeyond passed rs) = [] :=
  chainFrom_of_nothing (by rw [recordsFor_recordsBeyond, if_pos hmem])
    (by rw [recordsFor_recordsBeyond, if_pos hmem])

/-! ### The walk and the selection -/

/-- Every walk selects what is selected among the records beyond the names that it has passed. -/
theorem Walk.eq_chainFrom_recordsBeyond (h : Walk rs type zone count passed owner chain)
    (hnew : owner ∉ passed) : chain = chainFrom type zone owner (recordsBeyond passed rs) := by
  induction h with
  | direct h =>
      rw [chainFrom_of_direct (by rwa [recordsFor_recordsBeyond_of_not_mem hnew]),
        recordsFor_recordsBeyond_of_not_mem hnew]
  | nothing _ hdirect hnone =>
      rw [chainFrom_of_nothing] <;> rwa [recordsFor_recordsBeyond_of_not_mem hnew]
  | @last passed owner first more htype hdirect hfirst hlast =>
      rw [chainFrom_of_alias htype (by rwa [recordsFor_recordsBeyond_of_not_mem hnew])
        (by rw [recordsFor_recordsBeyond_of_not_mem hnew, hfirst]),
        recordsFor_recordsBeyond_of_not_mem hnew]
      rcases hlast with hout | hback
      · simp [hout]
      · have hnil : chainFrom type zone (Name.canonical first.value)
            (recordsBeyond (owner :: passed) rs) = [] := chainFrom_recordsBeyond_of_mem hback
        rw [← recordsBeyond_cons, hnil, ite_self, List.append_nil]
  | @onward count passed owner first more rest htype hdirect hfirst hzone hnext _ ih =>
      rw [chainFrom_of_alias htype (by rwa [recordsFor_recordsBeyond_of_not_mem hnew])
        (by rw [recordsFor_recordsBeyond_of_not_mem hnew, hfirst]),
        recordsFor_recordsBeyond_of_not_mem hnew, if_pos hzone, ih hnext]
      rfl

theorem Walk.eq_chainFrom (h : Walk rs type zone count [] owner chain) :
    chain = chainFrom type zone owner rs :=
  h.eq_chainFrom_recordsBeyond List.not_mem_nil

/-- From every name there is a walk.  Each name that it leaves had records, so it ends after no more
names than there are records left, and one. -/
theorem exists_walk_recordsBeyond (hnew : owner ∉ passed) :
    ∃ count ≤ (recordsBeyond passed rs).length + 1, Walk rs type zone count passed owner
      (chainFrom type zone owner (recordsBeyond passed rs)) := by
  -- The induction is on the records left.
  generalize hlength : (recordsBeyond passed rs).length = length
  induction length using Nat.strongRecOn generalizing passed owner with
  | ind length ih =>
      have hfor (type : RecordType) : recordsFor owner type (recordsBeyond passed rs) =
          recordsFor owner type rs := recordsFor_recordsBeyond_of_not_mem hnew
      by_cases h : recordsFor owner type rs ≠ [] ∨ type = .cname
      · rw [chainFrom_of_direct (by rwa [hfor]), hfor]
        exact ⟨1, by omega, .direct h⟩
      · obtain ⟨hdirect, htype⟩ := not_or.1 h
        have hdirect := not_not.1 hdirect
        cases hfirst : recordsFor owner .cname rs with
        | nil =>
            rw [chainFrom_of_nothing (by rwa [hfor]) (by rwa [hfor])]
            exact ⟨1, by omega, .nothing htype hdirect hfirst⟩
        | cons first more =>
            have hbeyond : recordsFor owner .cname (recordsBeyond passed rs) = first :: more := by
              rw [hfor, hfirst]
            have hshorter : (recordsBeyond (owner :: passed) rs).length < length :=
              hlength ▸ length_recordsBeside_lt hbeyond
            rw [chainFrom_of_alias htype (by rwa [hfor]) hbeyond, hfor]
            by_cases hzone : Name.isSubdomain (Name.canonical first.value) zone = true
            · rw [if_pos hzone]
              by_cases hback : Name.canonical first.value ∈ owner :: passed
              · have hnil : chainFrom type zone (Name.canonical first.value)
                    (recordsBeyond (owner :: passed) rs) = [] :=
                  chainFrom_recordsBeyond_of_mem hback
                rw [← recordsBeyond_cons, hnil, List.append_nil]
                exact ⟨1, by omega, .last htype hdirect hfirst (.inr hback)⟩
              · obtain ⟨count, hcount, hwalk⟩ := ih _ hshorter hback rfl
                exact ⟨count + 1, by omega, .onward htype hdirect hfirst hzone hback hwalk⟩
            · rw [if_neg hzone, List.append_nil]
              exact ⟨1, by omega, .last htype hdirect hfirst (.inl (by simpa using hzone))⟩

theorem exists_walk (rs : List ResourceRecord) (type : RecordType) (zone owner : String) :
    ∃ count ≤ rs.length + 1, Walk rs type zone count [] owner (chainFrom type zone owner rs) :=
  exists_walk_recordsBeyond List.not_mem_nil

/-- A walk depends only on the records of each owner and type, not on how the section mixes them. -/
theorem Walk.congr (h : Walk rs type zone count passed owner chain)
    (hsame : ∀ name type, recordsFor name type ss = recordsFor name type rs) :
    Walk ss type zone count passed owner chain := by
  induction h with
  | @direct passed owner h =>
      rw [← hsame] at h ⊢
      exact .direct h
  | nothing htype hdirect hnone =>
      rw [← hsame] at hdirect hnone
      exact .nothing htype hdirect hnone
  | last htype hdirect hfirst hlast =>
      rw [← hsame] at hdirect hfirst ⊢
      exact .last htype hdirect hfirst hlast
  | onward htype hdirect hfirst hzone hnew _ ih =>
      rw [← hsame] at hdirect hfirst ⊢
      exact .onward htype hdirect hfirst hzone hnew ih

theorem chainFrom_congr (hsame : ∀ name type, recordsFor name type ss = recordsFor name type rs) :
    chainFrom type zone owner ss = chainFrom type zone owner rs := by
  obtain ⟨count, -, hwalk⟩ := exists_walk rs type zone owner
  exact (hwalk.congr hsame).eq_chainFrom.symm

/-! ### No record twice -/

/-- What is selected is a part of the section, in which each record has a place of its own. -/
theorem subperm_chainFrom : (chainFrom type zone owner rs).Subperm rs := by
  fun_induction chainFrom type zone owner rs with
  | case1 => exact List.filter_sublist.subperm
  | case2 => exact List.nil_subperm
  | case3 owner rs direct hdirect first more hfirst target hzone ih =>
      -- The aliases are records of the owner, and what follows are records of other names.
      have howned : (first :: more).Subperm (rs.filter fun r => !(r.name != owner)) := by
        rw [← hfirst]
        refine (List.monotone_filter_right rs fun r hr => ?_).subperm
        rw [Bool.and_eq_true] at hr
        simpa using hr.1
      have hsplit := List.filter_append_perm (fun r : ResourceRecord => r.name != owner) rs
      exact ((howned.append ih).trans List.perm_append_comm.subperm).trans hsplit.subperm
  | case4 owner rs direct hdirect first more hfirst =>
      rw [← hfirst]
      exact List.filter_sublist.subperm

/-! ### The order of the section -/

/-- Neighbours of different owners or types can change places. -/
theorem recordsFor_swap {r s : ResourceRecord} (before after : List ResourceRecord)
    (hother : r.name ≠ s.name ∨ r.type ≠ s.type) :
    recordsFor name type (before ++ r :: s :: after) =
      recordsFor name type (before ++ s :: r :: after) := by
  unfold recordsFor
  rw [List.filter_append, List.filter_append]
  congr 1
  -- Of the two at most one has the owner and the type.
  by_cases hr : r.name = name ∧ r.type = type
  · have hs : ¬ (s.name = name ∧ s.type = type) := by
      rintro ⟨rfl, rfl⟩
      exact hother.elim (absurd hr.1) (absurd hr.2)
    rw [List.filter_cons, List.filter_cons, List.filter_cons, List.filter_cons]
    simp [hr, hs]
  · rw [List.filter_cons, List.filter_cons, List.filter_cons, List.filter_cons]
    simp [hr]

end

/-- For any answer section `rs`, any question and any zone: what is selected for the question is
what a walk from its name along first aliases selects, whichever walk, and there is one, which ends
after no more names than the section has records, and one.  It is a part of the section in which
each record has a place of its own, so it is not longer.  And it stays the same in any order of the
section that leaves the records of each owner and type in order. -/
theorem chainFrom_walked_once (rs : List ResourceRecord) (name : String) (type : RecordType)
    (zone : String) :
    let chain := chainFrom type zone (Name.canonical name) rs
    (∀ m : Message, m.answerRecords = rs → m.answerChain name type zone = chain) ∧
    (∃ count ≤ rs.length + 1, Walk rs type zone count [] (Name.canonical name) chain) ∧
    (∀ count walked, Walk rs type zone count [] (Name.canonical name) walked → walked = chain) ∧
    (chain.Subperm rs ∧ chain.length ≤ rs.length) ∧
    ∀ ss, (∀ owner type, recordsFor owner type ss = recordsFor owner type rs) →
      chainFrom type zone (Name.canonical name) ss = chain := by
  dsimp only
  refine ⟨?_, exists_walk rs type zone _, fun count walked hwalk => hwalk.eq_chainFrom,
    ⟨subperm_chainFrom, subperm_chainFrom.length_le⟩, fun ss hsame => chainFrom_congr hsame⟩
  rintro m rfl
  rfl

/-- Two names that are aliases of each other, and a text that belongs to one of them. -/
def circleSection : List ResourceRecord :=
  [.make "a.test." 300 .cname "b.test.", .make "b.test." 60 .cname "a.test.",
    .make "b.test." 60 .txt "no address"]

/-- The theorem at work: a walk around the circle ends, and it selects the same when the two aliases
change places. -/
theorem chainFrom_walked_once_circle :
    let turned : List ResourceRecord :=
      [.make "b.test." 60 .cname "a.test.", .make "a.test." 300 .cname "b.test.",
        .make "b.test." 60 .txt "no address"]
    (∃ count ≤ 4, Walk circleSection .a "test." count [] "a.test." (circleSection.take 2)) ∧
      (∀ owner type, recordsFor owner type turned = recordsFor owner type circleSection) ∧
      chainFrom .a "test." "a.test." turned = circleSection.take 2 := by
  intro turned
  have hname : Name.canonical "A.Test" = "a.test." := by decide +kernel
  have hchain : chainFrom .a "test." "a.test." circleSection = circleSection.take 2 := by
    decide +kernel
  have hturned (owner : String) (type : RecordType) :
      recordsFor owner type turned = recordsFor owner type circleSection :=
    recordsFor_swap [] [.make "b.test." 60 .txt "no address"] (.inl (by decide +kernel))
  obtain ⟨-, hwalk, -, -, hsame⟩ := chainFrom_walked_once circleSection "A.Test" .a "test."
  rw [hname, hchain] at hwalk
  have hother := hsame _ hturned
  rw [hname, hchain] at hother
  exact ⟨hwalk, hturned, hother⟩

end CachingResolver
