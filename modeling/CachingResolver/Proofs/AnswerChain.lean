import CachingResolver.Message.Response
import CachingResolver.Proofs.RecordSet

/-!
# The answers that belong to a question

`chainFrom` walks along the first aliases of an answer section.  All that it selects is owned by a
name to which they lead inside the zone (`mem_chainFrom`), and what it selects of one owner and type
is all that there is (`recordsFor_chainFrom`), so that its record sets are those of the whole
section (`eq_gather_of_mem_groups_chainFrom`).  What it does at one name is one of three things,
each with an equation of its own: `chainFrom_of_direct`, `chainFrom_of_nothing` and
`chainFrom_of_alias`.
-/

namespace CachingResolver

/-- From a name one comes to another along first aliases among `rs` whose targets lie at or below
`zone`. -/
inductive Leads (rs : List ResourceRecord) (zone : String) : String → String → Prop
  | here (name : String) : Leads rs zone name name
  | along {name target : String} {first : ResourceRecord} {more : List ResourceRecord}
      (hfirst : recordsFor name .cname rs = first :: more)
      (hzone : Name.isSubdomain (Name.canonical first.value) zone = true)
      (hrest : Leads rs zone (Name.canonical first.value) target) : Leads rs zone name target

section

variable {rs : List ResourceRecord} {zone owner name target : String} {type : RecordType}
  {r : ResourceRecord}

theorem recordsFor_recordsBeside (name owner : String) (type : RecordType)
    (rs : List ResourceRecord) :
    recordsFor name type (recordsBeside owner rs) =
      if name = owner then [] else recordsFor name type rs := by
  unfold recordsFor recordsBeside
  rw [List.filter_filter]
  split
  · rename_i heq
    subst heq
    simp +contextual
  · rename_i hne
    refine List.filter_congr fun r _ => ?_
    by_cases hname : r.name = name
    · simp [hname, hne]
    · simp [hname]

theorem recordsFor_append (name : String) (type : RecordType) (rs ss : List ResourceRecord) :
    recordsFor name type (rs ++ ss) = recordsFor name type rs ++ recordsFor name type ss :=
  List.filter_append rs ss

theorem recordsFor_recordsFor (name : String) (type : RecordType) (rs : List ResourceRecord) :
    recordsFor name type (recordsFor name type rs) = recordsFor name type rs := by
  unfold recordsFor
  rw [List.filter_filter]
  simp

theorem recordsFor_eq_nil (h : ∀ r ∈ rs, ¬ (r.name = name ∧ r.type = type)) :
    recordsFor name type rs = [] := by
  refine List.filter_eq_nil_iff.2 fun r hr => ?_
  simpa using h r hr

/-! ### Where the aliases lead -/

theorem Leads.of_recordsBeside (h : Leads (recordsBeside owner rs) zone name target) :
    Leads rs zone name target := by
  induction h with
  | here name => exact .here name
  | @along name target first more hfirst hzone _ ih =>
      rw [recordsFor_recordsBeside] at hfirst
      split at hfirst
      · cases hfirst
      · exact .along hfirst hzone ih

theorem Leads.isSubdomain (h : Leads rs zone name target)
    (hname : Name.isSubdomain name zone = true) : Name.isSubdomain target zone = true := by
  induction h with
  | here => exact hname
  | along _ hzone _ ih => exact ih hzone

/-! ### All that is selected -/

/-- What is selected is owned by names to which the aliases lead, and is of the type asked for or an
alias. -/
theorem mem_chainFrom (h : r ∈ chainFrom type zone owner rs) :
    r ∈ rs ∧ (r.type = type ∨ r.type = .cname) ∧ Leads rs zone owner r.name := by
  fun_induction chainFrom type zone owner rs with
  | case1 owner rs direct hdirect =>
      obtain ⟨hr, hname, htype⟩ := mem_recordsFor.1 h
      exact ⟨hr, .inl htype, by rw [hname]; exact .here owner⟩
  | case2 => cases h
  | case3 owner rs direct hdirect first more hfirst target hzone ih =>
      rcases List.mem_append.1 h with h | h
      · obtain ⟨hr, hname, htype⟩ := mem_recordsFor.1 (hfirst ▸ h)
        exact ⟨hr, .inr htype, by rw [hname]; exact .here owner⟩
      · obtain ⟨hr, htype, hleads⟩ := ih h
        exact ⟨(List.mem_filter.1 hr).1, htype, .along hfirst hzone hleads.of_recordsBeside⟩
  | case4 owner rs direct hdirect first more hfirst target hzone =>
      obtain ⟨hr, hname, htype⟩ := mem_recordsFor.1 (hfirst ▸ h)
      exact ⟨hr, .inr htype, by rw [hname]; exact .here owner⟩

/-- Of an owner and a type, all records are selected or none. -/
theorem recordsFor_chainFrom (h : r ∈ chainFrom type zone owner rs) :
    recordsFor r.name r.type (chainFrom type zone owner rs) = recordsFor r.name r.type rs := by
  fun_induction chainFrom type zone owner rs with
  | case1 owner rs direct hdirect =>
      obtain ⟨-, rfl, rfl⟩ := mem_recordsFor.1 h
      exact recordsFor_recordsFor _ _ _
  | case2 => cases h
  | case3 owner rs direct hdirect first more hfirst target hzone ih =>
      rw [recordsFor_append, ← hfirst]
      rcases List.mem_append.1 h with h | h
      · -- The records of the owner are not considered again.
        have hnone : recordsFor owner .cname (chainFrom type zone target (recordsBeside owner rs)) =
            [] := by
          refine recordsFor_eq_nil fun q hq hsame => ?_
          have hbeside := (mem_chainFrom hq).1
          simp [recordsBeside, hsame.1] at hbeside
        obtain ⟨-, hname, hcname⟩ := mem_recordsFor.1 (hfirst ▸ h)
        rw [hname, hcname, recordsFor_recordsFor, hnone, List.append_nil]
      · have hbeside := (mem_chainFrom h).1
        have hne : r.name ≠ owner := by simpa using (List.mem_filter.1 hbeside).2
        rw [ih h, recordsFor_recordsBeside, if_neg hne, recordsFor_eq_nil, List.nil_append]
        intro q hq hsame
        exact hne (hsame.1.symm.trans (mem_recordsFor.1 hq).2.1)
  | case4 owner rs direct hdirect first more hfirst target hzone =>
      obtain ⟨-, hname, hcname⟩ := mem_recordsFor.1 (hfirst ▸ h)
      rw [hname, hcname, ← hfirst]
      exact recordsFor_recordsFor _ _ _

/-! ### What is selected at one name -/

/-- The owner's own records of the type asked for, if it has any or aliases are asked for, are all
that is selected. -/
theorem chainFrom_of_direct (h : recordsFor owner type rs ≠ [] ∨ type = .cname) :
    chainFrom type zone owner rs = recordsFor owner type rs := by
  rw [chainFrom]
  rcases h with h | rfl
  · simp [h]
  · simp

theorem chainFrom_of_nothing (hdirect : recordsFor owner type rs = [])
    (hnone : recordsFor owner .cname rs = []) : chainFrom type zone owner rs = [] := by
  rw [chainFrom]
  dsimp only
  split
  · exact hdirect
  · split
    · rfl
    · rename_i hfirst
      rw [hnone] at hfirst
      cases hfirst

/-- Without records of the type asked for, the aliases of the owner are selected, and what the first
of them leads to. -/
theorem chainFrom_of_alias {first : ResourceRecord} {more : List ResourceRecord}
    (htype : type ≠ .cname) (hdirect : recordsFor owner type rs = [])
    (hfirst : recordsFor owner .cname rs = first :: more) :
    chainFrom type zone owner rs = recordsFor owner .cname rs ++
      if Name.isSubdomain (Name.canonical first.value) zone then
        chainFrom type zone (Name.canonical first.value) (recordsBeside owner rs)
      else [] := by
  rw [chainFrom]
  simp only [hdirect, List.isEmpty_nil, Bool.not_true, Bool.false_or, beq_iff_eq, htype, if_false]
  split
  · rename_i hnil
    rw [hfirst] at hnil
    cases hnil
  · rename_i first' more' hfirst'
    obtain ⟨rfl, rfl⟩ := List.cons.inj (hfirst.symm.trans hfirst')
    rw [hfirst]
    split
    · rfl
    · rw [List.append_nil]

theorem mem_chainFrom_of_cname (hdirect : recordsFor owner type rs = [])
    (h : r ∈ recordsFor owner .cname rs) : r ∈ chainFrom type zone owner rs := by
  cases hfirst : recordsFor owner .cname rs with
  | nil =>
      rw [hfirst] at h
      cases h
  | cons first more =>
      have htype : type ≠ .cname := by
        rintro rfl
        rw [hdirect] at hfirst
        cases hfirst
      rw [chainFrom_of_alias htype hdirect hfirst]
      exact List.mem_append_left _ h

/-! ### The record sets -/

/-- The record sets of what is selected are record sets of all records. -/
theorem eq_gather_of_mem_groups_chainFrom {s : RecordSet}
    (h : s ∈ RecordSet.groups (chainFrom type zone owner rs)) :
    ∃ r ∈ chainFrom type zone owner rs, s = RecordSet.gather r.name r.type rs := by
  obtain ⟨r, hr, rfl⟩ := RecordSet.mem_groups.1 h
  exact ⟨r, hr, RecordSet.gather_congr (recordsFor_chainFrom hr)⟩

theorem gather_mem_groups_chainFrom (h : r ∈ chainFrom type zone owner rs) :
    RecordSet.gather r.name r.type rs ∈ RecordSet.groups (chainFrom type zone owner rs) :=
  RecordSet.mem_groups.2 ⟨r, h, RecordSet.gather_congr (recordsFor_chainFrom h).symm⟩

end

end CachingResolver
