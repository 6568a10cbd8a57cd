import CachingResolver.Proofs.Cache.Composing

/-!
# The entries that an answer is composed of

An answer is composed of the entries on a trail: those of the aliases that lead on from the name,
and then that of the records of the type asked for.  `Trail` describes it by what is under the keys,
and the walk comes to the records of such a trail and to no others (`follow?_eq_some_iff`).
-/

namespace CachingResolver.Cache

/-- An entry with the owner and the type under which it is filed. -/
structure Filed where
  name : String
  type : RecordType
  entry : Entry

namespace Filed

def key (p : Filed) : String :=
  makeKey p.name p.type

def records (p : Filed) (now : Int64) : List ResourceRecord :=
  p.entry.records p.name p.type now

@[simp] theorem key_mk (name : String) (type : RecordType) (e : Entry) :
    (Filed.mk name type e).key = makeKey name type := rfl

@[simp] theorem records_mk (name : String) (type : RecordType) (e : Entry) (now : Int64) :
    (Filed.mk name type e).records now = e.records name type now := rfl

end Filed

/-- From a name the entries under the keys lead along aliases, the first value of each, to records
of a type. -/
inductive Trail (filed? : String → Option Entry) (type : RecordType) : String → List Filed → Prop
  | direct {name : String} {e : Entry} (hentry : filed? (makeKey name type) = some e) :
      Trail filed? type name [⟨name, type, e⟩]
  | along {name target : String} {e : Entry} {rest : List Filed} (htype : type ≠ .cname)
      (hentry : filed? (makeKey name .cname) = some e) (htarget : e.values.head? = some target)
      (hrest : Trail filed? type target rest) :
      Trail filed? type name (⟨name, .cname, e⟩ :: rest)

namespace Trail

variable {filed? : String → Option Entry} {type : RecordType} {name : String} {trail : List Filed}

theorem exists_cons (h : Trail filed? type name trail) :
    ∃ e t rest, trail = ⟨name, t, e⟩ :: rest := by
  cases h with
  | direct => exact ⟨_, _, _, rfl⟩
  | along => exact ⟨_, _, _, rfl⟩

theorem ne_nil (h : Trail filed? type name trail) : trail ≠ [] := by
  obtain ⟨e, t, rest, rfl⟩ := h.exists_cons
  exact List.cons_ne_nil _ _

/-- All that is on a trail is under its key. -/
theorem filed?_of_mem (h : Trail filed? type name trail) {p : Filed} (hp : p ∈ trail) :
    filed? p.key = some p.entry := by
  induction h with
  | direct hentry =>
      obtain rfl := List.mem_singleton.1 hp
      simpa using hentry
  | along htype hentry htarget _ ih =>
      rcases List.mem_cons.1 hp with rfl | hp
      · simpa using hentry
      · exact ih hp

/-- A trail is one for any function that gives the same for its keys. -/
theorem congr (h : Trail filed? type name trail) {other? : String → Option Entry}
    (hother : ∀ p ∈ trail, other? p.key = some p.entry) : Trail other? type name trail := by
  induction h with
  | direct => exact .direct (by simpa using hother _ List.mem_cons_self)
  | along htype _ htarget _ ih =>
      exact .along htype (by simpa using hother _ List.mem_cons_self) htarget
        (ih fun p hp => hother p (List.mem_cons_of_mem _ hp))

theorem names_eq (h : Trail filed? type name trail) :
    trail.map (·.name) = name :: trail.tail.map (·.name) := by
  obtain ⟨e, t, rest, rfl⟩ := h.exists_cons
  rfl

/-- The names on a trail tell the types as well. -/
theorem exists_same_of_names {other? : String → Option Entry} {other : List Filed}
    (h : Trail filed? type name trail) (hother : Trail other? type name other)
    (hnames : trail.tail.map (·.name) = other.tail.map (·.name)) {p : Filed} (hp : p ∈ trail) :
    ∃ p' ∈ other, p'.name = p.name ∧ p'.type = p.type := by
  induction h generalizing other with
  | direct =>
      obtain rfl := List.mem_singleton.1 hp
      cases hother with
      | direct => exact ⟨_, List.mem_cons_self, rfl, rfl⟩
      | along _ _ _ hrest =>
          rw [List.tail_cons, List.tail_cons, hrest.names_eq] at hnames
          cases hnames
  | along htype _ _ hrest ih =>
      cases hother with
      | direct =>
          rw [List.tail_cons, List.tail_cons, hrest.names_eq] at hnames
          cases hnames
      | along _ _ _ hother =>
          rw [List.tail_cons, List.tail_cons, hrest.names_eq, hother.names_eq] at hnames
          obtain ⟨rfl, htail⟩ := List.cons.inj hnames
          rcases List.mem_cons.1 hp with rfl | hp
          · exact ⟨_, List.mem_cons_self, rfl, rfl⟩
          · obtain ⟨p', hp', hsame⟩ := ih hother htail hp
            exact ⟨p', List.mem_cons_of_mem _ hp', hsame⟩

theorem exists_alias_of_names {other? : String → Option Entry} {other : List Filed}
    (h : Trail filed? type name trail) (hother : Trail other? type name other)
    (hnames : trail.tail.map (·.name) = other.tail.map (·.name)) {p : Filed}
    (hp : p ∈ trail.dropLast) : ∃ p' ∈ other.dropLast, p'.name = p.name := by
  have hall : trail.map (·.name) = other.map (·.name) := by
    rw [h.names_eq, hother.names_eq, hnames]
  have hdrop : trail.dropLast.map (·.name) = other.dropLast.map (·.name) := by
    rw [List.map_dropLast, List.map_dropLast, hall]
  have hmem : p.name ∈ other.dropLast.map (·.name) := hdrop ▸ List.mem_map_of_mem hp
  exact List.mem_map.1 hmem

end Trail

variable {c : Cache} {type : RecordType} {rounds : Nat} {name : String}

theorem exists_trail_of_follow? {found : List ResourceRecord × List String}
    (h : c.follow? type rounds name = some found) :
    ∃ trail, Trail c.found? type name trail ∧ trail.length ≤ rounds ∧
      (∀ p ∈ trail.dropLast, c.found? (makeKey p.name type) = none) ∧
      found = (trail.flatMap (·.records c.now), trail.tail.map (·.name)) := by
  induction rounds generalizing name found with
  | zero => cases h
  | succ rounds ih =>
      cases hfound : c.found? (makeKey name type) with
      | some e =>
          rw [follow?_of_found? hfound] at h
          refine ⟨_, .direct hfound, Nat.succ_le_succ (Nat.zero_le _), nofun, ?_⟩
          simpa using h.symm
      | none =>
          unfold follow? at h
          rw [hfound] at h
          dsimp only at h
          split at h
          · cases h
          · rename_i htype
            cases hlink : c.alias? name with
            | none =>
                rw [hlink] at h
                cases h
            | some link =>
                obtain ⟨target, e⟩ := link
                rw [hlink] at h
                obtain ⟨rest, hrest, rfl⟩ := Option.map_eq_some_iff.1 h
                obtain ⟨hentry, htarget⟩ := alias?_eq_some_iff.1 hlink
                obtain ⟨trail, htrail, hlength, hnone, rfl⟩ := ih hrest
                refine ⟨_, .along htype hentry htarget htrail, Nat.succ_le_succ hlength, ?_, ?_⟩
                · rw [List.dropLast_cons_of_ne_nil htrail.ne_nil]
                  intro p hp
                  rcases List.mem_cons.1 hp with rfl | hp
                  · exact hfound
                  · exact hnone p hp
                · obtain ⟨f, t, more, rfl⟩ := htrail.exists_cons
                  simp

theorem Trail.follow? {trail : List Filed} (h : Trail c.found? type name trail)
    (hlength : trail.length ≤ rounds)
    (hnone : ∀ p ∈ trail.dropLast, c.found? (makeKey p.name type) = none) :
    c.follow? type rounds name =
      some (trail.flatMap (·.records c.now), trail.tail.map (·.name)) := by
  induction h generalizing rounds with
  | direct hentry =>
      obtain ⟨rounds, rfl⟩ := Nat.exists_eq_add_of_le' hlength
      rw [List.length_singleton, follow?_of_found? hentry]
      simp
  | along htype hentry htarget hrest ih =>
      obtain ⟨rounds, rfl⟩ := Nat.exists_eq_add_of_le' hlength
      rw [List.dropLast_cons_of_ne_nil hrest.ne_nil] at hnone
      have hlater := ih (Nat.le_add_left _ rounds) fun p hp => hnone p (List.mem_cons_of_mem _ hp)
      have halias := alias?_eq_some_iff.2 ⟨hentry, htarget⟩
      rw [List.length_cons, ← Nat.add_assoc,
        follow?_of_alias? (hnone _ List.mem_cons_self) htype halias, hlater]
      obtain ⟨f, t, more, rfl⟩ := hrest.exists_cons
      simp

/-- The walk comes to the records of a trail, none of whose aliases has records of the type asked
for. -/
theorem follow?_eq_some_iff {found : List ResourceRecord × List String} :
    c.follow? type rounds name = some found ↔
      ∃ trail, Trail c.found? type name trail ∧ trail.length ≤ rounds ∧
        (∀ p ∈ trail.dropLast, c.found? (makeKey p.name type) = none) ∧
        found = (trail.flatMap (·.records c.now), trail.tail.map (·.name)) := by
  refine ⟨exists_trail_of_follow?, ?_⟩
  rintro ⟨trail, htrail, hlength, hnone, rfl⟩
  exact htrail.follow? hlength hnone

end CachingResolver.Cache
