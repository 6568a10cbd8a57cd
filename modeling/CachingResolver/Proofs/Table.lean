import CachingResolver.Table
import Mathlib.Data.List.Nodup
import Mathlib.Data.List.Perm.Basic

/-!
# Laying tables over each other

What is stored under a key after several pairs have been stored (`get?_insertAll`): the value of the
last pair of this key, whatever was there before (`exists_get?_insertAll`), and what was there
before, when no pair has this key (`get?_insertAll_of_forall_ne`).  A table laid over another hides
it where it has a value of its own (`get?_overlay`).  A table is determined by its look-ups
(`ext_get?`), so laying it over the empty table makes it again (`empty_overlay`).
-/

namespace CachingResolver.Table

variable {α : Type} {t : Table α} {key : String}

theorem contains_eq_isSome_get? : t.contains key = (t.get? key).isSome := by
  unfold contains get?
  rw [Option.isSome_map, List.isSome_find?]

theorem mem_keys_iff : key ∈ t.entries.map (·.1) ↔ (t.get? key).isSome = true := by
  rw [← contains_eq_isSome_get?]
  simp [contains]

theorem mem_entries_of_get? {value : α} (h : t.get? key = some value) :
    (key, value) ∈ t.entries := by
  obtain ⟨⟨k, v⟩, hfind, rfl⟩ := Option.map_eq_some_iff.1 h
  have hkey : k = key := by simpa using List.find?_some hfind
  exact hkey ▸ List.mem_of_find?_eq_some hfind

theorem get?_of_mem_entries {value : α} (h : (key, value) ∈ t.entries) :
    t.get? key = some value := by
  have hkeys : (t.entries.map (·.1)).Nodup :=
    List.pairwise_map.2 (t.sorted.imp fun hlt => String.ne_of_lt hlt)
  obtain ⟨other, hother⟩ :=
    Option.isSome_iff_exists.1 (mem_keys_iff.1 (List.mem_map_of_mem (f := Prod.fst) h))
  have heq := List.inj_on_of_nodup_map hkeys h (mem_entries_of_get? hother) rfl
  rw [hother, (Prod.mk.inj heq).2]

theorem mem_entries_iff {p : String × α} : p ∈ t.entries ↔ t.get? p.1 = some p.2 :=
  ⟨fun h => get?_of_mem_entries h, mem_entries_of_get?⟩

/-- Tables with the same look-ups are the same. -/
theorem ext_get? {s t : Table α} (h : ∀ key, s.get? key = t.get? key) : s = t := by
  have hnodup (t : Table α) : t.entries.Nodup :=
    t.sorted.imp fun hlt heq => String.ne_of_lt hlt (congrArg Prod.fst heq)
  have hperm : s.entries.Perm t.entries := by
    refine (List.perm_ext_iff_of_nodup (hnodup s) (hnodup t)).2 fun p => ?_
    rw [mem_entries_iff, mem_entries_iff, h]
  have hentries : s.entries = t.entries := by
    refine hperm.eq_of_pairwise (fun p q _ _ hpq hqp => ?_) s.sorted t.sorted
    exact absurd (String.lt_trans hpq hqp) (String.lt_irrefl _)
  cases s
  cases t
  cases hentries
  rfl

theorem erase_comm (t : Table α) (key other : String) :
    (t.erase key).erase other = (t.erase other).erase key := by
  refine ext_get? fun k => ?_
  simp only [get?_erase]
  split <;> split <;> rfl

@[simp] theorem insertAll_nil (t : Table α) : t.insertAll [] = t := rfl

@[simp] theorem insertAll_cons (t : Table α) (p : String × α) (ps : List (String × α)) :
    t.insertAll (p :: ps) = (t.insert p.1 p.2).insertAll ps := rfl

theorem insertAll_append (t : Table α) (ps qs : List (String × α)) :
    t.insertAll (ps ++ qs) = (t.insertAll ps).insertAll qs :=
  List.foldl_append

/-- The values of the pairs with a key, in order. -/
def valuesAt (key : String) (ps : List (String × α)) : List α :=
  ps.filterMap fun p => if p.1 = key then some p.2 else none

@[simp] theorem valuesAt_nil (key : String) : valuesAt key ([] : List (String × α)) = [] := rfl

theorem valuesAt_cons (key : String) (p : String × α) (ps : List (String × α)) :
    valuesAt key (p :: ps) = if p.1 = key then p.2 :: valuesAt key ps else valuesAt key ps := by
  unfold valuesAt
  rw [List.filterMap_cons]
  split <;> rename_i h <;> split at h <;> simp_all

theorem valuesAt_append (key : String) (ps qs : List (String × α)) :
    valuesAt key (ps ++ qs) = valuesAt key ps ++ valuesAt key qs :=
  List.filterMap_append

theorem valuesAt_flatMap {β : Type} (key : String) (f : β → List (String × α)) (xs : List β) :
    valuesAt key (xs.flatMap f) = xs.flatMap fun x => valuesAt key (f x) :=
  List.filterMap_flatMap

/-- A key holds the last value that was stored under it, and else what was there before. -/
theorem get?_insertAll (t : Table α) (ps : List (String × α)) (key : String) :
    (t.insertAll ps).get? key = (valuesAt key ps).getLast?.or (t.get? key) := by
  induction ps generalizing t with
  | nil => rfl
  | cons p ps ih =>
      rw [insertAll_cons, ih, get?_insert, valuesAt_cons]
      split
      · rw [List.getLast?_cons]
        cases (valuesAt key ps).getLast? <;> rfl
      · rfl

theorem get?_insertAll_of_forall_ne (t : Table α) {ps : List (String × α)}
    (h : ∀ p ∈ ps, p.1 ≠ key) : (t.insertAll ps).get? key = t.get? key := by
  have hnil : valuesAt key ps = [] :=
    List.filterMap_eq_nil_iff.2 fun p hp => if_neg (h p hp)
  rw [get?_insertAll, hnil]
  rfl

/-- Of several pairs with one key the last wins, whatever was there before. -/
theorem exists_get?_insertAll {ps : List (String × α)} (h : ∃ p ∈ ps, p.1 = key) :
    ∃ value, (key, value) ∈ ps ∧ ∀ t : Table α, (t.insertAll ps).get? key = some value := by
  have hne : valuesAt key ps ≠ [] := by
    obtain ⟨p, hp, hkey⟩ := h
    exact fun hnil => absurd (List.filterMap_eq_nil_iff.1 hnil p hp) (by simp [hkey])
  obtain ⟨p, hp, hlast⟩ := List.mem_filterMap.1 (List.getLast_mem hne)
  split at hlast
  · rename_i hkey
    refine ⟨p.2, hkey ▸ hp, fun t => ?_⟩
    rw [get?_insertAll, List.getLast?_eq_some_getLast hne, ← Option.some.inj hlast]
    rfl
  · cases hlast

/-- Storing changed values changes what is stored. -/
theorem get?_insertAll_map {β : Type} (f : α → β) (key : String) (t : Table α) (u : Table β)
    (ps : List (String × α)) (h : u.get? key = (t.get? key).map f) :
    (u.insertAll (ps.map fun p => (p.1, f p.2))).get? key = ((t.insertAll ps).get? key).map f := by
  induction ps generalizing t u with
  | nil => exact h
  | cons p ps ih =>
      refine ih _ _ ?_
      rw [get?_insert, get?_insert]
      split
      · rfl
      · exact h

theorem ne_key_of_get?_eq_none (h : t.get? key = none) : ∀ p ∈ t.entries, p.1 ≠ key := by
  intro p hp hkey
  simp only [get?, Option.map_eq_none_iff, List.find?_eq_none] at h
  exact h p hp (by simpa using hkey)

theorem empty_overlay (t : Table α) : (∅ : Table α).overlay t = t := by
  refine ext_get? fun key => ?_
  unfold overlay
  cases hget : t.get? key with
  | none =>
      rw [get?_insertAll_of_forall_ne _ (ne_key_of_get?_eq_none hget), get?_empty]
  | some value =>
      obtain ⟨other, hmem, hother⟩ :=
        exists_get?_insertAll ⟨(key, value), mem_entries_of_get? hget, rfl⟩
      rw [hother ∅, ← hget, get?_of_mem_entries hmem]

/-- Of a table laid over another, each key holds what the upper one has, and else what the lower one
has. -/
theorem get?_overlay (t top : Table α) (key : String) :
    (t.overlay top).get? key = (top.get? key).or (t.get? key) := by
  have htop : (valuesAt key top.entries).getLast? = top.get? key :=
    calc
      _ = ((∅ : Table α).overlay top).get? key := by
        rw [overlay, get?_insertAll, get?_empty, Option.or_none]
      _ = top.get? key := by rw [empty_overlay]
  rw [overlay, get?_insertAll, htop]

/-- Laying a table over another leaves the keys that it does not have. -/
theorem get?_overlay_of_eq_none (t : Table α) {top : Table α} (h : top.get? key = none) :
    (t.overlay top).get? key = t.get? key := by
  rw [get?_overlay, h]
  rfl

end CachingResolver.Table
