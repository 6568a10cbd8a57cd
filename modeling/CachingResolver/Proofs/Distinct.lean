import Mathlib.Data.List.Nodup

/-!
# The distinct elements of a list

`eraseDups` keeps the first occurrence of each element.  What it keeps are distinct elements
(`nodup_eraseDups`), the first of them is the first of the list (`head?_eraseDups`), and an element
that is put at the end of the list is put at the end of them, unless it is among them
(`eraseDups_append_singleton`).
-/

namespace CachingResolver

theorem nodup_eraseDups {α : Type} [BEq α] [LawfulBEq α] (l : List α) : l.eraseDups.Nodup := by
  -- Each step filters the rest of the list, so the induction is on its length.
  generalize hn : l.length = n
  induction n using Nat.strongRecOn generalizing l with
  | ind n ih =>
      cases l with
      | nil => simp
      | cons a l =>
          rw [List.eraseDups_cons, List.nodup_cons]
          have hlen := List.length_filter_le (fun b => !b == a) l
          simp only [List.length_cons] at hn
          refine ⟨?_, ih _ (by omega) _ rfl⟩
          rw [List.mem_eraseDups]
          simp

theorem head?_eraseDups {α : Type} [BEq α] (l : List α) : l.eraseDups.head? = l.head? := by
  cases l with
  | nil => rfl
  | cons a l => rw [List.eraseDups_cons, List.head?_cons, List.head?_cons]

theorem eraseDups_eq_nil_iff {α : Type} [BEq α] {l : List α} : l.eraseDups = [] ↔ l = [] := by
  rw [← List.head?_eq_none_iff, head?_eraseDups, List.head?_eq_none_iff]

/-- An element at the end counts only if it is not there before. -/
theorem eraseDups_append_singleton {α : Type} [BEq α] [LawfulBEq α] (l : List α) (x : α) :
    (l ++ [x]).eraseDups = if l.contains x then l.eraseDups else l.eraseDups ++ [x] := by
  rw [List.eraseDups_append]
  by_cases h : x ∈ l <;> simp [List.removeAll, List.eraseDups_cons, h]

theorem eraseDups_append_self {α : Type} [BEq α] [LawfulBEq α] (l : List α) :
    (l ++ l).eraseDups = l.eraseDups := by
  have hnone : l.removeAll l = [] := by simp [List.removeAll, List.filter_eq_nil_iff]
  rw [List.eraseDups_append, hnone, List.eraseDups_nil, List.append_nil]

end CachingResolver
