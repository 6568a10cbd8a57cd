/-!
# Tables keyed by text

A finite map from texts to values, held as its pairs in strictly increasing order of the keys.
The order makes the representation unique: two tables with the same look-ups are equal, so the
history of a table never shows.
-/

namespace CachingResolver

/-- A finite map from texts to values, as its pairs in strictly increasing order of the keys. -/
structure Table (α : Type) where
  entries : List (String × α)
  sorted : entries.Pairwise fun p q => p.1 < q.1

namespace Table

variable {α : Type}

/-- Put a pair into sorted pairs, replacing the pair of the same key. -/
def insertPair (key : String) (value : α) : List (String × α) → List (String × α)
  | [] => [(key, value)]
  | p :: rest =>
    if key < p.1 then (key, value) :: p :: rest
    else if key = p.1 then (key, value) :: rest
    else p :: insertPair key value rest

theorem mem_insertPair {key : String} {value : α} {ps : List (String × α)} {q : String × α}
    (h : q ∈ insertPair key value ps) : q = (key, value) ∨ q ∈ ps := by
  induction ps with
  | nil => simpa [insertPair] using h
  | cons p rest ih =>
    rw [insertPair] at h
    split at h
    · simpa using h
    · split at h
      · rcases List.mem_cons.1 h with h | h
        · exact .inl h
        · exact .inr (List.mem_cons_of_mem _ h)
      · rcases List.mem_cons.1 h with h | h
        · exact .inr (h ▸ List.mem_cons_self)
        · rcases ih h with h | h
          · exact .inl h
          · exact .inr (List.mem_cons_of_mem _ h)

theorem pairwise_insertPair {key : String} {value : α} {ps : List (String × α)}
    (h : ps.Pairwise fun p q => p.1 < q.1) :
    (insertPair key value ps).Pairwise fun p q => p.1 < q.1 := by
  induction ps with
  | nil => simp [insertPair]
  | cons p rest ih =>
    have hp := List.pairwise_cons.1 h
    rw [insertPair]
    split
    · rename_i hlt
      refine List.pairwise_cons.2 ⟨fun q hq => ?_, h⟩
      rcases List.mem_cons.1 hq with rfl | hq
      · exact hlt
      · exact String.lt_trans hlt (hp.1 q hq)
    · split
      · rename_i heq
        subst heq
        exact List.pairwise_cons.2 ⟨hp.1, hp.2⟩
      · rename_i hlt heq
        refine List.pairwise_cons.2 ⟨fun q hq => ?_, ih hp.2⟩
        rcases mem_insertPair hq with rfl | hq
        · have hle : p.1 ≤ key := String.not_lt.1 hlt
          rcases Decidable.em (p.1 < key) with h | h
          · exact h
          · exact absurd (String.le_antisymm (String.not_lt.1 h) hle) heq
        · exact hp.1 q hq

def empty : Table α := ⟨[], List.Pairwise.nil⟩

instance : EmptyCollection (Table α) := ⟨empty⟩

instance : Inhabited (Table α) := ⟨empty⟩

def get? (t : Table α) (key : String) : Option α :=
  (t.entries.find? fun p => p.1 == key).map (·.2)

def contains (t : Table α) (key : String) : Bool :=
  t.entries.any fun p => p.1 == key

/-- Store `value` under `key`, replacing what was there. -/
def insert (t : Table α) (key : String) (value : α) : Table α :=
  ⟨insertPair key value t.entries, pairwise_insertPair t.sorted⟩

def erase (t : Table α) (key : String) : Table α :=
  ⟨t.entries.filter fun p => p.1 != key, t.sorted.filter _⟩

def size (t : Table α) : Nat :=
  t.entries.length

/-- Store the pairs in order; of pairs with one key the last wins. -/
def insertAll (t : Table α) (ps : List (String × α)) : Table α :=
  ps.foldl (fun t p => t.insert p.1 p.2) t

/-- The pairs of `top` laid over those of `t`. -/
def overlay (t top : Table α) : Table α :=
  t.insertAll top.entries

@[simp]
theorem get?_empty (key : String) : (∅ : Table α).get? key = none := rfl

theorem find?_insertPair (key k : String) (value : α) (ps : List (String × α)) :
    (insertPair key value ps).find? (fun p => p.1 == k) =
      if key = k then some (key, value) else ps.find? fun p => p.1 == k := by
  induction ps with
  | nil => by_cases h : key = k <;> simp [insertPair, h]
  | cons p rest ih =>
    rw [insertPair]
    split
    · by_cases h : key = k <;> simp [h]
    · split
      · rename_i heq
        by_cases h : key = k <;> simp_all
      · rename_i heq
        by_cases hp : p.1 = k
        · simp [hp, show ¬key = k from fun h => heq (h.trans hp.symm)]
        · simp [hp, ih]

theorem get?_insert (t : Table α) (key k : String) (value : α) :
    (t.insert key value).get? k = if key = k then some value else t.get? k := by
  simp only [get?, insert, find?_insertPair]
  split <;> rfl

@[simp]
theorem get?_insert_self (t : Table α) (key : String) (value : α) :
    (t.insert key value).get? key = some value := by
  simp [get?_insert]

theorem get?_erase (t : Table α) (key k : String) :
    (t.erase key).get? k = if key = k then none else t.get? k := by
  simp only [get?, erase, List.find?_filter]
  split
  · rename_i h
    subst h
    simp
  · rename_i h
    congr 1
    congr 1
    funext p
    by_cases hp : p.1 = k
    · simp [hp, Ne.symm h]
    · simp [hp]

@[simp]
theorem get?_erase_self (t : Table α) (key : String) : (t.erase key).get? key = none := by
  simp [get?_erase]

end Table

end CachingResolver
