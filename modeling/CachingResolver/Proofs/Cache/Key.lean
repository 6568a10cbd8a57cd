import CachingResolver.Cache.Key
import CachingResolver.Proofs.Name

/-!
# Cache keys determine owner and type

A key is split again at its last slash (`splitKey?_makeKey`), so two keys are equal exactly when the
canonical owners and the types are (`makeKey_inj`).
-/

namespace CachingResolver.Cache

open CachingResolver.Text

theorem splitOnce_append {α : Type} [BEq α] [LawfulBEq α] {sep : α} {left : List α}
    (right : List α) (h : sep ∉ left) :
    splitOnce sep (left ++ sep :: right) = some (left, right) := by
  induction left with
  | nil => simp [splitOnce]
  | cons x left ih =>
      obtain ⟨hx, hleft⟩ : sep ≠ x ∧ sep ∉ left := by simpa using h
      simp [splitOnce, ih hleft, beq_eq_false_iff_ne.2 (Ne.symm hx)]

theorem slash_not_mem_mnemonic (type : RecordType) : '/' ∉ type.mnemonic.toList := by
  cases type <;> decide

theorem ofText?_mnemonic (type : RecordType) : RecordType.ofText? type.mnemonic = some type := by
  cases type <;> decide

/-- Splitting a key gives back the canonical owner and the type. -/
theorem splitKey?_makeKey (name : String) (type : RecordType) :
    splitKey? (makeKey name type) = some (Name.canonical name, type) := by
  have hkey : (makeKey name type).toList.reverse =
      type.mnemonic.toList.reverse ++ '/' :: (Name.canonical name).toList.reverse := by
    simp [makeKey]
  unfold splitKey?
  rw [hkey, splitOnce_append _ (by simpa using slash_not_mem_mnemonic type)]
  simp [ofText?_mnemonic]

/-- Two keys are equal exactly when the canonical owners and the types are. -/
theorem makeKey_inj {m n : String} {s t : RecordType} :
    makeKey m s = makeKey n t ↔ Name.canonical m = Name.canonical n ∧ s = t := by
  constructor
  · intro h
    have := congrArg splitKey? h
    simpa [splitKey?_makeKey] using this
  · rintro ⟨h, rfl⟩
    simp [makeKey, h]

@[simp] theorem makeKey_canonical (name : String) (type : RecordType) :
    makeKey (Name.canonical name) type = makeKey name type := by
  simp [makeKey]

end CachingResolver.Cache
