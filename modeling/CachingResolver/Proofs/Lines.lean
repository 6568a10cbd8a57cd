import CachingResolver.Proofs.Utf8
import CachingResolver.Text.Blank

/-!
# Files that are read line by line

A file is cut at its line feeds, and its lines with line feeds between them are the file again
(`intercalate_splitAt`).  In UTF-8 the octet of a line feed occurs in no other character.  So a text
has the same lines whether it is cut as octets or as characters (`splitAt_encode`), and a file is a
text exactly when each of its lines is one (`isSome_decode?_iff`).

Where each line stands on its own, a file is understood by saying what one line gives: `Taken` takes
what the lines give, in order, and passes over a line that gives nothing.
-/

namespace CachingResolver.Text

/-! ### Lines -/

theorem exists_splitAt_cons {α : Type} [BEq α] (sep : α) (xs : List α) :
    ∃ piece pieces, splitAt sep xs = piece :: pieces := by
  cases xs with
  | nil => exact ⟨[], [], rfl⟩
  | cons x xs =>
      rw [splitAt]
      split
      · exact ⟨_, _, rfl⟩
      · split <;> exact ⟨_, _, rfl⟩

section Pieces

variable {α : Type} [BEq α] [LawfulBEq α] {sep : α} {xs piece : List α} {pieces : List (List α)}

theorem splitAt_cons_self (sep : α) (xs : List α) :
    splitAt sep (sep :: xs) = [] :: splitAt sep xs := by
  rw [splitAt, if_pos (beq_self_eq_true sep)]

/-- What holds no separator stays in one piece with what follows. -/
theorem splitAt_append_of_not_mem {front : List α} (hfront : sep ∉ front)
    (h : splitAt sep xs = piece :: pieces) :
    splitAt sep (front ++ xs) = (front ++ piece) :: pieces := by
  induction front with
  | nil => exact h
  | cons x front ih =>
      obtain ⟨hx, hrest⟩ : sep ≠ x ∧ sep ∉ front := by simpa using hfront
      rw [List.cons_append, splitAt, if_neg (by simpa using Ne.symm hx), ih hrest]
      rfl

/-- The pieces with separators between them are the whole again. -/
theorem intercalate_splitAt (sep : α) (xs : List α) : [sep].intercalate (splitAt sep xs) = xs := by
  induction xs with
  | nil => rfl
  | cons x xs ih =>
      obtain ⟨piece, pieces, hsplit⟩ := exists_splitAt_cons sep xs
      by_cases hx : x = sep
      · subst hx
        rw [splitAt_cons_self, List.intercalate_cons_of_ne_nil (by simp [hsplit]), ih]
        rfl
      · have hfront : sep ∉ [x] := by simpa using Ne.symm hx
        have hcons := splitAt_append_of_not_mem hfront hsplit
        rw [List.singleton_append, List.singleton_append] at hcons
        rw [hcons, ← ih, hsplit]
        cases pieces with
        | nil => rw [List.intercalate_singleton, List.intercalate_singleton]
        | cons next more => rw [List.intercalate_cons_cons, List.intercalate_cons_cons]; rfl

/-- When the code of a symbol holds a separator only as the code of another separator, the pieces of
what is written are what the pieces are written as. -/
theorem splitAt_flatMap {β : Type} {mark : β} [BEq β] [LawfulBEq β] (code : α → List β)
    (hmark : code sep = [mark]) (hcode : ∀ x, mark ∈ code x → x = sep) (xs : List α) :
    splitAt mark (xs.flatMap code) = (splitAt sep xs).map fun piece => piece.flatMap code := by
  induction xs with
  | nil => rfl
  | cons x xs ih =>
      by_cases hx : x = sep
      · subst hx
        rw [List.flatMap_cons, hmark, List.singleton_append, splitAt_cons_self, splitAt_cons_self,
          ih]
        rfl
      · obtain ⟨piece, pieces, hsplit⟩ := exists_splitAt_cons sep xs
        have hwritten := ih
        rw [hsplit, List.map_cons] at hwritten
        have hfront : sep ∉ [x] := by simpa using Ne.symm hx
        have hcons := splitAt_append_of_not_mem hfront hsplit
        rw [List.singleton_append, List.singleton_append] at hcons
        rw [List.flatMap_cons, splitAt_append_of_not_mem (fun h => hx (hcode x h)) hwritten, hcons]
        rfl

end Pieces

/-! ### Texts -/

namespace Utf8

def lineFeed : UInt8 := 10

theorem eq_of_lineFeed_mem {c : Char} (h : lineFeed ∈ String.utf8EncodeChar c) : c = '\n' := by
  have hval : ∀ {n : Nat}, lineFeed = UInt8.ofNat n → n % 256 = 10 := by
    intro n hn
    have htoNat := congrArg UInt8.toNat hn
    rw [UInt8.toNat_ofNat'] at htoNat
    exact htoNat.symm
  -- The octets of characters beyond ASCII are 128 or more.
  have hcode : c.val.toNat = 10 := by
    unfold String.utf8EncodeChar at h
    dsimp only at h
    generalize c.val.toNat = v at h
    split at h
    · have := hval (List.mem_singleton.1 h)
      omega
    · split at h
      · simp only [List.mem_cons, List.not_mem_nil, or_false] at h
        rcases h with h | h <;> · have := hval h; omega
      · split at h
        · simp only [List.mem_cons, List.not_mem_nil, or_false] at h
          rcases h with h | h | h <;> · have := hval h; omega
        · simp only [List.mem_cons, List.not_mem_nil, or_false] at h
          rcases h with h | h | h | h <;> · have := hval h; omega
  exact Char.toNat_inj.1 hcode

/-- A text has the same lines in octets as in characters. -/
theorem splitAt_encode (s : String) :
    splitAt lineFeed (encode s) =
      (splitAt '\n' s.toList).map fun line => encode (String.ofList line) := by
  obtain ⟨cs, rfl⟩ : ∃ cs, s = String.ofList cs := ⟨s.toList, String.ofList_toList.symm⟩
  simp only [encode_ofList, String.toList_ofList]
  exact splitAt_flatMap String.utf8EncodeChar rfl (fun _ => eq_of_lineFeed_mem) cs

theorem exists_encode_intercalate {lines : List (List UInt8)}
    (h : ∀ line ∈ lines, ∃ s, line = encode s) :
    ∃ s, [lineFeed].intercalate lines = encode s := by
  have happend (s t : String) : encode s ++ encode t = encode (s ++ t) := by
    unfold encode
    rw [String.toByteArray_append]
    simp
  induction lines with
  | nil => exact ⟨"", rfl⟩
  | cons line lines ih =>
      obtain ⟨s, rfl⟩ := h line List.mem_cons_self
      obtain ⟨t, ht⟩ := ih fun l hl => h l (List.mem_cons_of_mem _ hl)
      cases lines with
      | nil => exact ⟨s, List.intercalate_singleton⟩
      | cons next more =>
          refine ⟨s ++ "\n" ++ t, ?_⟩
          rw [List.intercalate_cons_cons, ht, ← happend, ← happend]
          rfl

/-- A file is a text exactly when each of its lines is. -/
theorem isSome_decode?_iff {octets : List UInt8} :
    (decode? octets).isSome = true ↔
      ∀ line ∈ splitAt lineFeed octets, (decode? line).isSome = true := by
  simp only [Option.isSome_iff_exists, decode?_eq_some_iff]
  constructor
  · rintro ⟨s, rfl⟩ line hline
    rw [splitAt_encode] at hline
    obtain ⟨cs, -, rfl⟩ := List.mem_map.1 hline
    exact ⟨_, rfl⟩
  · intro h
    obtain ⟨s, hs⟩ := exists_encode_intercalate h
    exact ⟨s, by rw [← hs, intercalate_splitAt]⟩

end Utf8

/-! ### What lines give -/

/-- What lines give, in order, when each stands on its own: a line gives one thing or is passed
over. -/
inductive Taken {α β : Type} (Gives : α → β → Prop) : List α → List β → Prop
  | nil : Taken Gives [] []
  | take {line : α} {x : β} {lines : List α} {xs : List β} (h : Gives line x)
      (rest : Taken Gives lines xs) : Taken Gives (line :: lines) (x :: xs)
  | skip {line : α} {lines : List α} {xs : List β} (h : ∀ x, ¬ Gives line x)
      (rest : Taken Gives lines xs) : Taken Gives (line :: lines) xs

/-- When a function computes what a line gives, it computes what lines give. -/
theorem taken_iff {α β : Type} {Gives : α → β → Prop} {f : α → Option β}
    (h : ∀ line x, Gives line x ↔ f line = some x) {lines : List α} {xs : List β} :
    Taken Gives lines xs ↔ lines.filterMap f = xs := by
  constructor
  · intro htaken
    induction htaken with
    | nil => rfl
    | take hline _ ih => rw [List.filterMap_cons_some ((h _ _).1 hline), ih]
    | @skip line _ _ hline _ ih =>
        have hnone : f line = none :=
          Option.eq_none_iff_forall_ne_some.2 fun x hx => hline x ((h _ _).2 hx)
        rw [List.filterMap_cons_none hnone, ih]
  · rintro rfl
    induction lines with
    | nil => exact .nil
    | cons line lines ih =>
        cases hline : f line with
        | none =>
            rw [List.filterMap_cons_none hline]
            refine .skip (fun x hx => ?_) ih
            rw [(h _ _).1 hx] at hline
            cases hline
        | some x =>
            rw [List.filterMap_cons_some hline]
            exact .take ((h _ _).2 hline) ih

end CachingResolver.Text
