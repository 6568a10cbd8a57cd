/-!
# Blank characters and words

The blanks of this library are the code points with the Unicode property `White_Space`.  Trimming
removes them from both ends of a text and `words` cuts a text at every run of them.
-/

namespace CachingResolver.Text

/-- The code points with the Unicode property `White_Space`. -/
def isBlank (c : Char) : Bool :=
  let n := c.toNat
  (0x09 ≤ n && n ≤ 0x0d) || n == 0x20 || n == 0x85 || n == 0xa0 || n == 0x1680 ||
    (0x2000 ≤ n && n ≤ 0x200a) || n == 0x2028 || n == 0x2029 || n == 0x202f || n == 0x205f ||
    n == 0x3000

/-- Drop the longest ending whose characters all satisfy `p`. -/
def dropTrailing (p : Char → Bool) (cs : List Char) : List Char :=
  (cs.reverse.dropWhile p).reverse

/-- Remove the blanks at both ends. -/
def trim (cs : List Char) : List Char :=
  dropTrailing isBlank (cs.dropWhile isBlank)

/-- The maximal runs of characters that are not blank, in order. -/
def words : List Char → List (List Char)
  | [] => []
  | c :: cs =>
    if isBlank c then words cs
    else
      match cs.head?.map isBlank, words cs with
      | some false, w :: ws => (c :: w) :: ws
      | _, ws => [c] :: ws

/-- Split at every occurrence of `sep`; there is one piece more than there are separators. -/
def splitAt {α : Type} [BEq α] (sep : α) : List α → List (List α)
  | [] => [[]]
  | x :: xs =>
    if x == sep then [] :: splitAt sep xs
    else
      match splitAt sep xs with
      | [] => [[x]]
      | piece :: pieces => (x :: piece) :: pieces

/-- Split at the first occurrence of `sep`; `none` when there is none. -/
def splitOnce {α : Type} [BEq α] (sep : α) : List α → Option (List α × List α)
  | [] => none
  | x :: xs =>
    if x == sep then some ([], xs)
    else (splitOnce sep xs).map fun (left, right) => (x :: left, right)

/-- Join texts with `sep` between neighbours. -/
def join (sep : String) : List String → String
  | [] => ""
  | [s] => s
  | s :: rest => s ++ sep ++ join sep rest

theorem words_nil : words [] = [] := rfl

theorem ne_nil_of_mem_words {cs w : List Char} (h : w ∈ words cs) : w ≠ [] := by
  induction cs generalizing w with
  | nil => simp [words] at h
  | cons c cs ih =>
    rw [words] at h
    split at h
    · exact ih h
    · split at h
      · rename_i hw
        rcases List.mem_cons.1 h with rfl | h
        · simp
        · exact ih (hw ▸ List.mem_cons_of_mem _ h)
      · rcases List.mem_cons.1 h with rfl | h
        · simp
        · exact ih h

end CachingResolver.Text
