import CachingResolver.Cbor
import CachingResolver.Proofs.Octets
import CachingResolver.Proofs.Utf8
import Mathlib.Algebra.Group.Int.Defs
import Mathlib.Data.List.Forall2

/-!
# CBOR read back

What `encodeText`, `encodeInt`, `encodeArray` and `encodeMap` write is read as the item that it
stands for, with any octets after it (`ReadsAs`).  The head of an item holds numbers below `2 ^ 64`,
so that is the bound on lengths, counts and magnitudes.  An array or a map takes one level of
nesting more than its parts.
-/

namespace CachingResolver.Cbor

open CachingResolver.Text

/-! ### Heads -/

theorem toNat_firstOctet {major info : Nat} (hmajor : major < 8) (hinfo : info < 32) :
    (UInt8.ofNat (major * 32 + info)).toNat / 32 = major ∧
      (UInt8.ofNat (major * 32 + info)).toNat % 32 = info := by
  rw [UInt8.toNat_ofNat_of_lt' (by show _ < 256; omega)]
  omega

/-- A number below 24 stands in the first octet. -/
theorem readHead_short {major n : Nat} (hmajor : major < 8) (hn : n < 24) (rest : List UInt8) :
    readHead (UInt8.ofNat (major * 32 + n) :: rest) = some (⟨major, n, .value n⟩, rest) := by
  obtain ⟨hm, hi⟩ := toNat_firstOctet hmajor (show n < 32 by omega)
  have hwidth : argumentWidth? n = some 0 := by rw [argumentWidth?, if_pos hn]
  unfold readHead
  dsimp only
  rw [hm, hi, if_neg (by omega), hwidth]
  rfl

/-- A longer number follows the first octet, which tells how many octets it takes. -/
theorem readHead_long {major info width n : Nat} (hmajor : major < 8) (hinfo : info < 31)
    (hwidth : argumentWidth? info = some (width + 1)) (hn : n < 256 ^ (width + 1))
    (rest : List UInt8) :
    readHead (UInt8.ofNat (major * 32 + info) :: Octets.ofNat (width + 1) n ++ rest) =
      some (⟨major, info, .value n⟩, rest) := by
  obtain ⟨hm, hi⟩ := toNat_firstOctet hmajor (show info < 32 by omega)
  rw [List.cons_append]
  unfold readHead
  dsimp only
  rw [hm, hi, if_neg (by omega), hwidth, Option.bind_eq_bind, Option.bind_some,
    if_neg (Nat.succ_ne_zero width), Octets.readNat_append hn]
  rfl

/-- The shortest head of a number is read as this number. -/
theorem readHead_encodeHead {major n : Nat} (hmajor : major < 8) (hn : n < 2 ^ 64)
    (rest : List UInt8) :
    ∃ info, readHead (encodeHead major n ++ rest) = some (⟨major, info, .value n⟩, rest) := by
  unfold encodeHead
  dsimp only
  split
  · rename_i h
    exact ⟨n, readHead_short hmajor h rest⟩
  · split
    · rename_i h
      exact ⟨24, readHead_long hmajor (by decide) rfl h rest⟩
    · split
      · rename_i h
        exact ⟨25, readHead_long hmajor (by decide) rfl h rest⟩
      · split
        · rename_i h
          exact ⟨26, readHead_long hmajor (by decide) rfl h rest⟩
        · exact ⟨27, readHead_long hmajor (by decide) rfl hn rest⟩

/-! ### Items -/

/-- Where `depth` arrays and maps may nest, the octets are read as the item, and what follows them
is left. -/
def ReadsAs (depth : Nat) (octets : List UInt8) (item : Item) : Prop :=
  ∀ size rest, readNested (size + 1) depth (octets ++ rest) = some (item, rest)

theorem readTags_of_readHead {bs rest : List UInt8} {head : Head}
    (h : readHead bs = some (head, rest)) (hmajor : head.major ≠ 6) (size : Nat)
    (tags : List Nat) : readTags (size + 1) tags bs = some (tags, head, rest) := by
  rw [readTags, h]
  dsimp only
  split
  · rename_i heq _
    exact absurd heq hmajor
  · rfl

theorem readNested_of_scalar {bs rest : List UInt8} {head : Head}
    (h : readHead bs = some (head, rest)) (hmajor : head.major < 4) (size depth : Nat) :
    readNested (size + 1) depth bs = readScalar head rest := by
  have htags := readTags_of_readHead h (by omega) size []
  cases depth with
  | zero =>
      rw [readNested, htags]
      cases hread : readScalar head rest with
      | none => simp [hread]
      | some p => simp [hread]
  | succ depth =>
      rw [readNested, htags]
      have hbody : readBody (readNested (size + 1) depth) head rest = readScalar head rest := by
        unfold readBody
        rw [if_neg (by omega), if_neg (by omega)]
      cases hread : readScalar head rest with
      | none => simp [hbody, hread]
      | some p => simp [hbody, hread]

theorem readScalar_text {info n : Nat} {bs octets rest : List UInt8} {s : String}
    (htake : Octets.take? n bs = some (octets, rest)) (hs : Utf8.decode? octets = some s) :
    readScalar ⟨3, info, .value n⟩ bs = some (.text s, rest) := by
  simp [readScalar, htake, hs]

/-- A text is read back when its length fits into a head. -/
theorem readsAs_encodeText {s : String} (h : (Utf8.encode s).length < 2 ^ 64) (depth : Nat) :
    ReadsAs depth (encodeText s) (.text s) := by
  intro size rest
  obtain ⟨info, hhead⟩ := readHead_encodeHead (show 3 < 8 by decide) h (Utf8.encode s ++ rest)
  unfold encodeText
  dsimp only
  rw [List.append_assoc, readNested_of_scalar hhead (show 3 < 4 by decide)]
  exact readScalar_text (Octets.take?_append _ _) (Utf8.decode?_encode s)

/-- The item that an integer is read as. -/
def Item.ofInt : Int → Item
  | .ofNat n => .unsigned n
  | .negSucc n => .negative n

theorem Item.asInt?_ofInt (n : Int) : (Item.ofInt n).asInt? = some n := by
  cases n with
  | ofNat n => rfl
  | negSucc n =>
      show some (-1 - (n : Int)) = some (Int.negSucc n)
      rw [Int.negSucc_eq]
      congr 1
      omega

theorem readsAs_encodeInt {n : Int} (hlow : -2 ^ 64 ≤ n) (hhigh : n < 2 ^ 64) (depth : Nat) :
    ReadsAs depth (encodeInt n) (.ofInt n) := by
  intro size rest
  cases n with
  | ofNat n =>
      have hn : n < 2 ^ 64 := Int.ofNat_lt.1 hhigh
      obtain ⟨info, hhead⟩ := readHead_encodeHead (show 0 < 8 by decide) hn rest
      exact readNested_of_scalar hhead (show 0 < 4 by decide) size depth
  | negSucc n =>
      have hn : n < 2 ^ 64 := by
        rw [Int.negSucc_eq] at hlow
        omega
      obtain ⟨info, hhead⟩ := readHead_encodeHead (show 1 < 8 by decide) hn rest
      exact readNested_of_scalar hhead (show 1 < 4 by decide) size depth

theorem Item.asArray?_array (items : List Item) : (Item.array items).asArray? = some items := rfl

/-- Parts that are read one after the other are read as many. -/
theorem readMany_flatten {α : Type} {item : List UInt8 → Option (α × List UInt8)}
    {parts : List (List UInt8)} {xs : List α}
    (h : List.Forall₂ (fun part x => ∀ rest, item (part ++ rest) = some (x, rest)) parts xs)
    (rest : List UInt8) : readMany item parts.length (parts.flatten ++ rest) = some (xs, rest) := by
  induction h with
  | nil => rfl
  | @cons part x parts xs hpart _ ih =>
      rw [List.length_cons, readMany, List.flatten_cons, List.append_assoc, hpart]
      simp only [Option.bind_eq_bind, Option.bind_some, ih]

theorem readNested_of_body {bs rest : List UInt8} {head : Head}
    (h : readHead bs = some (head, rest)) (hmajor : head.major ≠ 6) (size depth : Nat)
    {item : Item} {more : List UInt8}
    (hbody : readBody (readNested (size + 1) depth) head rest = some (item, more)) :
    readNested (size + 1) (depth + 1) bs = some (item, more) := by
  rw [readNested, readTags_of_readHead h hmajor]
  simp only [Option.bind_eq_bind, Option.bind_some, hbody, List.foldl_nil]

theorem readsAs_encodeArray {depth : Nat} {parts : List (List UInt8)} {items : List Item}
    (h : List.Forall₂ (ReadsAs depth) parts items) (hlength : parts.length < 2 ^ 64) :
    ReadsAs (depth + 1) (encodeArray parts) (.array items) := by
  intro size rest
  obtain ⟨info, hhead⟩ :=
    readHead_encodeHead (show 4 < 8 by decide) hlength (parts.flatten ++ rest)
  have hmany := readMany_flatten (h.imp fun _ _ hpart => hpart size) rest
  unfold encodeArray
  rw [List.append_assoc]
  refine readNested_of_body hhead (show 4 ≠ 6 by decide) size depth ?_
  unfold readBody readCounted
  simp [hmany]

/-- The octets of a pair are read as the pair of items. -/
def PairReadsAs (depth : Nat) (p : String × List UInt8) (q : Item × Item) : Prop :=
  (Utf8.encode p.1).length < 2 ^ 64 ∧ q.1 = .text p.1 ∧ ReadsAs depth p.2 q.2

theorem PairReadsAs.of_value {depth : Nat} {name : String} {octets : List UInt8} {item : Item}
    (hlength : (Utf8.encode name).length < 2 ^ 64) (h : ReadsAs depth octets item) :
    PairReadsAs depth (name, octets) (.text name, item) :=
  ⟨hlength, rfl, h⟩

theorem readPair_append {depth size : Nat} {p : String × List UInt8} {q : Item × Item}
    (h : PairReadsAs depth p q) (rest : List UInt8) :
    readPair (readNested (size + 1) depth) (encodeText p.1 ++ p.2 ++ rest) = some (q, rest) := by
  obtain ⟨hlength, hkey, hvalue⟩ := h
  unfold readPair
  rw [List.append_assoc, readsAs_encodeText hlength depth size (p.2 ++ rest)]
  simp only [Option.bind_eq_bind, Option.bind_some, hvalue size rest, ← hkey]

theorem readsAs_encodeMap {depth : Nat} {pairs : List (String × List UInt8)}
    {items : List (Item × Item)} (h : List.Forall₂ (PairReadsAs depth) pairs items)
    (hlength : pairs.length < 2 ^ 64) :
    ReadsAs (depth + 1) (encodeMap pairs) (.map items) := by
  intro size rest
  have hparts : List.Forall₂
      (fun part q => ∀ rest, readPair (readNested (size + 1) depth) (part ++ rest) = some (q, rest))
      (pairs.map fun p => encodeText p.1 ++ p.2) items :=
    List.forall₂_map_left_iff.2 (h.imp fun _ _ hpair => readPair_append hpair)
  have hmany := readMany_flatten hparts rest
  rw [List.length_map] at hmany
  obtain ⟨info, hhead⟩ := readHead_encodeHead (show 5 < 8 by decide) hlength
    ((pairs.map fun p => encodeText p.1 ++ p.2).flatten ++ rest)
  unfold encodeMap
  rw [List.append_assoc, List.flatMap_def]
  refine readNested_of_body hhead (show 5 ≠ 6 by decide) size depth ?_
  unfold readBody readCounted
  simp [hmany]

end CachingResolver.Cbor
