/-!
# Octets

Numbers as octets, most significant first, and the cutting of octet strings.
-/

namespace CachingResolver.Octets

/-- The number that octets write, most significant first. -/
def toNat (bs : List UInt8) : Nat :=
  bs.foldl (fun n b => n * 256 + b.toNat) 0

/-- The last `width` octets of a number, most significant first. -/
def ofNat : (width : Nat) → Nat → List UInt8
  | 0, _ => []
  | width + 1, n => ofNat width (n / 256) ++ [UInt8.ofNat n]

/-- The first `n` octets and the rest; `none` when there are fewer. -/
def take? : (n : Nat) → List UInt8 → Option (List UInt8 × List UInt8)
  | 0, bs => some ([], bs)
  | _ + 1, [] => none
  | n + 1, b :: bs => (take? n bs).map fun (front, rest) => (b :: front, rest)

/-- Read a number of `width` octets. -/
def readNat (width : Nat) (bs : List UInt8) : Option (Nat × List UInt8) :=
  (take? width bs).map fun (front, rest) => (toNat front, rest)

def ofWord16 (w : UInt16) : List UInt8 :=
  ofNat 2 w.toNat

def ofWord32 (w : UInt32) : List UInt8 :=
  ofNat 4 w.toNat

@[simp]
theorem length_ofNat (width n : Nat) : (ofNat width n).length = width := by
  induction width generalizing n with
  | zero => rfl
  | succ width ih => simp [ofNat, ih]

theorem take?_append (front rest : List UInt8) :
    take? front.length (front ++ rest) = some (front, rest) := by
  induction front with
  | nil => rfl
  | cons b front ih => simp [take?, ih]

theorem length_of_take? {n : Nat} {bs front rest : List UInt8}
    (h : take? n bs = some (front, rest)) : bs = front ++ rest ∧ front.length = n := by
  induction n generalizing bs front with
  | zero => simp_all [take?]
  | succ n ih =>
    cases bs with
    | nil => simp [take?] at h
    | cons b bs =>
      rw [take?] at h
      obtain ⟨⟨front', rest'⟩, h', heq⟩ := Option.map_eq_some_iff.1 h
      simp only [Prod.mk.injEq] at heq
      obtain ⟨rfl, rfl⟩ := heq
      simp [ih h']

theorem length_le_of_take? {n : Nat} {bs front rest : List UInt8}
    (h : take? n bs = some (front, rest)) : rest.length ≤ bs.length := by
  have := congrArg List.length (length_of_take? h).1
  rw [List.length_append] at this
  omega

/-- A place in a string of octets: how many octets come before it, and those that follow. -/
structure Cursor where
  -- The number of octets before the place.
  pos : Nat
  rest : List UInt8
  deriving DecidableEq, Repr

namespace Cursor

def seek (octets : List UInt8) (pos : Nat) : Cursor :=
  ⟨pos, octets.drop pos⟩

def take? (c : Cursor) (n : Nat) : Option (List UInt8 × Cursor) :=
  (Octets.take? n c.rest).map fun (front, rest) => (front, ⟨c.pos + n, rest⟩)

/-- Pass a number of `width` octets. -/
def nat? (c : Cursor) (width : Nat) : Option (Nat × Cursor) :=
  (c.take? width).map fun (front, c) => (toNat front, c)

/-- Pass a number of two octets. -/
def word16? (c : Cursor) : Option (UInt16 × Cursor) :=
  (c.nat? 2).map fun (n, c) => (UInt16.ofNat n, c)

/-- Pass a number of four octets. -/
def word32? (c : Cursor) : Option (UInt32 × Cursor) :=
  (c.nat? 4).map fun (n, c) => (UInt32.ofNat n, c)

end Cursor

end CachingResolver.Octets
