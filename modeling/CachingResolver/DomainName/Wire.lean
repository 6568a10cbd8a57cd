import CachingResolver.DomainName
import CachingResolver.Octets

/-!
# Domain names in messages

In a message a label is its length and its octets, a zero ends a name, and two octets that start
with two one-bits are a pointer: the name goes on where they point.  A pointer points before the
start of the name that holds it, and what it points to ends before that start, so following pointers
ends.  A name is written with a pointer where its ending stands in the message already.
-/

namespace CachingResolver.DomainName

open CachingResolver.Octets

/-- Endings of names that stand in a message, with their positions. -/
abbrev Endings := List (List (List UInt8) × Nat)

/-- The octets of labels, each with its length.  For an ending that is known there is a pointer to
it; without a pointer, a zero comes last. -/
def encodeLabels (known : Endings) : List (List UInt8) → List UInt8
  | [] => [0]
  | label :: labels =>
    match known.lookup (label :: labels) with
    | some pos => ofNat 2 (0xc000 + pos)
    | none => UInt8.ofNat label.length :: (label ++ encodeLabels known labels)

/-- The endings of labels that are written out from a position on. -/
def newEndings (known : Endings) (pos : Nat) : List (List UInt8) → Endings
  | [] => []
  | label :: labels =>
    match known.lookup (label :: labels) with
    | some _ => []
    | none => (label :: labels, pos) :: newEndings known (pos + 1 + label.length) labels

/-- The octets of a name, written without pointers. -/
def encode (n : DomainName) : List UInt8 :=
  encodeLabels [] n.labels

/-- The position that a pointer names. -/
def pointerTarget (high low : UInt8) : Nat :=
  high.toNat % 64 * 256 + low.toNat

/-- Read the labels of a name that starts at position `start` of a message, from a cursor on.
Nothing at position `limit` or after it may belong to the name.  The result gives the labels and the
place after the name. -/
def readLabels (message : List UInt8) (start : Nat) (limit : Option Nat) (cursor : Cursor) :
    Option (List (List UInt8) × Cursor) :=
  if limit.any (· ≤ cursor.pos) then none
  else
    match _ : cursor.rest with
    | [] => none
    | b :: rest =>
      if b = 0 then some ([], ⟨cursor.pos + 1, rest⟩)
      else if b < 64 then
        match h : Octets.take? b.toNat rest with
        | none => none
        | some (label, after) =>
          (readLabels message start limit ⟨cursor.pos + 1 + b.toNat, after⟩).map
            fun (labels, cursor) => (label :: labels, cursor)
      else if 192 ≤ b then
        match rest with
        | [] => none
        | c :: rest =>
          let target := pointerTarget b c
          if target < start then
            (readLabels message target (some start) (.seek message target)).map
              fun (labels, _) => (labels, ⟨cursor.pos + 2, rest⟩)
          else none
      else none
termination_by (start, cursor.rest.length)
decreasing_by
  · have := Octets.length_le_of_take? h
    apply Prod.Lex.right
    simp only [‹cursor.rest = _›, List.length_cons]
    omega
  · apply Prod.Lex.left
    assumption

/-- Read the name at a place of a message.  The result gives the name and the place after it. -/
def read (message : List UInt8) (cursor : Cursor) : Option (DomainName × Cursor) := do
  let (labels, after) ← readLabels message cursor.pos none cursor
  let name ← ofLabels? true labels
  return (name, after)

end CachingResolver.DomainName
