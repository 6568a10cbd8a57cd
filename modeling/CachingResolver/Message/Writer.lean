import CachingResolver.DomainName.Wire

/-!
# Writers

What is written of a name depends on what stands before it in the message.  A writer gives the
octets for a position and for the endings of names that are known there.  It also tells how far it
comes: the labels of a name are all written out before its ending is replaced by a pointer, so a
writer can come further than its octets reach.
-/

namespace CachingResolver

open CachingResolver.Octets

/-- What a writer writes at a position. -/
structure Passage where
  octets : List UInt8 := []
  -- The endings of names that are known after it.
  endings : DomainName.Endings
  -- The furthest position that writing comes to.
  reach : Nat
  -- Whether writing stops at a text string that is too long.
  isFlawed : Bool := false
  deriving DecidableEq, Repr

abbrev Writer := (pos : Nat) → (known : DomainName.Endings) → Passage

namespace Writer

def octets (octets : List UInt8) : Writer := fun pos known =>
  { octets, endings := known, reach := pos + octets.length }

def word16 (n : UInt16) : Writer := octets (ofWord16 n)

def word32 (n : UInt32) : Writer := octets (ofWord32 n)

/-- The positions that a pointer can name end here. -/
def pointerEnd : Nat := 0x3fff

/-- Write a name with a pointer to the longest ending that is known.  The endings that are written
out become known, unless the labels end where no pointer leads. -/
def name (n : DomainName) : Writer := fun pos known =>
  let octets := DomainName.encodeLabels known n.labels
  -- Where the labels end when they are all written out.
  let labelsEnd := pos + (labelsSize n.labels - 1)
  { octets
    endings :=
      if labelsEnd < pointerEnd then known ++ DomainName.newEndings known pos n.labels else known
    reach := max labelsEnd (pos + octets.length) }

/-- Write a text string: its length and itself. -/
def text (string : List UInt8) : Writer := fun pos known =>
  if string.length < 256 then octets (UInt8.ofNat string.length :: string) pos known
  else { endings := known, reach := pos, isFlawed := true }

/-- Write one thing and then another. -/
def andThen (first second : Writer) : Writer := fun pos known =>
  let front := first pos known
  if front.isFlawed then front
  else
    let back := second (pos + front.octets.length) front.endings
    { back with octets := front.octets ++ back.octets, reach := max front.reach back.reach }

def all (writers : List Writer) : Writer :=
  writers.foldr andThen (octets [])

/-- Write the length of something in two octets and then the thing. -/
def measured (writer : Writer) : Writer := fun pos known =>
  let passage := writer (pos + 2) known
  { passage with octets := ofNat 2 passage.octets.length ++ passage.octets }

end Writer

end CachingResolver
