import CachingResolver.Text.Unicode.Direction
import CachingResolver.Text.Unicode.Joining

/-!
# Legible labels

Rules that keep labels beyond ASCII legible: a label does not start with a mark, it holds an
invisible joiner only where the joiner changes how letters look, and in a name with characters from
right to left every label runs in one direction.
-/

namespace CachingResolver.DomainName

open CachingResolver.Text
open CachingResolver.Text.Unicode

/-- The invisible character that joins two letters. -/
def joiner : Char := '\u200d'

/-- The invisible character that keeps two letters from joining. -/
def nonJoiner : Char := '\u200c'

/-- The combining class of signs that a consonant has no vowel. -/
def viramaClass : Nat := 9

/-- Whether a joiner may stand between the characters before it, the last first, and those after it:
after a sign that there is no vowel, or, to keep them apart, between letters that would join. -/
def mayJoin (c : Char) (before after : List Char) : Bool :=
  before.head?.any (combiningClass · == viramaClass) ||
    (c == nonJoiner && (firstJoining? before).any joinsNext &&
      (firstJoining? after).any joinsPrevious)

/-- Whether every joiner stands where it may; `before` are the characters before, the last first. -/
def joinersFit (before : List Char) : List Char → Bool
  | [] => true
  | c :: after =>
    (if c == joiner || c == nonJoiner then mayJoin c before after else true) &&
      joinersFit (c :: before) after

/-- Whether a label is legible on its own. -/
def isLegible (label : List Char) : Bool :=
  !label.head?.any isMark && joinersFit [] label

/-- Whether a character makes a name one that is read from right to left. -/
def isReversing (c : Char) : Bool :=
  direction c == .rightToLeft || direction c == .arabicNumber

/-- Whether a character may stand in a label from left to right. -/
def fitsForward (c : Char) : Bool :=
  match direction c with
  | .leftToRight | .europeanNumber | .neutral | .mark => true
  | _ => false

/-- Whether a character may end a label from left to right. -/
def endsForward (c : Char) : Bool :=
  direction c == .leftToRight || direction c == .europeanNumber

/-- Whether a character may stand in a label from right to left. -/
def fitsBackward (c : Char) : Bool :=
  match direction c with
  | .rightToLeft | .arabicNumber | .europeanNumber | .neutral | .mark => true
  | _ => false

/-- Whether a character may end a label from right to left. -/
def endsBackward (c : Char) : Bool :=
  direction c == .rightToLeft || direction c == .arabicNumber || direction c == .europeanNumber

/-- Whether a label runs in one direction.  Its first character tells which; marks at the end do not
count, and a label from right to left does not mix the two kinds of numbers. -/
def isDirected : List Char → Bool
  | [] => true
  | first :: rest =>
    let inner := dropTrailing (direction · == .mark) rest
    match direction first with
    | .leftToRight => inner.all fitsForward && inner.getLast?.all endsForward
    | .rightToLeft =>
      inner.all fitsBackward && inner.getLast?.all endsBackward &&
        !(inner.any (direction · == .europeanNumber) && inner.any (direction · == .arabicNumber))
    | _ => false

/-- Whether labels may follow each other in one name. -/
def areDirected (labels : List (List Char)) : Bool :=
  !labels.any (·.any isReversing) || labels.all isDirected

end CachingResolver.DomainName
