import CachingResolver.Text.Hexadecimal

/-!
# Punycode

Reading of Punycode: a text in ASCII that writes a text with other characters.  The ASCII characters
stand first, in order, with a hyphen after them when there are any; the digits that follow
say which other characters to insert and where.  Digits are letters, which stand for 0 to 25, and
then the decimal digits.
-/

namespace CachingResolver.Text.Punycode

def digit? (c : Char) : Option Nat :=
  if 'a' ≤ c ∧ c ≤ 'z' then some (c.toNat - 'a'.toNat)
  else if 'A' ≤ c ∧ c ≤ 'Z' then some (c.toNat - 'A'.toNat)
  else if '0' ≤ c ∧ c ≤ '9' then some (c.toNat - '0'.toNat + 26)
  else none

/-- Bring a scaled step below 456 and count how often it took a division, in units of 36. -/
def settle (k delta : Nat) : Nat × Nat :=
  if 455 < delta then settle (k + 36) (delta / 35) else (k, delta)
termination_by delta

/-- The bias after a step of `delta` that made a text of `size` characters. -/
def adapt (delta size : Nat) (isFirst : Bool) : Nat :=
  let scaled := if isFirst then delta / 700 else delta / 2
  let (k, rest) := settle 0 (scaled + scaled / size)
  k + 36 * rest / (rest + 38)

/-- How far a text has been read: the characters so far, the code point and the place reached, and
the number that is being read digit by digit. -/
structure State where
  output : List Char
  codePoint : Nat := 128
  -- The place at which the next character goes.
  place : Nat := 0
  -- The bias of the digits' thresholds.
  bias : Nat := 72
  -- Whether no character has been inserted yet.
  isFirst : Bool := true
  value : Nat := 0
  -- The weight of the number's next digit.
  weight : Nat := 1
  digits : Nat := 0

/-- The threshold below which the next digit ends its number. -/
def State.threshold (s : State) : Nat :=
  min 26 (max 1 (36 * (s.digits + 1) - s.bias))

/-- Insert the character that a finished number tells. -/
def State.insert? (s : State) : Option State := do
  let size := s.output.length + 1
  let target := s.place + s.value
  let codePoint := s.codePoint + target / size
  let place := target % size
  let c ← char? codePoint
  return {
    output := s.output.take place ++ c :: s.output.drop place
    codePoint
    place := place + 1
    bias := adapt s.value size s.isFirst
    isFirst := false }

def State.step? (s : State) (c : Char) : Option State := do
  let d ← digit? c
  let value := s.value + d * s.weight
  if d < s.threshold then State.insert? { s with value }
  else
    return { s with value, weight := s.weight * (36 - s.threshold), digits := s.digits + 1 }

/-- Split at the last hyphen that has something before it; without one, all is digits. -/
def splitBasic (cs : List Char) : List Char × List Char :=
  let digits := (cs.reverse.takeWhile (· != '-')).reverse
  let basic := cs.take (cs.length - digits.length - 1)
  if digits.length < cs.length ∧ basic ≠ [] then (basic, digits) else ([], cs)

def decode? (cs : List Char) : Option (List Char) := do
  let (basic, digits) := splitBasic cs
  let s ← digits.foldlM State.step? { output := basic }
  if s.digits = 0 then return s.output else none

end CachingResolver.Text.Punycode
