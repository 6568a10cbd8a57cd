import CachingResolver.Text.Decimal

/-!
# Hexadecimal numbers in text

Digits of base sixteen, which are written in either case, the numbers that digits of any base write,
and characters by their numbers.
-/

namespace CachingResolver.Text

/-- The value of a hexadecimal digit of either case. -/
def hexDigit? (c : Char) : Option Nat :=
  if 'a' ≤ c ∧ c ≤ 'f' then some (c.toNat - 'a'.toNat + 10)
  else if 'A' ≤ c ∧ c ≤ 'F' then some (c.toNat - 'A'.toNat + 10)
  else digit? c

/-- The number that digits write in a base. -/
def ofDigits (base : Nat) (ds : List Nat) : Nat :=
  ds.foldl (fun n d => base * n + d) 0

/-- The number of some hexadecimal digits; `none` when another character is among them. -/
def hexadecimal? (cs : List Char) : Option Nat :=
  (cs.mapM hexDigit?).map (ofDigits 16)

/-- The character with a number, unless the number is that of a surrogate or too large. -/
def char? (n : Nat) : Option Char :=
  if n.isValidChar then some (Char.ofNat n) else none

def codePoint? (digits : List Char) : Option Char :=
  (hexadecimal? digits).bind char?

end CachingResolver.Text
