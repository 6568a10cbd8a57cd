import CachingResolver.Text.Decimal

/-!
# Rounding of quotients

A percentage is computed in binary floating point with 53 significant bits and printed with one
decimal place.  Every rounding goes to the nearest value and a tie goes to the even one, here in
exact arithmetic on natural numbers.
-/

namespace CachingResolver.Rounding

/-- The natural number nearest to `num / den`; of two equally near the even one. -/
def divide (num den : Nat) : Nat :=
  let q := num / den
  let r := num % den
  if 2 * r < den then q
  else if den < 2 * r then q + 1
  else if q % 2 = 0 then q
  else q + 1

/-- A number `mantissa * 2 ^ scale / 2 ^ shift`, where one of the two exponents is zero. -/
structure Dyadic where
  mantissa : Nat
  -- The power of two to multiply by.
  scale : Nat := 0
  -- The power of two to divide by.
  shift : Nat := 0
  deriving DecidableEq, Repr

namespace Dyadic

/-- The number as a quotient: what is divided. -/
def num (x : Dyadic) : Nat :=
  x.mantissa <<< x.scale

/-- The number as a quotient: the divisor. -/
def den (x : Dyadic) : Nat :=
  1 <<< x.shift

/-- The dyadic number of 53 significant bits nearest to `num / den`. -/
def nearest (num den : Nat) : Dyadic :=
  if num = 0 ∨ den = 0 then { mantissa := 0 }
  else
    let lead := num.log2
    let base := den.log2 + 52
    -- the quotient lies between `2 ^ (lead - den.log2 - 1)` and `2 ^ (lead - den.log2 + 1)`
    if lead ≤ base then
      let up := base - lead
      if den <<< 52 ≤ num <<< up then { mantissa := divide (num <<< up) den, shift := up }
      else { mantissa := divide (num <<< (up + 1)) den, shift := up + 1 }
    else
      let down := lead - base
      if den <<< (down + 52) ≤ num then { mantissa := divide num (den <<< down), scale := down }
      else { mantissa := divide num (den <<< (down - 1)), scale := down - 1 }

/-- The product with a natural number, rounded. -/
def times (x : Dyadic) (n : Nat) : Dyadic :=
  nearest (x.num * n) x.den

/-- The number in decimal with one place. -/
def onePlace (x : Dyadic) : String :=
  let tenths := divide (x.num * 10) x.den
  Text.decimal (tenths / 10) ++ "." ++ Text.decimal (tenths % 10)

end Dyadic

/-- `part` as a percentage of `whole` with one place; nothing of nothing is zero. -/
def percentage (part whole : Nat) : String :=
  ((Dyadic.nearest part whole).times 100).onePlace

end CachingResolver.Rounding
