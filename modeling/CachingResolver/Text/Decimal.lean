/-!
# Decimal numbers in text

Readers for decimal numbers.  A natural number is one digit or more; a plus sign may stand before
a number and a minus sign before a signed one.  Leading zeros are allowed, blanks are not.
-/

namespace CachingResolver.Text

def digit? (c : Char) : Option Nat :=
  if '0' ≤ c ∧ c ≤ '9' then some (c.toNat - '0'.toNat) else none

/-- The number written by `cs` after the digits that make up `acc`. -/
def naturalFrom (acc : Nat) : List Char → Option Nat
  | [] => some acc
  | c :: cs =>
    match digit? c with
    | some d => naturalFrom (10 * acc + d) cs
    | none => none

/-- A natural number: digits only, at least one. -/
def natural? : List Char → Option Nat
  | [] => none
  | cs => naturalFrom 0 cs

/-- A natural number that a plus sign may precede. -/
def unsigned? : List Char → Option Nat
  | '+' :: cs => natural? cs
  | cs => natural? cs

/-- An integer that a plus or a minus sign may precede. -/
def integer? : List Char → Option Int
  | '-' :: cs => (natural? cs).map fun n => -(n : Int)
  | cs => (unsigned? cs).map Int.ofNat

/-- An unsigned number below `2 ^ 16`. -/
def word16? (cs : List Char) : Option UInt16 :=
  (unsigned? cs).bind fun n => if n < UInt16.size then some (UInt16.ofNat n) else none

/-- An integer that fits in 64 bits with a sign. -/
def signed64? (cs : List Char) : Option Int :=
  (integer? cs).bind fun n =>
    if Int64.minValue.toInt ≤ n ∧ n ≤ Int64.maxValue.toInt then some n else none

def decimal (n : Nat) : String :=
  String.ofList (Nat.toDigits 10 n)

/-- An integer in decimal, with a minus sign when it is negative. -/
def signedDecimal (n : Int) : String :=
  if n < 0 then "-" ++ decimal n.natAbs else decimal n.natAbs

end CachingResolver.Text
