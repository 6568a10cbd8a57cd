import CachingResolver.Toml.Text
import CachingResolver.Toml.Value

/-!
# TOML numbers, truth values and dates

Values that are written without quotes or brackets.
-/

namespace CachingResolver.Toml

open CachingResolver.Text (hexDigit? ofDigits)

/-- The digits of a number between which single underscores may stand. -/
def digits? (digit : Char → Option Nat) : List Char → Option (List Nat)
  | [] => none
  | [c] => (digit c).map fun d => [d]
  | c :: '_' :: cs => do return (← digit c) :: (← digits? digit cs)
  | c :: cs => do return (← digit c) :: (← digits? digit cs)

/-- A digit of a base of at most ten. -/
def digitBelow? (base : Nat) (c : Char) : Option Nat :=
  (Text.digit? c).filter (· < base)

/-- A natural number in decimal without leading zeros. -/
def natural? (cs : List Char) : Option Nat := do
  let ds ← digits? (digitBelow? 10) cs
  match ds with
  | 0 :: _ :: _ => none
  | _ => return ofDigits 10 ds

/-- An integer: in decimal with or without a sign, or in another base without one. -/
def integer? : List Char → Option Int
  | '0' :: 'x' :: cs => (digits? hexDigit? cs).map fun ds => Int.ofNat (ofDigits 16 ds)
  | '0' :: 'o' :: cs => (digits? (digitBelow? 8) cs).map fun ds => Int.ofNat (ofDigits 8 ds)
  | '0' :: 'b' :: cs => (digits? (digitBelow? 2) cs).map fun ds => Int.ofNat (ofDigits 2 ds)
  | '+' :: cs => (natural? cs).map Int.ofNat
  | '-' :: cs => (natural? cs).map fun n => -Int.ofNat n
  | cs => (natural? cs).map Int.ofNat

/-- Whether an integer is one that a document may hold: 128 bits, with a sign or without. -/
def isRepresentable (n : Int) : Bool :=
  -Int.ofNat (1 <<< 127) ≤ n && n < Int.ofNat (1 <<< 128)

def dropSign : List Char → List Char
  | '+' :: cs => cs
  | '-' :: cs => cs
  | cs => cs

/-- Whether digits follow, with single underscores between them. -/
def areDigits (cs : List Char) : Bool :=
  (digits? (digitBelow? 10) cs).isSome

/-- The decimal digits of a number without the underscores between them. -/
def decimalDigits (cs : List Char) : List Nat :=
  cs.filterMap Text.digit?

/-- The integer that a sign and decimal digits write; none are zero. -/
def signedDigits (cs : List Char) : Int :=
  let n := ofDigits 10 (decimalDigits cs)
  if cs.head? = some '-' then -Int.ofNat n else Int.ofNat n

/-- From here on a number rounds to infinity as a floating-point number of 64 bits: the middle
between the largest finite one and the next power of two. -/
def overflow : Nat := (1 <<< 1024) - (1 <<< 970)

/-- The number of digits of the whole part of `overflow`. -/
def overflowDigits : Nat := 309

/-- Whether a number stays finite: its digits, the first of which may be zeros, count units of a
power of ten. -/
def isFinite (ds : List Nat) (exponent : Int) : Bool :=
  let ds := ds.dropWhile (· == 0)
  let size := ds.length + exponent
  if ds.isEmpty || size < overflowDigits then true
  else if overflowDigits < size then false
  else ofDigits 10 ds * Nat.pow 10 overflowDigits < overflow * Nat.pow 10 ds.length

/-- Whether characters write a number with a fraction, an exponent or both that does not round to
infinity, or one that is no number or infinity itself. -/
def isDecimal (cs : List Char) : Bool :=
  let cs := dropSign cs
  if cs = ['i', 'n', 'f'] ∨ cs = ['n', 'a', 'n'] then true
  else
    let mantissa := cs.takeWhile fun c => c != 'e' && c != 'E'
    let exponent := cs.dropWhile fun c => c != 'e' && c != 'E'
    let whole := mantissa.takeWhile (· != '.')
    let fraction := mantissa.dropWhile (· != '.')
    (natural? whole).isSome && (fraction.isEmpty || areDigits (fraction.drop 1)) &&
      (exponent.isEmpty || areDigits (dropSign (exponent.drop 1))) &&
      !(fraction.isEmpty && exponent.isEmpty) &&
      isFinite (decimalDigits mantissa)
        (signedDigits (exponent.drop 1) - (decimalDigits fraction).length)

def twoDigits? (a b : Char) : Option Nat := do
  return 10 * (← Text.digit? a) + (← Text.digit? b)

def daysOf (year month : Nat) : Nat :=
  let isLeap := year % 4 = 0 ∧ (year % 100 ≠ 0 ∨ year % 400 = 0)
  if month = 2 then (if isLeap then 29 else 28)
  else if month = 4 ∨ month = 6 ∨ month = 9 ∨ month = 11 then 30
  else 31

def readDate? : List Char → Option (List Char)
  | a :: b :: c :: d :: '-' :: e :: f :: '-' :: g :: h :: rest => do
    let year := 100 * (← twoDigits? a b) + (← twoDigits? c d)
    let month ← twoDigits? e f
    let day ← twoDigits? g h
    if 1 ≤ month ∧ month ≤ 12 ∧ 1 ≤ day ∧ day ≤ daysOf year month then return rest else none
  | _ => none

def readFraction? : List Char → Option (List Char)
  | '.' :: rest =>
    if (rest.takeWhile Char.isDigit).isEmpty then none else some (rest.dropWhile Char.isDigit)
  | rest => some rest

/-- Read a time, if one is written.  It may leave out the seconds. -/
def readTime? : List Char → Option (List Char)
  | a :: b :: ':' :: c :: d :: rest => do
    let hour ← twoDigits? a b
    let minute ← twoDigits? c d
    if hour ≤ 23 ∧ minute ≤ 59 then
      match rest with
      | ':' :: e :: f :: rest =>
        let second ← twoDigits? e f
        if second ≤ 60 then readFraction? rest else none
      | rest => return rest
    else none
  | _ => none

/-- Whether characters write the distance of a time zone. -/
def isZone : List Char → Bool
  | ['Z'] => true
  | ['z'] => true
  | [sign, a, b, ':', c, d] =>
    (sign == '+' || sign == '-') && (twoDigits? a b).any (· ≤ 23) && (twoDigits? c d).any (· ≤ 59)
  | _ => false

/-- Whether characters write a date, a time or both. -/
def isMoment (cs : List Char) : Bool :=
  match readDate? cs with
  | some [] => true
  | some (c :: rest) =>
    (c == 'T' || c == 't' || c == ' ') &&
      (readTime? rest).any fun zone => zone.isEmpty || isZone zone
  | none => readTime? cs == some []

/-- The value that characters without quotes or brackets write. -/
def scalar? (cs : List Char) : Option Value :=
  if cs = "true".toList then some (.boolean true)
  else if cs = "false".toList then some (.boolean false)
  else
    match integer? cs with
    | some n => if isRepresentable n then some (.integer n) else none
    | none =>
      if isDecimal cs then some (.decimal (String.ofList cs))
      else if isMoment cs then some (.moment (String.ofList cs))
      else none

/-- Whether a character may belong to such a value. -/
def isScalarChar (c : Char) : Bool :=
  c.isAlphanum || c == '_' || c == '-' || c == '+' || c == '.' || c == ':'

/-- Read such a value.  A blank between a date and a time belongs to it. -/
def readScalar? (cs : List Char) : Option (Value × List Char) :=
  let word := cs.takeWhile isScalarChar
  match (readDate? word), cs.dropWhile isScalarChar with
  | some [], ' ' :: c :: rest =>
    if c.isDigit then
      let time := (c :: rest).takeWhile isScalarChar
      (scalar? (word ++ ' ' :: time)).map fun v => (v, (c :: rest).dropWhile isScalarChar)
    else (scalar? word).map fun v => (v, ' ' :: c :: rest)
  | _, rest => (scalar? word).map fun v => (v, rest)

end CachingResolver.Toml
