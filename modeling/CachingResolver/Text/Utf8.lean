/-!
# UTF-8

Two readers of UTF-8: `decode?` accepts exactly well-formed octets, and `decodeLossy` accepts any
octets, writing U+FFFD for every maximal part that cannot belong to a well-formed sequence.
-/

namespace CachingResolver.Text.Utf8

def encode (s : String) : List UInt8 :=
  s.toByteArray.data.toList

/-- The text that well-formed octets write; `none` for all others. -/
def decode? (octets : List UInt8) : Option String :=
  String.fromUTF8? ⟨octets.toArray⟩

/-- A continuation octet `10xxxxxx`. -/
def isContinuation (b : UInt8) : Bool :=
  0x80 ≤ b && b ≤ 0xbf

/-- Whether `b` may be the second octet of a sequence of three that starts with `lead`. -/
def isSecondOfThree (lead b : UInt8) : Bool :=
  if lead == 0xe0 then 0xa0 ≤ b && b ≤ 0xbf
  else if lead == 0xed then 0x80 ≤ b && b ≤ 0x9f
  else isContinuation b

/-- Whether `b` may be the second octet of a sequence of four that starts with `lead`. -/
def isSecondOfFour (lead b : UInt8) : Bool :=
  if lead == 0xf0 then 0x90 ≤ b && b ≤ 0xbf
  else if lead == 0xf4 then 0x80 ≤ b && b ≤ 0x8f
  else isContinuation b

/-- The low bits that a continuation octet carries. -/
def payload (b : UInt8) : Nat :=
  b.toNat % 64

/-- What stands for octets that write no character. -/
def replacement : Char := '\ufffd'

/-- Read any octets: each maximal ill-formed part becomes one U+FFFD. -/
def decodeLossy : List UInt8 → List Char
  | [] => []
  | a :: rest =>
    if a ≤ 0x7f then Char.ofNat a.toNat :: decodeLossy rest
    else if 0xc2 ≤ a && a ≤ 0xdf then
      match rest with
      | b :: rest' =>
        if isContinuation b then
          Char.ofNat (a.toNat % 32 * 64 + payload b) :: decodeLossy rest'
        else replacement :: decodeLossy (b :: rest')
      | [] => [replacement]
    else if 0xe0 ≤ a && a ≤ 0xef then
      match rest with
      | b :: c :: rest' =>
        if isSecondOfThree a b then
          if isContinuation c then
            Char.ofNat (a.toNat % 16 * 4096 + payload b * 64 + payload c) :: decodeLossy rest'
          else replacement :: decodeLossy (c :: rest')
        else replacement :: decodeLossy (b :: c :: rest')
      | [b] => if isSecondOfThree a b then [replacement] else replacement :: decodeLossy [b]
      | [] => [replacement]
    else if 0xf0 ≤ a && a ≤ 0xf4 then
      match rest with
      | b :: c :: d :: rest' =>
        if isSecondOfFour a b then
          if isContinuation c then
            if isContinuation d then
              Char.ofNat (a.toNat % 8 * 262144 + payload b * 4096 + payload c * 64 + payload d) ::
                decodeLossy rest'
            else replacement :: decodeLossy (d :: rest')
          else replacement :: decodeLossy (c :: d :: rest')
        else replacement :: decodeLossy (b :: c :: d :: rest')
      | [b, c] =>
        if isSecondOfFour a b then
          if isContinuation c then [replacement] else replacement :: decodeLossy [c]
        else replacement :: decodeLossy [b, c]
      | [b] => if isSecondOfFour a b then [replacement] else replacement :: decodeLossy [b]
      | [] => [replacement]
    else replacement :: decodeLossy rest
termination_by octets => octets.length

end CachingResolver.Text.Utf8
