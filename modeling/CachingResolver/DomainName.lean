import CachingResolver.Text.Blank

/-!
# Domain names as labels

A domain name as it travels in a message: a sequence of labels, each a string of octets, that is
either complete up to the root or not.  `text` writes a name with its special octets escaped and
`ofText?` reads what a user may write.
-/

namespace CachingResolver

open CachingResolver.Text

/-- The octets that labels take in a message: each with its length, and a final zero. -/
def labelsSize (labels : List (List UInt8)) : Nat :=
  labels.foldr (fun label size => label.length + 1 + size) 1

/-- The most octets of a label. -/
def maxLabelSize : Nat := 63

/-- The most octets that a name may take in a message. -/
def maxNameSize : Nat := 255

/-- Labels may form a name when each has one to 63 octets and together they take at most 255. -/
def AreLabels (labels : List (List UInt8)) : Prop :=
  (∀ label ∈ labels, label ≠ [] ∧ label.length ≤ maxLabelSize) ∧ labelsSize labels ≤ maxNameSize

instance (labels : List (List UInt8)) : Decidable (AreLabels labels) :=
  inferInstanceAs (Decidable (_ ∧ _))

/-- A domain name as labels, the lowest first. -/
structure DomainName where
  labels : List (List UInt8)
  -- Whether the name is complete up to the root.
  isComplete : Bool
  areLabels : AreLabels labels
  deriving DecidableEq, Repr

namespace DomainName

def root : DomainName where
  labels := []
  isComplete := true
  areLabels := ⟨by simp, by decide⟩

instance : Inhabited DomainName := ⟨root⟩

/-- The name of given labels, if they may form one. -/
def ofLabels? (isComplete : Bool) (labels : List (List UInt8)) : Option DomainName :=
  if h : AreLabels labels then some ⟨labels, isComplete, h⟩ else none

/-- Whether an octet is an ASCII letter or digit. -/
def isAlphanumeric (b : UInt8) : Bool :=
  (0x30 ≤ b && b ≤ 0x39) || (0x41 ≤ b && b ≤ 0x5a) || (0x61 ≤ b && b ≤ 0x7a)

/-- Whether an octet is written as it is: letters, digits, underscores, a hyphen that is not first
and an asterisk that is first. -/
def isPlain (isFirst : Bool) (b : UInt8) : Bool :=
  isAlphanumeric b || b == 0x5f || (b == 0x2d && !isFirst) || (b == 0x2a && isFirst)

def octalDigits (b : UInt8) : List Char :=
  let digit (n : Nat) : Char := Char.ofNat ('0'.toNat + n % 8)
  [digit (b.toNat / 64), digit (b.toNat / 8), digit b.toNat]

/-- An octet of a label as text: plain ones as they are, other visible ones after a backslash, and
all else as a backslash and three octal digits. -/
def octetChars (isFirst : Bool) (b : UInt8) : List Char :=
  if isPlain isFirst b then [Char.ofNat b.toNat]
  else if 0x20 < b && b < 0x7f then ['\\', Char.ofNat b.toNat]
  else '\\' :: octalDigits b

def labelChars : List UInt8 → List Char
  | [] => []
  | b :: bs => octetChars true b ++ bs.flatMap (octetChars false)

/-- Label texts joined by dots; a complete name ends in one. -/
def joinLabels (isComplete : Bool) : List (List Char) → List Char
  | [] => if isComplete then ['.'] else []
  | [label] => if isComplete then label ++ ['.'] else label
  | label :: rest => label ++ '.' :: joinLabels isComplete rest

/-- The characters of a name, where `render` writes a label. -/
def charsWith (render : List UInt8 → List Char) (n : DomainName) : List Char :=
  joinLabels n.isComplete (n.labels.map render)

def text (n : DomainName) : String :=
  String.ofList (n.charsWith labelChars)

/-- What a user writes: characters of labels, and the dots between them. -/
inductive Token where
  | char (c : Char)
  | dot
  deriving DecidableEq, Repr

def octalDigit? (c : Char) : Option Nat :=
  if '0' ≤ c ∧ c ≤ '7' then some (c.toNat - '0'.toNat) else none

/-- Resolve the escapes of a text.  A backslash stands before three octal digits or before a
character that is no digit; an escape that the end of the text cuts off is ignored.  Blanks, control
characters and characters beyond ASCII cannot occur in a name. -/
def tokens? : List Char → Option (List Token)
  | [] => some []
  | '.' :: cs => (tokens? cs).map (.dot :: ·)
  | '\\' :: cs =>
    match cs with
    | [] => some []
    | c :: cs =>
      if 128 ≤ c.toNat then none
      else if c.isDigit then
        match octalDigit? c, cs with
        | none, _ => none
        | some _, [] => some []
        | some _, [d] => if (octalDigit? d).isSome then some [] else none
        | some i, d :: e :: cs =>
          match octalDigit? d, octalDigit? e with
          | some j, some k =>
            let n := 64 * i + 8 * j + k
            if n < 128 then (tokens? cs).map (.char (Char.ofNat n) :: ·) else none
          | _, _ => none
      else (tokens? cs).map (.char c :: ·)
  | c :: cs =>
    if 128 ≤ c.toNat ∨ c.toNat ≤ 32 ∨ c.toNat = 127 then none
    else (tokens? cs).map (.char c :: ·)

/-- Whether a character may stand in a label that a user writes. -/
def isLabelChar (isFirst : Bool) (c : Char) : Bool :=
  c.isAlphanum || c == '_' || c == '.' || (c == '-' && !isFirst) || (c == '*' && isFirst)

/-- The octets of a label, if all its characters may stand in one. -/
def label? : List Char → Option (List UInt8)
  | [] => none
  | c :: cs =>
    if isLabelChar true c ∧ cs.all (isLabelChar false) then
      some ((c :: cs).map fun c => UInt8.ofNat c.toNat)
    else none

/-- The characters of the labels and of what follows the last dot. -/
def splitTokens : List Token → List (List Char) × List Char
  | [] => ([], [])
  | .dot :: ts =>
    let (labels, rest) := splitTokens ts
    ([] :: labels, rest)
  | .char c :: ts =>
    match splitTokens ts with
    | ([], rest) => ([], c :: rest)
    | (label :: labels, rest) => ((c :: label) :: labels, rest)

/-- The name that the characters of a text write.  It is complete when something is written and,
with the escapes resolved, nothing follows the last dot: an escaped dot belongs to its label, and an
escape that the end cuts off leaves nothing behind. -/
def ofChars? (cs : List Char) : Option DomainName :=
  if cs = ['.'] then some root
  else do
    let (labels, rest) := splitTokens (← tokens? cs)
    let written := if rest.isEmpty then labels else labels ++ [rest]
    ofLabels? (rest.isEmpty && !cs.isEmpty) (← written.mapM label?)

def ofText? (text : String) : Option DomainName :=
  ofChars? text.toList

end DomainName

end CachingResolver
