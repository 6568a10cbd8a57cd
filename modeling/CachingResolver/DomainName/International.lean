import CachingResolver.DomainName
import CachingResolver.DomainName.Legible
import CachingResolver.Text.Punycode
import CachingResolver.Text.Unicode.Composition
import CachingResolver.Text.Unicode.Mapping
import CachingResolver.Text.Utf8

/-!
# International domain names

A label that starts with `xn--` writes a label with characters beyond ASCII in Punycode.  For a
reader such a label is shown with these characters, provided that it is valid; one that is not is
shown as any other label.
-/

namespace CachingResolver.DomainName

open CachingResolver.Text
open CachingResolver.Text.Unicode

/-- What marks a label that is written in Punycode. -/
def punycodeMark : List Char := ['x', 'n', '-', '-']

/-- The characters that a label in Punycode stands for.  They are valid when they are not all in
ASCII, when a name holds them as they are and in this spelling, and when the label is legible;
Punycode that inserts nothing is not valid. -/
def unicodeLabel? (punycode : List Char) : Option (List Char) := do
  if punycode.getLast? = some '-' then none
  let cs ← Punycode.decode? punycode
  if cs.any (128 ≤ ·.toNat) && cs.all isKept && compose cs == cs && isLegible cs then return cs
  else none

/-- A part of a label without dots as it is shown: `none` when it is not valid. -/
def displayPart? (cs : List Char) : Option (List Char) :=
  if punycodeMark.isPrefixOf cs then unicodeLabel? (cs.drop punycodeMark.length)
  else if isLegible cs then some cs
  else none

/-- What a text becomes in a domain name, in its composed spelling. -/
def mapped? (cs : List Char) : Option (List Char) :=
  (cs.mapM become?).map fun images => compose images.flatten

/-- The characters that a marked label is shown as: they are mapped first, and dots among them
separate parts. -/
def displayMarked? (label : List UInt8) : Option (List Char) := do
  let parts ← (splitAt '.' (← mapped? (Utf8.decodeLossy label))).mapM displayPart?
  if areDirected parts then return List.intercalate ['.'] parts else none

/-- A label as it is shown to a reader. -/
def displayLabel (label : List UInt8) : List Char :=
  if (punycodeMark.map fun c => UInt8.ofNat c.toNat).isPrefixOf label then
    (displayMarked? label).getD (labelChars label)
  else labelChars label

/-- A name as it is shown to a reader. -/
def display (n : DomainName) : String :=
  String.ofList (n.charsWith displayLabel)

end CachingResolver.DomainName
