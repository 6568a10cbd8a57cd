import CachingResolver.Text.Blank

/-!
# Domain names as text

Inside the resolver a domain name is a text in canonical form: in lower case, with a final dot, so
that the root is `.` alone.  `canonical` brings any text into that form, `ancestors` lists a name
with the names above it up to the root, and `isSubdomain` compares a name with a zone by a suffix
test that respects label boundaries.
-/

namespace CachingResolver.Name

open CachingResolver.Text

/-- The characters of the canonical form: blanks trimmed, trailing dots replaced by one, ASCII
letters in lower case. -/
def canonicalChars (cs : List Char) : List Char :=
  (dropTrailing (· == '.') (trim cs)).map Char.toLower ++ ['.']

/-- The canonical form of a name. -/
def canonical (name : String) : String :=
  String.ofList (canonicalChars name.toList)

/-- The characters of the name one label above: what follows the first dot, or the root. -/
def parentChars? (cs : List Char) : Option (List Char) :=
  if cs = [] ∨ cs = ['.'] then none
  else
    match (cs.dropWhile (· != '.')).drop 1 with
    | [] => some ['.']
    | rest => some rest

/-- The name one label above; the root and the empty text have none. -/
def parent? (name : String) : Option String :=
  (parentChars? name.toList).map String.ofList

/-- The names strictly above a name that is neither empty nor the root, from the bottom up. -/
def aboveChars : List Char → List (List Char)
  | [] => [['.']]
  | c :: cs =>
    if c = '.' then
      if cs = [] ∨ cs = ['.'] then [['.']] else cs :: aboveChars cs
    else aboveChars cs

/-- The characters of a name and of the names above it, from the bottom up. -/
def ancestorChars (cs : List Char) : List (List Char) :=
  if cs = [] ∨ cs = ['.'] then [cs] else cs :: aboveChars cs

/-- A name and the names above it, from the bottom up to the root. -/
def ancestors (name : String) : List String :=
  (ancestorChars name.toList).map String.ofList

/-- Whether the characters of a name end in those of a zone at a label boundary. -/
def isSubdomainChars (child zone : List Char) : Bool :=
  zone == ['.'] || child == zone || ('.' :: zone).isSuffixOf child

/-- Whether `child` lies at or below `zone`. -/
def isSubdomain (child zone : String) : Bool :=
  isSubdomainChars child.toList zone.toList

def root : String := "."

end CachingResolver.Name
