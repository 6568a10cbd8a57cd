import CachingResolver.ResourceRecord

/-!
# Cache keys

A cached record set is filed under one text, the canonical owner and the mnemonic of the type with
a slash between them.  The last slash separates the two, so an owner may contain slashes.
-/

namespace CachingResolver.Cache

open CachingResolver.Text

/-- The key of an owner and a type. -/
def makeKey (name : String) (type : RecordType) : String :=
  Name.canonical name ++ "/" ++ type.mnemonic

/-- Owner and type of a key; `none` when the part after the last slash is no mnemonic. -/
def splitKey? (key : String) : Option (String × RecordType) := do
  let (typeReversed, nameReversed) ← splitOnce '/' key.toList.reverse
  let type ← RecordType.ofText? (String.ofList typeReversed.reverse)
  return (String.ofList nameReversed.reverse, type)

end CachingResolver.Cache
