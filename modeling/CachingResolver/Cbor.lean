import CachingResolver.Octets
import CachingResolver.Text.Utf8

/-!
# CBOR

Data items of the Concise Binary Object Representation.  `encode` writes an item with definite
lengths and the shortest heads.  `read` accepts every well-formed item, also one with indefinite
lengths, longer heads and any number of tags, as long as arrays and maps nest at most 256 deep, and
leaves the octets that follow it.  What a reader has no use for must be simple enough to be passed
over: `Item.canSkip` counts the tags as well.
-/

namespace CachingResolver.Cbor

open CachingResolver.Text

/-- A data item.  Strings that were cut in chunks are kept apart from whole ones. -/
inductive Item where
  | unsigned (n : Nat)
  -- The number `-1 - n`.
  | negative (n : Nat)
  | bytes (octets : List UInt8)
  | chunkedBytes (octets : List UInt8)
  | text (s : String)
  | chunkedText (s : String)
  | array (items : List Item)
  | map (pairs : List (Item × Item))
  | tagged (tag : Nat) (item : Item)
  -- A simple value: false, true, null or undefined.
  | simple (n : Nat)
  -- A floating-point number, as its octets.
  | float (octets : List UInt8)
  deriving Repr, Inhabited

/-- The argument of a head: a number, or the mark of an indefinite length. -/
inductive Argument where
  | value (n : Nat)
  | indefinite
  deriving DecidableEq, Repr

structure Head where
  -- The major type, 0 to 7.
  major : Nat
  -- The low five bits of the first octet.
  info : Nat
  argument : Argument
  deriving DecidableEq, Repr

/-- The number of octets that carry the argument after the first octet. -/
def argumentWidth? (info : Nat) : Option Nat :=
  if info < 24 then some 0
  else if info = 24 then some 1
  else if info = 25 then some 2
  else if info = 26 then some 4
  else if info = 27 then some 8
  else none

def readHead : List UInt8 → Option (Head × List UInt8)
  | [] => none
  | b :: rest =>
    let major := b.toNat / 32
    let info := b.toNat % 32
    if info = 31 then
      if major = 0 ∨ major = 1 ∨ major = 6 then none
      else some (⟨major, info, .indefinite⟩, rest)
    else do
      let width ← argumentWidth? info
      if width = 0 then some (⟨major, info, .value info⟩, rest)
      else
        let (n, rest) ← Octets.readNat width rest
        some (⟨major, info, .value n⟩, rest)

/-- Read the chunks of a string of one major type up to the break that ends it.  A chunk may itself
come in chunks; `openStrings` counts the strings that are still open.  Every text chunk is UTF-8 on
its own, so `check` judges each. -/
def readChunks (major : Nat) (check : List UInt8 → Bool) :
    (fuel : Nat) → (openStrings : Nat) → List UInt8 → Option (List UInt8 × List UInt8)
  | 0, _, _ => none
  | fuel + 1, openStrings, bs => do
    let (head, rest) ← readHead bs
    if head.major = 7 ∧ head.argument = .indefinite then
      if openStrings ≤ 1 then some ([], rest)
      else readChunks major check fuel (openStrings - 1) rest
    else if head.major = major then
      match head.argument with
      | .indefinite => readChunks major check fuel (openStrings + 1) rest
      | .value n =>
        let (chunk, rest) ← Octets.take? n rest
        if check chunk then
          let (chunks, rest) ← readChunks major check fuel openStrings rest
          some (chunk ++ chunks, rest)
        else none
    else none

def readMany {α : Type} (item : List UInt8 → Option (α × List UInt8)) :
    (n : Nat) → List UInt8 → Option (List α × List UInt8)
  | 0, bs => some ([], bs)
  | n + 1, bs => do
    let (x, bs) ← item bs
    let (xs, bs) ← readMany item n bs
    some (x :: xs, bs)

/-- Read items with `item` up to a break; every item takes at least one octet, so the number of
octets bounds the number of items. -/
def readUntilBreak {α : Type} (item : List UInt8 → Option (α × List UInt8)) :
    (fuel : Nat) → List UInt8 → Option (List α × List UInt8)
  | 0, _ => none
  | fuel + 1, bs =>
    match bs with
    | 0xff :: rest => some ([], rest)
    | _ => do
      let (x, bs) ← item bs
      let (xs, bs) ← readUntilBreak item fuel bs
      some (x :: xs, bs)

def readPair (item : List UInt8 → Option (Item × List UInt8)) (bs : List UInt8) :
    Option ((Item × Item) × List UInt8) := do
  let (key, bs) ← item bs
  let (value, bs) ← item bs
  some ((key, value), bs)

/-- Read items with `item`, as many as a head says. -/
def readCounted {α : Type} (item : List UInt8 → Option (α × List UInt8)) (argument : Argument)
    (bs : List UInt8) : Option (List α × List UInt8) :=
  match argument with
  | .value n => readMany item n bs
  | .indefinite => readUntilBreak item bs.length bs

/-- Read the rest of an item that is no array, map or tag. -/
def readScalar (head : Head) (bs : List UInt8) : Option (Item × List UInt8) :=
  match head.major, head.argument with
  | 0, .value n => some (.unsigned n, bs)
  | 1, .value n => some (.negative n, bs)
  | 2, .value n => (Octets.take? n bs).map fun (octets, rest) => (.bytes octets, rest)
  | 2, .indefinite =>
    (readChunks 2 (fun _ => true) bs.length 1 bs).map fun (octets, rest) =>
      (.chunkedBytes octets, rest)
  | 3, .value n => do
    let (octets, rest) ← Octets.take? n bs
    let s ← Utf8.decode? octets
    some (.text s, rest)
  | 3, .indefinite => do
    let (octets, rest) ← readChunks 3 (fun chunk => (Utf8.decode? chunk).isSome) bs.length 1 bs
    let s ← Utf8.decode? octets
    some (.chunkedText s, rest)
  | 7, .value n =>
    if head.info ≤ 24 then
      if 20 ≤ n ∧ n ≤ 23 then some (.simple n, bs) else none
    else
      let width := if head.info = 25 then 2 else if head.info = 26 then 4 else 8
      some (.float (Octets.ofNat width n), bs)
  | _, _ => none

/-- Read the tags before an item and the head that follows them.  `tags` are those that were read
before, the last first; there are fewer than `fuel` octets left. -/
def readTags : (fuel : Nat) → (tags : List Nat) → List UInt8 →
    Option (List Nat × Head × List UInt8)
  | 0, _, _ => none
  | fuel + 1, tags, bs =>
    match readHead bs with
    | none => none
    | some (head, rest) =>
      match head.major, head.argument with
      | 6, .value tag => readTags fuel (tag :: tags) rest
      | _, _ => some (tags, head, rest)

/-- Read the rest of an item whose parts are read with `part`. -/
def readBody (part : List UInt8 → Option (Item × List UInt8)) (head : Head) (bs : List UInt8) :
    Option (Item × List UInt8) :=
  if head.major = 4 then
    (readCounted part head.argument bs).map fun (items, rest) => (.array items, rest)
  else if head.major = 5 then
    (readCounted (readPair part) head.argument bs).map fun (pairs, rest) => (.map pairs, rest)
  else readScalar head bs

/-- Read an item in which arrays and maps nest at most `depth` deep, where fewer than `size` octets
are left. -/
def readNested (size : Nat) : (depth : Nat) → List UInt8 → Option (Item × List UInt8)
  | 0, bs => do
    let (tags, head, rest) ← readTags size [] bs
    let (item, rest) ← readScalar head rest
    some (tags.foldl (fun item tag => .tagged tag item) item, rest)
  | depth + 1, bs => do
    let (tags, head, rest) ← readTags size [] bs
    let (item, rest) ← readBody (readNested size depth) head rest
    some (tags.foldl (fun item tag => .tagged tag item) item, rest)

/-- The number of arrays and maps that may enclose an item. -/
def maxDepth : Nat := 256

def read (bs : List UInt8) : Option (Item × List UInt8) :=
  readNested (bs.length + 1) maxDepth bs

/-- The shortest head of a major type with a number as argument. -/
def encodeHead (major n : Nat) : List UInt8 :=
  let first (info : Nat) : UInt8 := UInt8.ofNat (major * 32 + info)
  if n < 24 then [first n]
  else if n < UInt8.size then first 24 :: Octets.ofNat 1 n
  else if n < UInt16.size then first 25 :: Octets.ofNat 2 n
  else if n < UInt32.size then first 26 :: Octets.ofNat 4 n
  else first 27 :: Octets.ofNat 8 n

def encodeText (s : String) : List UInt8 :=
  let octets := Utf8.encode s
  encodeHead 3 octets.length ++ octets

/-- The octets of an integer item. -/
def encodeInt (n : Int) : List UInt8 :=
  match n with
  | .ofNat n => encodeHead 0 n
  | .negSucc n => encodeHead 1 n

def encodeArray (items : List (List UInt8)) : List UInt8 :=
  encodeHead 4 items.length ++ items.flatten

/-- The octets of a map with text keys and encoded values. -/
def encodeMap (pairs : List (String × List UInt8)) : List UInt8 :=
  encodeHead 5 pairs.length ++ pairs.flatMap fun (key, value) => encodeText key ++ value

namespace Item

/-- An item without the tags around it. -/
def untagged : Item → Item
  | .tagged _ item => item.untagged
  | item => item

def asOctets? : Item → Option (List UInt8)
  | .bytes octets | .chunkedBytes octets => some octets
  | _ => none

/-- The number of a big number, which has at most sixteen significant octets. -/
def bigNumber? (item : Item) : Option Nat := do
  let octets ← item.asOctets?
  let significant := octets.dropWhile (· == 0)
  if significant.length ≤ 16 then some (Octets.toNat significant) else none

/-- The integer of an item; tags other than those of big numbers are ignored. -/
def asInt? : Item → Option Int
  | .unsigned n => some n
  | .negative n => some (-1 - n)
  | .tagged 2 item => item.bigNumber?.map Int.ofNat
  | .tagged 3 item => item.bigNumber?.map fun n => -1 - (n : Int)
  | .tagged _ item => item.asInt?
  | _ => none

def asText? (item : Item) : Option String :=
  match item.untagged with
  | .text s | .chunkedText s => some s
  | _ => none

/-- The items of an array; an empty byte string counts as an empty array. -/
def asArray? (item : Item) : Option (List Item) :=
  match item.untagged with
  | .array items => some items
  | .bytes [] | .chunkedBytes [] => some []
  | _ => none

def asMap? (item : Item) : Option (List (Item × Item)) :=
  match item.untagged with
  | .map pairs => some pairs
  | _ => none

def maxFieldName : Nat := 4096

/-- The octets of the name of a field: a whole text or byte string. -/
def asFieldName? (item : Item) : Option (List UInt8) := do
  let name ←
    match item.untagged with
    | .text s => some (Utf8.encode s)
    | .bytes octets => some octets
    | _ => none
  if name.length ≤ maxFieldName then some name else none

/-- The fields of a map under their names. -/
def asFields? (item : Item) : Option (List (List UInt8 × Item)) := do
  let pairs ← item.asMap?
  pairs.mapM fun (key, value) => (key.asFieldName?).map (·, value)

/-- The most octets of a whole byte string that is taken for a big number wherever it is tagged as
one. -/
def maxBigNumber : Nat := 16

/-- Whether an item can be passed over: arrays, maps and tags nest at most `depth` deep in it, and
no negative big number in it is below the signed numbers of 128 bits.  A big number counts as a
number, and not as a tag. -/
def canSkip : (depth : Nat) → Item → Bool
  | depth, .tagged tag (.bytes octets) =>
    if (tag = 2 ∨ tag = 3) ∧ octets.length ≤ maxBigNumber then
      tag = 2 || decide (Octets.toNat octets < 1 <<< 127)
    else decide (0 < depth)
  | 0, .array _ | 0, .map _ | 0, .tagged _ _ => false
  | depth + 1, .array items => items.all (canSkip depth)
  | depth + 1, .map pairs => pairs.all fun (key, value) => canSkip depth key && canSkip depth value
  | depth + 1, .tagged _ item => canSkip depth item
  | _, _ => true

/-- The fields of a map under their names.  Those that are not among the known ones must be simple
enough to be passed over, where `depth` arrays, maps and tags may still nest. -/
def asRecord? (known : List String) (depth : Nat) (item : Item) :
    Option (List (List UInt8 × Item)) := do
  let fields ← item.asFields?
  let names := known.map Utf8.encode
  if fields.all fun (name, value) => names.contains name || value.canSkip depth then some fields
  else none

end Item

/-- The one field of a given name; a field that is missing or given twice is an error. -/
def theField? (fields : List (List UInt8 × Item)) (name : String) : Option Item :=
  match fields.filter fun f => f.1 == Utf8.encode name with
  | [f] => some f.2
  | _ => none

end CachingResolver.Cbor
