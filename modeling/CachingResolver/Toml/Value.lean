/-!
# TOML values

The values of a TOML document, and how its statements build tables.  A table remembers how it came
to be, because that decides what a later statement may add to it: a table under a header of its own
takes no dotted keys from elsewhere, a table that only dotted keys made takes no header, and a table
written in braces is complete.
-/

namespace CachingResolver.Toml

/-- How a table came to be. -/
inductive Origin where
  | header
  -- By a header of a table below it.
  | implied
  | dotted
  | braces
  deriving DecidableEq, Repr, Inhabited

inductive Value where
  | text (s : String)
  | integer (n : Int)
  -- A number with a fraction or an exponent, as it is written.
  | decimal (written : String)
  | boolean (b : Bool)
  -- A date, a time or both, as it is written.
  | moment (written : String)
  -- An array; one that headers make is open to more elements.
  | array (isOpen : Bool) (elements : List Value)
  | table (origin : Origin) (entries : List (String × Value))
  deriving Repr, Inhabited

/-- The entries of a table, in order of first appearance. -/
abbrev Entries := List (String × Value)

namespace Entries

def find? (es : Entries) (key : String) : Option Value :=
  (List.find? (fun e => e.1 == key) es).map (·.2)

def set (es : Entries) (key : String) (v : Value) : Entries :=
  match es with
  | [] => [(key, v)]
  | e :: rest => if e.1 = key then (key, v) :: rest else e :: set rest key v

end Entries

/-- Change a table below a table, along a path of keys; `isDotted` tells whether the path is part of
a dotted key.  Tables that are missing on the way are made, and an open array stands for its last
element. -/
def descend (isDotted : Bool) (change : Origin → Entries → Option (Origin × Entries)) :
    (path : List String) → Origin → Entries → Option (Origin × Entries)
  | [], origin, es => change origin es
  | key :: path, origin, es =>
    match es.find? key with
    | none => do
      let made := if isDotted then Origin.dotted else Origin.implied
      let (made, below) ← descend isDotted change path made []
      return (origin, es.set key (.table made below))
    | some (.table o below) =>
      if o = .braces ∨ (isDotted ∧ o = .header) then none
      else do
        let (o, below) ← descend isDotted change path o below
        return (origin, es.set key (.table o below))
    | some (.array true elements) =>
      match elements.getLast? with
      | some (.table o below) => do
        let (o, below) ← descend isDotted change path o below
        return (origin, es.set key (.array true (elements.dropLast ++ [.table o below])))
      | _ => none
    | some _ => none

/-- Add a value under a key to the table that the dots before the key lead to.  That table must have
been made by dotted keys exactly when there are dots. -/
def addEntry (isDirect : Bool) (key : String) (v : Value) (origin : Origin) (es : Entries) :
    Option (Origin × Entries) :=
  if (origin == .dotted) == isDirect then none
  else if (es.find? key).isSome then none
  else some (origin, es.set key v)

def addDotted (path : List String) (key : String) (v : Value) :
    Origin → Entries → Option (Origin × Entries) :=
  descend true (addEntry path.isEmpty key v) path

def openTable (key : String) (origin : Origin) (es : Entries) : Option (Origin × Entries) :=
  match es.find? key with
  | none => some (origin, es.set key (.table .header []))
  | some (.table .implied below) => some (origin, es.set key (.table .header below))
  | some _ => none

/-- Open a new last element of the array of a header. -/
def openElement (key : String) (origin : Origin) (es : Entries) : Option (Origin × Entries) :=
  match es.find? key with
  | none => some (origin, es.set key (.array true [.table .header []]))
  | some (.array true elements) =>
    some (origin, es.set key (.array true (elements ++ [.table .header []])))
  | some _ => none

end CachingResolver.Toml
