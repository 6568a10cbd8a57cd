import CachingResolver.Toml.Scalar

/-!
# TOML documents

A document is a sequence of lines: headers, which say which table the following lines fill, and keys
with values.  `parse` gives the table of the whole document, or nothing when it is malformed or
defines something twice.
-/

namespace CachingResolver.Toml

/-- The deepest nesting of brackets and braces in a value. -/
def maxDepth : Nat := 80

def skipComment : List Char → List Char
  | '#' :: cs => cs.dropWhile isPrintable
  | cs => cs

/-- Drop blanks, comments and ends of lines. -/
def skipBlank : (fuel : Nat) → List Char → List Char
  | 0, cs => cs
  | fuel + 1, cs =>
    let rest := skipComment (skipSpace cs)
    match newline? rest with
    | some rest => skipBlank fuel rest
    | none => rest

/-- Drop blanks, comments and ends of lines. -/
def skipLines (cs : List Char) : List Char :=
  skipBlank (cs.length + 1) cs

mutual

/-- Read a value; `depth` tells how many more brackets and braces may be opened. -/
def readValue (depth : Nat) : (fuel : Nat) → List Char → Option (Value × List Char)
  | 0, _ => none
  | fuel + 1, cs =>
    match cs with
    | '[' :: cs =>
      match depth with
      | 0 => none
      | depth + 1 =>
        (readElements depth fuel (skipLines cs)).map fun (vs, rest) => (.array false vs, rest)
    | '{' :: cs =>
      match depth with
      | 0 => none
      | depth + 1 =>
        (readEntries depth fuel [] (skipLines cs)).map fun (es, rest) => (.table .braces es, rest)
    | '"' :: _ => (readText? cs).map fun (s, rest) => (.text s, rest)
    | '\'' :: _ => (readText? cs).map fun (s, rest) => (.text s, rest)
    | _ => readScalar? cs

/-- Read the elements of an array and the bracket that ends it. -/
def readElements (depth : Nat) : (fuel : Nat) → List Char → Option (List Value × List Char)
  | 0, _ => none
  | fuel + 1, cs =>
    match cs with
    | ']' :: rest => some ([], rest)
    | cs => do
      let (v, rest) ← readValue depth fuel cs
      match skipLines rest with
      | ']' :: rest => return ([v], rest)
      | ',' :: rest =>
        let (vs, rest) ← readElements depth fuel (skipLines rest)
        return (v :: vs, rest)
      | _ => none

/-- Read the entries of a table in braces, after those that were read, and the brace that ends
it. -/
def readEntries (depth : Nat) : (fuel : Nat) → Entries → List Char → Option (Entries × List Char)
  | 0, _, _ => none
  | fuel + 1, es, cs =>
    match cs with
    | '}' :: rest => some (es, rest)
    | cs => do
      let (path, key, rest) ← readPath cs
      match skipLines rest with
      | '=' :: rest =>
        let (v, rest) ← readValue depth fuel (skipLines rest)
        let (_, es) ← addDotted path key v .braces es
        match skipLines rest with
        | '}' :: rest => return (es, rest)
        | ',' :: rest => readEntries depth fuel es (skipLines rest)
        | _ => none
      | _ => none

end

/-- The document so far: the whole table, and the header that is in force. -/
structure Progress where
  entries : Entries := []
  header : List String := []

/-- Change a table below the whole one. -/
def Progress.change (p : Progress) (path : List String)
    (f : Origin → Entries → Option (Origin × Entries)) : Option Progress :=
  (descend false f path .header p.entries).map fun (_, entries) => { p with entries }

/-- Read a header, a key with its value, or nothing, from the start of a line. -/
def readStatement (p : Progress) (cs : List Char) : Option (Progress × List Char) :=
  match cs with
  | '[' :: '[' :: cs => do
    let (path, key, rest) ← readPath cs
    match rest with
    | ']' :: ']' :: rest =>
      let p ← p.change path (openElement key)
      return ({ p with header := path ++ [key] }, rest)
    | _ => none
  | '[' :: cs => do
    let (path, key, rest) ← readPath cs
    match rest with
    | ']' :: rest =>
      let p ← p.change path (openTable key)
      return ({ p with header := path ++ [key] }, rest)
    | _ => none
  | cs => do
    let (path, key, rest) ← readPath cs
    match rest with
    | '=' :: rest =>
      let (v, rest) ← readValue maxDepth (rest.length + 1) (skipSpace rest)
      let p ← p.change p.header (addDotted path key v)
      return (p, rest)
    | _ => none

/-- Read statements to the end. -/
def readStatements : (fuel : Nat) → Progress → List Char → Option Progress
  | 0, _, _ => none
  | fuel + 1, p, cs =>
    match skipLines cs with
    | [] => some p
    | cs => do
      let (p, rest) ← readStatement p cs
      match skipComment (skipSpace rest) with
      | [] => return p
      | rest =>
        let rest ← newline? rest
        readStatements fuel p rest

/-- The entries of a document.  A byte order mark at its start does not belong to it. -/
def parse (text : String) : Option Entries :=
  let cs :=
    match text.toList with
    | '\ufeff' :: cs => cs
    | cs => cs
  (readStatements (cs.length + 1) {} cs).map (·.entries)

end CachingResolver.Toml
