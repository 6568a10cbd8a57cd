import CachingResolver.Text.Hexadecimal

/-!
# TOML texts and keys

The four ways to write a text: between single or triple quotes of two kinds.  Between double
quotes a backslash starts an escape; between triple ones a backslash at the end of a line joins the
next word to it.  A key is bare or written as a text on one line.
-/

namespace CachingResolver.Toml

open CachingResolver.Text (codePoint?)

def isSpace (c : Char) : Bool :=
  c == ' ' || c == '\t'

/-- Whether a character may stand in a comment or a text as it is. -/
def isPrintable (c : Char) : Bool :=
  c == '\t' || (0x20 ≤ c.toNat && c.toNat != 0x7f)

def skipSpace (cs : List Char) : List Char :=
  cs.dropWhile isSpace

def newline? : List Char → Option (List Char)
  | '\n' :: cs => some cs
  | '\r' :: '\n' :: cs => some cs
  | _ => none

/-- Whether only spaces and tabs come before the end of the line. -/
def endsBlank (cs : List Char) : Bool :=
  (newline? (skipSpace cs)).isSome

def escape? : Char → Option Char
  | 'b' => some '\x08'
  | 'e' => some '\x1b'
  | 't' => some '\t'
  | 'n' => some '\n'
  | 'f' => some '\x0c'
  | 'r' => some '\r'
  | '"' => some '"'
  | '\\' => some '\\'
  | _ => none

/-- Put a character before what has been read, if both are there. -/
def cons? (c : Option Char) (read : Option (List Char × List Char)) :
    Option (List Char × List Char) := do
  let c ← c
  let (cs, rest) ← read
  return (c :: cs, rest)

/-- Read a text up to a double quote. -/
def readBasic : List Char → Option (List Char × List Char)
  | [] => none
  | '"' :: cs => some ([], cs)
  | '\\' :: 'x' :: a :: b :: cs => cons? (codePoint? [a, b]) (readBasic cs)
  | '\\' :: 'u' :: a :: b :: c :: d :: cs => cons? (codePoint? [a, b, c, d]) (readBasic cs)
  | '\\' :: 'U' :: a :: b :: c :: d :: e :: f :: g :: h :: cs =>
    cons? (codePoint? [a, b, c, d, e, f, g, h]) (readBasic cs)
  | '\\' :: c :: cs => cons? (escape? c) (readBasic cs)
  | c :: cs => cons? (if isPrintable c then some c else none) (readBasic cs)

/-- Read a text up to a single quote, without escapes. -/
def readLiteral : List Char → Option (List Char × List Char)
  | [] => none
  | '\'' :: cs => some ([], cs)
  | c :: cs => cons? (if isPrintable c then some c else none) (readLiteral cs)

/-- Read a text up to three double quotes; up to two more belong to the text.  While `isJoining`,
blanks and ends of lines are left out; else the end of a line belongs to the text as it is. -/
def readBasicLines (isJoining : Bool) : List Char → Option (List Char × List Char)
  | [] => none
  | '"' :: '"' :: '"' :: '"' :: '"' :: cs => some (['"', '"'], cs)
  | '"' :: '"' :: '"' :: '"' :: cs => some (['"'], cs)
  | '"' :: '"' :: '"' :: cs => some ([], cs)
  | '\r' :: '\n' :: cs =>
    if isJoining then readBasicLines true cs
    else cons? (some '\r') (cons? (some '\n') (readBasicLines false cs))
  | '\n' :: cs =>
    if isJoining then readBasicLines true cs else cons? (some '\n') (readBasicLines false cs)
  | '\\' :: 'x' :: a :: b :: cs => cons? (codePoint? [a, b]) (readBasicLines false cs)
  | '\\' :: 'u' :: a :: b :: c :: d :: cs =>
    cons? (codePoint? [a, b, c, d]) (readBasicLines false cs)
  | '\\' :: 'U' :: a :: b :: c :: d :: e :: f :: g :: h :: cs =>
    cons? (codePoint? [a, b, c, d, e, f, g, h]) (readBasicLines false cs)
  | '\\' :: c :: cs =>
    if endsBlank (c :: cs) then readBasicLines true (c :: cs)
    else cons? (escape? c) (readBasicLines false cs)
  | c :: cs =>
    if isJoining && isSpace c then readBasicLines true cs
    else cons? (if isPrintable c then some c else none) (readBasicLines false cs)

/-- Read a text up to three single quotes; up to two more belong to the text. -/
def readLiteralLines : List Char → Option (List Char × List Char)
  | [] => none
  | '\'' :: '\'' :: '\'' :: '\'' :: '\'' :: cs => some (['\'', '\''], cs)
  | '\'' :: '\'' :: '\'' :: '\'' :: cs => some (['\''], cs)
  | '\'' :: '\'' :: '\'' :: cs => some ([], cs)
  | '\r' :: '\n' :: cs => cons? (some '\r') (cons? (some '\n') (readLiteralLines cs))
  | '\n' :: cs => cons? (some '\n') (readLiteralLines cs)
  | c :: cs => cons? (if isPrintable c then some c else none) (readLiteralLines cs)

/-- Drop the end of a line that follows at once. -/
def skipNewline (cs : List Char) : List Char :=
  (newline? cs).getD cs

def readLine? : List Char → Option (String × List Char)
  | '"' :: cs => (readBasic cs).map fun (s, rest) => (String.ofList s, rest)
  | '\'' :: cs => (readLiteral cs).map fun (s, rest) => (String.ofList s, rest)
  | _ => none

def readText? : List Char → Option (String × List Char)
  | '"' :: '"' :: '"' :: cs =>
    (readBasicLines false (skipNewline cs)).map fun (s, rest) => (String.ofList s, rest)
  | '\'' :: '\'' :: '\'' :: cs =>
    (readLiteralLines (skipNewline cs)).map fun (s, rest) => (String.ofList s, rest)
  | cs => readLine? cs

/-- Whether a character may stand in a bare key. -/
def isBare (c : Char) : Bool :=
  c.isAlphanum || c == '_' || c == '-'

/-- Read a key without dots. -/
def readKey? (cs : List Char) : Option (String × List Char) :=
  match cs.takeWhile isBare with
  | [] => readLine? cs
  | bare => some (String.ofList bare, cs.dropWhile isBare)

/-- Read keys with dots between them; blanks around the dots do not matter.  The result gives the
keys before the last, the last, and the rest. -/
def readDotted : (fuel : Nat) → List Char → Option (List String × String × List Char)
  | 0, _ => none
  | fuel + 1, cs => do
    let (key, rest) ← readKey? (skipSpace cs)
    match skipSpace rest with
    | '.' :: rest =>
      let (path, last, rest) ← readDotted fuel rest
      return (key :: path, last, rest)
    | rest => return ([], key, rest)

/-- The most keys of a dotted key. -/
def maxPath : Nat := 80

def readPath (cs : List Char) : Option (List String × String × List Char) :=
  (readDotted (cs.length + 1) cs).filter fun (path, _) => path.length < maxPath

end CachingResolver.Toml
