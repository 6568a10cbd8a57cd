import CachingResolver.Cache.Basic
import CachingResolver.Failure
import CachingResolver.IpAddress
import CachingResolver.Text.Blank
import CachingResolver.Text.Utf8

/-!
# Root hints

The servers of the root zone, one a line: a name, an IPv4 address and perhaps an IPv6 address.
Every line stands on its own: one that is not UTF-8, is blank, starts with `#` or `;`, or lacks a
name and an IPv4 address is left out, and an IPv6 address that cannot be read is left out of its
line.
-/

namespace CachingResolver

open CachingResolver.Text

structure RootHint where
  -- The server, in canonical form.
  server : String
  v4 : Ipv4
  v6 : Option Ipv6
  deriving DecidableEq, Repr

namespace RootHint

def ofChars? (line : List Char) : Option RootHint :=
  match trim line with
  | [] => none
  | c :: cs =>
    if c = '#' ∨ c = ';' then none
    else
      match words (c :: cs) with
      | name :: v4 :: rest => do
        let v4 ← Ipv4.ofText? (String.ofList v4)
        let v6 := rest.head?.bind fun field => Ipv6.ofText? (String.ofList field)
        return { server := Name.canonical (String.ofList name), v4, v6 }
      | _ => none

def ofLine? (line : List UInt8) : Option RootHint :=
  (Utf8.decode? line).bind fun text => ofChars? text.toList

/-- The hints of a file, one for each line that can be read. -/
def ofFile (octets : List UInt8) : List RootHint :=
  (splitAt 10 octets).filterMap ofLine?

end RootHint

namespace Cache

/-- The time to live of root hints: a year. -/
def rootHintsTtl : UInt32 := 31536000

def hintEntry (c : Cache) (values : List String) : Entry :=
  { values, ttl := rootHintsTtl, storedAt := c.now }

def putHint (c : Cache) (h : RootHint) : Cache :=
  let c := c.put h.server .a (c.hintEntry [h.v4.text])
  match h.v6 with
  | some x => c.put h.server .aaaa (c.hintEntry [x.text])
  | none => c

/-- Store hints and, if there are any, the name servers of the root.  The result counts the
distinct servers. -/
def loadHints (c : Cache) (hints : List RootHint) : Nat × Cache :=
  let servers := (hints.map (·.server)).eraseDups
  let c := hints.foldl putHint c
  if servers.isEmpty then (0, c)
  else (servers.length, c.put Name.root .ns (c.hintEntry servers))

def loadRoots (c : Cache) (octets : List UInt8) : Nat × Cache :=
  c.loadHints (RootHint.ofFile octets)

/-- Load the hints of a file, given as its octets or as the reason why it cannot be read.  A file
without usable hints is a failure. -/
def loadRootsFile (c : Cache) (path : String) (file : Except String (List UInt8)) :
    Except Failure Nat × Cache :=
  match file with
  | .error reason => (.error (.rootHints (path ++ ": " ++ reason)), c)
  | .ok octets =>
    match c.loadRoots octets with
    | (0, c) => (.error (.rootHints (path ++ ": no usable root servers")), c)
    | (n, c) => (.ok n, c)

end Cache

end CachingResolver
