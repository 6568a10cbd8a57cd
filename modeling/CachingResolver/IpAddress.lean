import CachingResolver.Text.Hexadecimal

/-!
# Internet addresses

Addresses of both families with their texts.  An IPv4 address is written as four decimal parts
without leading zeros.  An IPv6 address is written as hexadecimal groups, where `::` stands for one
or more zero groups and the last two groups may be written as an IPv4 address; it is printed with
the first longest run of at least two zero groups as `::`, and with a dotted tail exactly when it
embeds an IPv4 address below `::ffff:0:0`.
-/

namespace CachingResolver

open CachingResolver.Text

/-- An IPv4 address: its four octets. -/
structure Ipv4 where
  a : UInt8
  b : UInt8
  c : UInt8
  d : UInt8
  deriving DecidableEq, Repr, Inhabited

/-- An IPv6 address: its eight groups of sixteen bits. -/
structure Ipv6 where
  -- The groups, most significant first.
  groups : List UInt16
  length_eq : groups.length = 8
  deriving DecidableEq, Repr

/-- An address of either family. -/
inductive IpAddress where
  | v4 (address : Ipv4)
  | v6 (address : Ipv6)
  deriving DecidableEq, Repr

/-- The longest beginning of `cs` that consists of digits of a base, and what follows it. -/
def spanDigits (digit : Char → Option Nat) (cs : List Char) : List Nat × List Char :=
  (cs.takeWhile (digit · |>.isSome) |>.filterMap digit, cs.dropWhile (digit · |>.isSome))

def readChar (c : Char) : List Char → Option (List Char)
  | [] => none
  | d :: cs => if d = c then some cs else none

namespace Ipv4

/-- Read one octet: one to three digits, no leading zero, at most 255. -/
def readOctet (cs : List Char) : Option (UInt8 × List Char) :=
  let (ds, rest) := spanDigits digit? cs
  let n := ofDigits 10 ds
  if ds = [] ∨ 3 < ds.length ∨ (ds.head? = some 0 ∧ 1 < ds.length) ∨ 255 < n then none
  else some (UInt8.ofNat n, rest)

def read (cs : List Char) : Option (Ipv4 × List Char) := do
  let (a, cs) ← readOctet cs
  let cs ← readChar '.' cs
  let (b, cs) ← readOctet cs
  let cs ← readChar '.' cs
  let (c, cs) ← readOctet cs
  let cs ← readChar '.' cs
  let (d, cs) ← readOctet cs
  return (⟨a, b, c, d⟩, cs)

def ofText? (text : String) : Option Ipv4 :=
  match read text.toList with
  | some (address, []) => some address
  | _ => none

def text (x : Ipv4) : String :=
  decimal x.a.toNat ++ "." ++ decimal x.b.toNat ++ "." ++ decimal x.c.toNat ++ "." ++
    decimal x.d.toNat

def octets (x : Ipv4) : List UInt8 :=
  [x.a, x.b, x.c, x.d]

end Ipv4

namespace Ipv6

/-- The sixteen bits written by two octets. -/
def groupOf (high low : UInt8) : UInt16 :=
  high.toUInt16 <<< 8 ||| low.toUInt16

/-- Read one group: one to four hexadecimal digits. -/
def readGroup (cs : List Char) : Option (UInt16 × List Char) :=
  let (ds, rest) := spanDigits hexDigit? cs
  if ds = [] ∨ 4 < ds.length then none else some (UInt16.ofNat (ofDigits 16 ds), rest)

/-- Read the colon that stands before every group but the first of a run. -/
def readSeparator (first : Bool) (cs : List Char) : Option (List Char) :=
  if first then some cs else readChar ':' cs

/-- Read at most `room` groups separated by colons, where an IPv4 address may stand for the last
two.  The result says whether such an address ended the run. -/
def readGroups : (room : Nat) → (first : Bool) → List Char → List UInt16 × Bool × List Char
  | 0, _, cs => ([], false, cs)
  | room + 1, first, cs =>
    let embedded := if room = 0 then none else (readSeparator first cs).bind Ipv4.read
    match embedded with
    | some (x, rest) => ([groupOf x.a x.b, groupOf x.c x.d], true, rest)
    | none =>
      match (readSeparator first cs).bind readGroup with
      | none => ([], false, cs)
      | some (g, rest) =>
        let (gs, dotted, rest) := readGroups room false rest
        (g :: gs, dotted, rest)

/-- An address from its groups, if there are eight. -/
def ofGroups? (gs : List UInt16) : Option Ipv6 :=
  if h : gs.length = 8 then some ⟨gs, h⟩ else none

/-- Read an address: eight groups, or fewer around one `::`. -/
def read (cs : List Char) : Option (Ipv6 × List Char) :=
  let (head, dotted, rest) := readGroups 8 true cs
  if head.length = 8 then (ofGroups? head).map (·, rest)
  else if dotted then none
  else do
    let rest ← readChar ':' rest
    let rest ← readChar ':' rest
    let (tail, _, rest) := readGroups (7 - head.length) true rest
    let zeros := List.replicate (8 - head.length - tail.length) 0
    let address ← ofGroups? (head ++ zeros ++ tail)
    return (address, rest)

def ofText? (text : String) : Option Ipv6 :=
  match read text.toList with
  | some (address, []) => some address
  | _ => none

/-- Start and length of the first longest run of zero groups. -/
def longestZeroRun (gs : List UInt16) : Nat × Nat :=
  (List.range gs.length).foldl (fun best i =>
    let n := ((gs.drop i).takeWhile (· == 0)).length
    if best.2 < n then (i, n) else best) (0, 0)

def groupText (g : UInt16) : String :=
  String.ofList (Nat.toDigits 16 g.toNat)

/-- Groups separated by colons. -/
def groupsText : List UInt16 → String
  | [] => ""
  | [g] => groupText g
  | g :: gs => groupText g ++ ":" ++ groupsText gs

/-- The IPv4 address that an address of the form `::ffff:a.b.c.d` embeds. -/
def embedded? (x : Ipv6) : Option Ipv4 :=
  match x.groups with
  | [0, 0, 0, 0, 0, 0xffff, g, h] =>
    some ⟨(g >>> 8).toUInt8, g.toUInt8, (h >>> 8).toUInt8, h.toUInt8⟩
  | _ => none

/-- The shortest usual text of an address. -/
def text (x : Ipv6) : String :=
  match x.embedded? with
  | some y => "::ffff:" ++ y.text
  | none =>
    let (start, n) := longestZeroRun x.groups
    if 1 < n then
      groupsText (x.groups.take start) ++ "::" ++ groupsText (x.groups.drop (start + n))
    else groupsText x.groups

def octets (x : Ipv6) : List UInt8 :=
  x.groups.flatMap fun (g : UInt16) => [(g >>> 8).toUInt8, g.toUInt8]

end Ipv6

namespace IpAddress

def read (cs : List Char) : Option (IpAddress × List Char) :=
  match Ipv4.read cs with
  | some (x, rest) => some (.v4 x, rest)
  | none => (Ipv6.read cs).map fun (x, rest) => (.v6 x, rest)

def ofText? (text : String) : Option IpAddress :=
  match read text.toList with
  | some (address, []) => some address
  | _ => none

def text : IpAddress → String
  | v4 x => x.text
  | v6 x => x.text

def isV4 : IpAddress → Bool
  | v4 _ => true
  | v6 _ => false

end IpAddress

/-- Where a server listens: an address, a port, and for IPv6 the scope of a link-local address,
where 0 stands for none. -/
structure Endpoint where
  ip : IpAddress
  port : UInt16
  scope : UInt32 := 0
  deriving DecidableEq, Repr

namespace Endpoint

/-- Read a decimal number below `bound`; leading zeros are allowed. -/
def readBelow (bound : Nat) (cs : List Char) : Option (Nat × List Char) :=
  let (ds, rest) := spanDigits digit? cs
  let n := ofDigits 10 ds
  if ds = [] ∨ bound ≤ n then none else some (n, rest)

/-- Read the colon and the port that end an endpoint. -/
def readPort (cs : List Char) : Option (UInt16 × List Char) := do
  let cs ← readChar ':' cs
  let (n, cs) ← readBelow UInt16.size cs
  return (UInt16.ofNat n, cs)

def readV4 (cs : List Char) : Option (Endpoint × List Char) := do
  let (x, cs) ← Ipv4.read cs
  let (port, cs) ← readPort cs
  return (⟨.v4 x, port, 0⟩, cs)

/-- Read `%scope`, which may be absent. -/
def readScope (cs : List Char) : Option (UInt32 × List Char) :=
  match readChar '%' cs with
  | none => some (0, cs)
  | some cs => (readBelow UInt32.size cs).map fun (n, cs) => (UInt32.ofNat n, cs)

/-- Read `[address]:port` or `[address%scope]:port`. -/
def readV6 (cs : List Char) : Option (Endpoint × List Char) := do
  let cs ← readChar '[' cs
  let (x, cs) ← Ipv6.read cs
  let (scope, cs) ← readScope cs
  let cs ← readChar ']' cs
  let (port, cs) ← readPort cs
  return (⟨.v6 x, port, scope⟩, cs)

def ofText? (text : String) : Option Endpoint :=
  match (readV4 text.toList).or (readV6 text.toList) with
  | some (endpoint, []) => some endpoint
  | _ => none

def text (e : Endpoint) : String :=
  let port := ":" ++ decimal e.port.toNat
  match e.ip with
  | .v4 x => x.text ++ port
  | .v6 x =>
    let scope := if e.scope = 0 then "" else "%" ++ decimal e.scope.toNat
    "[" ++ x.text ++ scope ++ "]" ++ port

/-- The endpoint written as an endpoint, or as an address that takes the port `port`. -/
def ofTextWithPort? (port : UInt16) (text : String) : Option Endpoint :=
  match ofText? text with
  | some e => some e
  | none => (IpAddress.ofText? text).map fun ip => { ip, port }

end Endpoint

end CachingResolver
