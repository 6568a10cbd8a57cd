import CachingResolver.Cache.Basic
import CachingResolver.Zone

/-!
# The enclosing zone of a name

The nearest zone at or above a name whose name servers are cached, with the addresses that are
cached for them.
-/

namespace CachingResolver.Cache

/-- Read the addresses cached for a server under one type; values that are no addresses are left
out. -/
def readAddresses (c : Cache) (server : String) (type : RecordType) : List IpAddress × Cache :=
  let (e, c) := c.getPositive? server type
  match e with
  | some e => (e.values.filterMap IpAddress.ofText?, c)
  | none => ([], c)

/-- Add a server and the addresses cached for it to a zone, IPv4 addresses first. -/
def readServer (state : Zone × Cache) (server : String) : Zone × Cache :=
  let (zone, c) := state
  let (v4, c) := c.readAddresses server .a
  let (v6, c) := c.readAddresses server .aaaa
  (((zone.addServer server).addAddresses server v4).addAddresses server v6, c)

/-- The first of the given zones whose name servers are cached. -/
def firstCachedZone (c : Cache) : List String → Zone × Cache
  | [] => (.unknown, c)
  | name :: names =>
    let (servers, c) := c.getPositive? name .ns
    match servers with
    | none => c.firstCachedZone names
    | some e =>
      if e.values.isEmpty then c.firstCachedZone names
      else e.values.foldl readServer (Zone.make name, c)

/-- The nearest zone at or above a name whose name servers are cached, or the unknown zone. -/
def zoneFor (c : Cache) (name : String) : Zone × Cache :=
  c.firstCachedZone (Name.ancestors (Name.canonical name))

end CachingResolver.Cache
