import CachingResolver.IpAddress
import CachingResolver.Name
import CachingResolver.Table

/-!
# Zones and their name servers

A zone with the servers that are authoritative for it and the addresses known for each.  Servers
are keyed by canonical name; the addresses of a server are distinct and stay in order of arrival.
-/

namespace CachingResolver

/-- A zone, its name servers and their addresses.  An empty name stands for an unknown zone. -/
structure Zone where
  -- The name, or the empty text when the zone is unknown.
  name : String
  servers : Table (List IpAddress)

namespace Zone

/-- The zone of a name, without servers. -/
def make (name : String) : Zone where
  name := Name.canonical name
  servers := ∅

/-- The zone about which nothing is known; it is not the root. -/
def unknown : Zone where
  name := ""
  servers := ∅

instance : Inhabited Zone := ⟨unknown⟩

/-- Whether nothing is known about the zone. -/
def isUnknown (z : Zone) : Bool :=
  z.name.isEmpty && z.servers.size == 0

def isRoot (z : Zone) : Bool :=
  z.name == Name.root

/-- Add a server; one that is present keeps its addresses. -/
def addServer (z : Zone) (server : String) : Zone :=
  let key := Name.canonical server
  if z.servers.contains key then z else { z with servers := z.servers.insert key [] }

/-- Add an address of a server and tell whether the server belongs to the zone.  A known address
is not added again. -/
def addAddress (z : Zone) (server : String) (ip : IpAddress) : Bool × Zone :=
  let key := Name.canonical server
  match z.servers.get? key with
  | none => (false, z)
  | some ips =>
    if ips.contains ip then (true, z)
    else (true, { z with servers := z.servers.insert key (ips ++ [ip]) })

def addAddresses (z : Zone) (server : String) (ips : List IpAddress) : Zone :=
  ips.foldl (fun z ip => (z.addAddress server ip).2) z

/-- The names of the servers, sorted. -/
def serverNames (z : Zone) : List String :=
  z.servers.entries.map (·.1)

def addressesOf (z : Zone) (server : String) : List IpAddress :=
  (z.servers.get? (Name.canonical server)).getD []

/-- The servers for which an address is known, sorted by name. -/
def reachable (z : Zone) : List (String × List IpAddress) :=
  z.servers.entries.filter fun (_, ips) => !ips.isEmpty

end Zone

end CachingResolver
