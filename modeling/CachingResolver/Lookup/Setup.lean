import CachingResolver.Cache.RootHints
import CachingResolver.Lookup.Resolver
import CachingResolver.ResolvConf
import CachingResolver.Settings

/-!
# Setting a resolver up

The resolver and the cache that settings ask for.  An iterative resolver needs root hints, and a
forwarding one needs servers: those that are given, else those of the settings, else those of the
system.
-/

namespace CachingResolver

def CacheSettings.newCache (s : CacheSettings) (now : Int64) : Cache where
  positiveTtl := s.positiveTtl
  negativeTtl := s.negativeTtl
  now := now

namespace ResolverSettings

/-- The servers that settings name, or else those that the file of the system lists. -/
def configuredServers (s : ResolverSettings) (read : String → Except String (List UInt8)) :
    List Endpoint :=
  match s.nameservers.filterMap (Endpoint.ofTextWithPort? ResolvConf.port) with
  | [] =>
    match ResolvConf.ofFile (read s.resolvConf) with
    | .ok servers => servers
    | .error _ => []
  | servers => servers

/-- The file that setting the resolver up may have to read. -/
def file (s : ResolverSettings) : String :=
  if s.iterative then s.rootHints else s.resolvConf

/-- Set the resolver up, with the root hints in the cache if it needs them.  `servers` are given
servers to forward to. -/
def setup (s : ResolverSettings) (servers : Option (List Endpoint))
    (read : String → Except String (List UInt8)) (c : Cache) : Except Failure Resolver × Cache :=
  if s.iterative then
    let (loaded, c) := c.loadRootsFile s.rootHints (read s.rootHints)
    (loaded.map fun _ => .iterative { port := s.port, maxSteps := s.maxSteps.toNat }, c)
  else
    ((Forwarder.make (servers.getD (s.configuredServers read))).map .forwarding, c)

end ResolverSettings

end CachingResolver
