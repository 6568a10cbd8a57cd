import CachingResolver.IpAddress
import CachingResolver.Text.Utf8
import CachingResolver.Toml.Document

/-!
# Settings

The settings of the program, by default, from a TOML document and from the command line, which wins.
The document has a table for each group of settings; what it does not mention keeps its default and
what is not a setting is passed over.  An array may stand for the table of a group and gives the
settings in their order.
-/

namespace CachingResolver

structure ResolverSettings where
  iterative : Bool := true
  nameservers : List String := []
  resolvConf : String := "/etc/resolv.conf"
  rootHints : String := "named.root"
  queryTimeoutMs : UInt64 := 5000
  maxSteps : UInt64 := 64
  port : UInt16 := 53
  deriving DecidableEq, Repr, Inhabited

structure CacheSettings where
  -- The room to reserve for record sets.
  positiveCapacity : UInt64 := 10000
  positiveTtl : UInt32 := 3600
  negativeCapacity : UInt64 := 1000
  negativeTtl : UInt32 := 60
  checkpoint : Option String := none
  deriving DecidableEq, Repr, Inhabited

structure LoggingSettings where
  level : String := "info"
  ansi : Bool := true
  deriving DecidableEq, Repr, Inhabited

structure HandlerSettings where
  maxJobs : UInt64 := 512
  deriving DecidableEq, Repr, Inhabited

structure Settings where
  resolver : ResolverSettings := {}
  cache : CacheSettings := {}
  logging : LoggingSettings := {}
  handler : HandlerSettings := {}
  deriving DecidableEq, Repr, Inhabited

structure Overrides where
  iterative : Option Bool := none
  nameservers : List String := []
  rootHints : Option String := none
  logLevel : Option String := none
  checkpoint : Option String := none
  deriving DecidableEq, Repr, Inhabited

inductive SettingsError where
  | unreadable (path reason : String)
  | malformed (detail : String)
  | invalid (detail : String)
  deriving DecidableEq, Repr

namespace SettingsError

def message : SettingsError → String
  | unreadable path reason => "Failed to read config file " ++ path ++ ": " ++ reason
  | malformed detail => "Failed to parse config: " ++ detail
  | invalid detail => "Invalid configuration: " ++ detail

/-- What lies behind an error, from the nearest cause on. -/
def causes : SettingsError → List String
  | unreadable _ reason => [reason]
  | malformed detail => [detail]
  | invalid _ => []

end SettingsError

namespace Settings

open CachingResolver.Toml

def boolean? : Value → Option Bool
  | .boolean b => some b
  | _ => none

def text? : Value → Option String
  | .text s => some s
  | _ => none

def texts? : Value → Option (List String)
  | .array _ vs => vs.mapM text?
  | _ => none

/-- A natural number below a bound. -/
def natBelow? (bound : Nat) : Value → Option Nat
  | .integer n => if 0 ≤ n ∧ n < bound then some n.toNat else none
  | _ => none

def word16? (v : Value) : Option UInt16 :=
  (natBelow? UInt16.size v).map UInt16.ofNat

def word32? (v : Value) : Option UInt32 :=
  (natBelow? UInt32.size v).map UInt32.ofNat

def word64? (v : Value) : Option UInt64 :=
  (natBelow? UInt64.size v).map UInt64.ofNat

/-- A setting that is read by `read?` if it is given. -/
def settingOr {α : Type} (default : α) (read? : Value → Option α) : Option Value → Option α
  | none => some default
  | some v => read? v

/-- A group of settings that is given as a table or as an array in the order of `names`: what is
given under each name.  A date or a time may stand for a group and gives nothing. -/
def group? (names : List String) : Value → Option (String → Option Value)
  | .table _ es => some (Entries.find? es)
  | .array _ vs => some fun name => ((names.zip vs).find? fun p => p.1 == name).map (·.2)
  | .moment _ => some fun _ => none
  | _ => none

def resolver? (v : Value) : Option ResolverSettings := do
  let given ← group? ["iterative", "nameservers", "resolv_conf", "root_hints", "query_timeout_ms",
    "max_steps", "port"] v
  let d : ResolverSettings := {}
  return {
    iterative := ← settingOr d.iterative boolean? (given "iterative")
    nameservers := ← settingOr d.nameservers texts? (given "nameservers")
    resolvConf := ← settingOr d.resolvConf text? (given "resolv_conf")
    rootHints := ← settingOr d.rootHints text? (given "root_hints")
    queryTimeoutMs := ← settingOr d.queryTimeoutMs word64? (given "query_timeout_ms")
    maxSteps := ← settingOr d.maxSteps word64? (given "max_steps")
    port := ← settingOr d.port word16? (given "port") }

def cache? (v : Value) : Option CacheSettings := do
  let given ← group? ["positive_capacity", "positive_ttl", "negative_capacity", "negative_ttl",
    "checkpoint"] v
  let d : CacheSettings := {}
  return {
    positiveCapacity := ← settingOr d.positiveCapacity word64? (given "positive_capacity")
    positiveTtl := ← settingOr d.positiveTtl word32? (given "positive_ttl")
    negativeCapacity := ← settingOr d.negativeCapacity word64? (given "negative_capacity")
    negativeTtl := ← settingOr d.negativeTtl word32? (given "negative_ttl")
    checkpoint := ← settingOr d.checkpoint (fun v => (text? v).map some) (given "checkpoint") }

def logging? (v : Value) : Option LoggingSettings := do
  let given ← group? ["level", "ansi"] v
  let d : LoggingSettings := {}
  return {
    level := ← settingOr d.level text? (given "level")
    ansi := ← settingOr d.ansi boolean? (given "ansi") }

def handler? (v : Value) : Option HandlerSettings := do
  let given ← group? ["max_jobs"] v
  let d : HandlerSettings := {}
  return { maxJobs := ← settingOr d.maxJobs word64? (given "max_jobs") }

def ofEntries? (es : Entries) : Option Settings := do
  return {
    resolver := ← settingOr {} resolver? (es.find? "resolver")
    cache := ← settingOr {} cache? (es.find? "cache")
    logging := ← settingOr {} logging? (es.find? "logging")
    handler := ← settingOr {} handler? (es.find? "handler") }

def ofText (text : String) : Except SettingsError Settings :=
  match (Toml.parse text).bind ofEntries? with
  | some s => .ok s
  | none => .error (.malformed "not a document of settings")

/-- Settings with those of the command line in force. -/
def override (s : Settings) (o : Overrides) : Settings where
  resolver := {
    s.resolver with
    iterative := o.iterative.getD s.resolver.iterative
    nameservers := if o.nameservers.isEmpty then s.resolver.nameservers else o.nameservers
    rootHints := o.rootHints.getD s.resolver.rootHints }
  cache := { s.cache with checkpoint := o.checkpoint <|> s.cache.checkpoint }
  logging := { s.logging with level := o.logLevel.getD s.logging.level }
  handler := s.handler

/-- The settings of a file, given as its octets or as the reason why it cannot be read. -/
def ofFile (path : String) (file : Except String (List UInt8)) : Except SettingsError Settings :=
  match file with
  | .error reason => .error (.unreadable path reason)
  | .ok octets =>
    match Text.Utf8.decode? octets with
    | some text => ofText text
    | none => .error (.unreadable path "stream did not contain valid UTF-8")

/-- The settings of a file, if one is named, with those of the command line in force. -/
def load (path : Option String) (read : String → Except String (List UInt8)) (o : Overrides) :
    Except SettingsError Settings :=
  match path with
  | some path => (ofFile path (read path)).map (·.override o)
  | none => .ok (({} : Settings).override o)

/-- Whether a text is the address of a server, with or without a port. -/
def isServer (text : String) : Bool :=
  (IpAddress.ofText? text).isSome || (Endpoint.ofText? text).isSome

/-- Check the values of settings; the first that is wrong is reported. -/
def validate (s : Settings) : Except SettingsError Unit :=
  if s.resolver.queryTimeoutMs = 0 then
    .error (.invalid "resolver.query_timeout_ms must be greater than zero")
  else if s.resolver.maxSteps = 0 then
    .error (.invalid "resolver.max_steps must be greater than zero")
  else if s.handler.maxJobs = 0 then
    .error (.invalid "handler.max_jobs must be greater than zero")
  else
    match s.resolver.nameservers.find? fun text => !isServer text with
    | some text =>
      .error (.invalid ("Invalid nameserver '" ++ text ++ "': expected an IP literal"))
    | none => .ok ()

end Settings

end CachingResolver
