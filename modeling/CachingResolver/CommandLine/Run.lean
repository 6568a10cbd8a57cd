import CachingResolver.Cache.Listing
import CachingResolver.Cache.Snapshot
import CachingResolver.CommandLine.Arguments
import CachingResolver.Lookup.Answering
import CachingResolver.Lookup.Setup

/-!
# Runs of the program

A run reads its settings, restores the cache from its checkpoint, sets the resolver up, answers the
question of the call, and prints and keeps the cache if asked to.  It is a function of the files it
reads, the time and the surroundings of its lookups; what it writes is its `Outcome`.
-/

namespace CachingResolver.CommandLine

/-- What a run leaves behind. -/
structure Outcome where
  exit : UInt8 := 0
  printed : String := ""
  reported : String := ""
  -- A file that is written, if it can be.
  written : Option (String × List UInt8) := none
  deriving DecidableEq, Repr

/-- Lines of text, every one ended. -/
def lines (texts : List String) : String :=
  texts.foldr (fun line rest => line ++ "\n" ++ rest) ""

/-- A text of which every line stands four columns in. -/
def indent (text : String) : String :=
  String.ofList ("    ".toList ++ text.toList.flatMap fun c =>
    if c = '\n' then "\n    ".toList else [c])

/-- The report of what ended a run early, with the causes behind it. -/
def report (text : String) (causes : List String) : Outcome where
  exit := 1
  reported :=
    match causes with
    | [] => lines ["Error: " ++ text]
    | causes =>
      lines (["Error: " ++ text, "", "Caused by:"] ++ causes.map indent)

def Call.settings (c : Call) (file : String → Except String (List UInt8)) :
    Except SettingsError Settings := do
  let s ← Settings.load c.config file c.overrides
  s.validate
  return s

/-- The files that a run may read, once the file of settings can be read. -/
def Call.files (c : Call) (file : String → Except String (List UInt8)) : List String :=
  c.config.toList ++
    match c.settings file with
    | .ok s => s.resolver.file :: s.cache.checkpoint.toList
    | .error _ => []

/-- Restore the cache from its checkpoint; one that cannot be used is passed over. -/
def restore (checkpoint : Option String) (file : String → Except String (List UInt8)) (c : Cache) :
    Cache :=
  match checkpoint with
  | some path => (c.loadFile path (file path)).2
  | none => c

def answerLines (q : Question) (r : Resolution) : List String :=
  let source := if r.isCacheHit then "cache" else "resolved"
  let server := (r.server.map fun e => " via " ++ e.text).getD ""
  (";; " ++ q.text ++ " (" ++ source ++ server ++ ")") :: r.records.map ResourceRecord.text

/-- End a run: print the cache if the call asks for it, and keep it. -/
def finish (call : Call) (checkpoint : Option String) (c : Cache) (o : Outcome) : Outcome :=
  { o with
    printed := if call.dumpCache then o.printed ++ c.listing else o.printed
    written := checkpoint.map fun path => (path, c.dump) }

variable {σ : Type}

/-- What a run leaves behind that a failure of the program itself ends. -/
def abandoned (reason : String) : Outcome where
  exit := 101
  reported := lines [reason]

/-- Look a name up and print what was found. -/
def lookUp (call : Call) (s : Settings) (r : Resolver) (env : Environment σ) (a : Admission)
    (w : World σ) (name : String) : Outcome :=
  let typeText := call.type.getD "A"
  match RecordType.ofText? typeText with
  | none => report (RecordType.unknownMessage typeText) []
  | some type =>
    let q := Question.make name type
    let (result, _, w) := r.answer env a q w
    let outcome : Outcome :=
      match result with
      | .ok resolution => { printed := lines (answerLines q resolution) }
      | .error failure => { exit := 1, reported := lines [q.text ++ ": " ++ failure.message] }
    finish call s.cache.checkpoint w.cache outcome

def Call.run (call : Call) (env : Environment σ) (outside : σ) (now : Int64)
    (file : String → Except String (List UInt8)) : Outcome :=
  match call.settings file with
  | .error e => report e.message e.causes
  | .ok s =>
    let cache := restore s.cache.checkpoint file (s.cache.newCache now)
    match s.resolver.setup none file cache with
    | (.error failure, _) => report "failed to build resolver" [failure.message]
    | (.ok r, cache) =>
      match Admission.ofLimit? s.handler.maxJobs.toNat, call.name with
      | none, _ => abandoned "too many questions to be kept count of"
      | some _, none => finish call s.cache.checkpoint cache {}
      | some a, some name => lookUp call s r env a { cache, outside } name

def versionText : String := "gnocco 0.3.0"

def usage : List String :=
  ["Caching stub and iterative DNS resolver", "",
    "Usage: [OPTIONS] [NAME] [RECORD_TYPE]", "",
    "Arguments:",
    "  [NAME]         Name to resolve",
    "  [RECORD_TYPE]  Record type: A, AAAA, CNAME, NS, MX, TXT, PTR, SOA or SRV [default: A]", "",
    "Options:",
    "  -c, --config <CONFIG>           Path to a TOML configuration file",
    "      --stub                      Forward to other resolvers instead of iterating",
    "  -n, --nameserver <NAMESERVERS>  Resolver to forward to (repeatable)",
    "      --root-hints <ROOT_HINTS>   Root hints file for iterative mode",
    "  -l, --log-level <LOG_LEVEL>     Log level: trace, debug, info, warn or error",
    "      --checkpoint <CHECKPOINT>   Cache checkpoint restored at start and written at exit",
    "      --dump-cache                Print the cache contents after the lookup",
    "  -h, --help                      Print help",
    "  -V, --version                   Print version"]

/-- Do what the arguments of a call come to. -/
def Request.perform (r : Request) (env : Environment σ) (outside : σ) (now : Int64)
    (file : String → Except String (List UInt8)) : Outcome :=
  match r with
  | .misuse => { exit := 2, reported := lines ["error: unexpected arguments", "",
      "For more information, try '--help'."] }
  | .help => { printed := lines usage }
  | .version => { printed := lines [versionText] }
  | .run call => call.run env outside now file

end CachingResolver.CommandLine
