import CachingResolver.Settings
import CachingResolver.Text.Blank

/-!
# Arguments of the command line

A call names what to look up, with options before, between and after.  An option with a value takes
it from the same argument or from the next one, which must not look like an option; only the option
for servers may be repeated.  After `--` nothing is an option.
-/

namespace CachingResolver.CommandLine

/-- What a call asks for. -/
structure Call where
  name : Option String := none
  type : Option String := none
  config : Option String := none
  -- Whether to forward.
  stub : Bool := false
  nameservers : List String := []
  rootHints : Option String := none
  logLevel : Option String := none
  checkpoint : Option String := none
  dumpCache : Bool := false
  deriving DecidableEq, Repr, Inhabited

/-- What the arguments of a call come to. -/
inductive Request where
  | misuse
  | help
  | version
  | run (call : Call)
  deriving DecidableEq, Repr

inductive Choice where
  | valued (set : Call → String → Option Call)
  | plain (set : Call → Option Call)
  | final (request : Request)

namespace Choice

/-- Set what may be set once. -/
def once (old : Option String) (set : Option String → Call) (value : String) : Option Call :=
  if old.isSome then none else some (set (some value))

def config : Choice :=
  .valued fun c v => once c.config (fun v => { c with config := v }) v

def nameserver : Choice :=
  .valued fun c v => some { c with nameservers := c.nameservers ++ [v] }

def rootHints : Choice :=
  .valued fun c v => once c.rootHints (fun v => { c with rootHints := v }) v

def logLevel : Choice :=
  .valued fun c v => once c.logLevel (fun v => { c with logLevel := v }) v

/-- The file that keeps the cache. -/
def checkpoint : Choice :=
  .valued fun c v => once c.checkpoint (fun v => { c with checkpoint := v }) v

/-- Whether to forward. -/
def stub : Choice :=
  .plain fun c => if c.stub then none else some { c with stub := true }

def dumpCache : Choice :=
  .plain fun c => if c.dumpCache then none else some { c with dumpCache := true }

def ofName? : String → Option Choice
  | "config" => some config
  | "stub" => some stub
  | "nameserver" => some nameserver
  | "root-hints" => some rootHints
  | "log-level" => some logLevel
  | "checkpoint" => some checkpoint
  | "dump-cache" => some dumpCache
  | "help" => some (.final .help)
  | "version" => some (.final .version)
  | _ => none

def ofLetter? : Char → Option Choice
  | 'c' => some config
  | 'n' => some nameserver
  | 'l' => some logLevel
  | 'h' => some (.final .help)
  | 'V' => some (.final .version)
  | _ => none

end Choice

/-- Take an argument that is no option: the name first, then the type. -/
def Call.positional? (c : Call) (arg : String) : Option Call :=
  match c.name, c.type with
  | none, _ => some { c with name := some arg }
  | some _, none => some { c with type := some arg }
  | some _, some _ => none

def Call.positionals? (c : Call) (args : List String) : Option Call :=
  args.foldlM Call.positional? c

/-- An argument, sorted by its form. -/
inductive Argument where
  -- The mark after which nothing is an option.
  | mark
  | option (choice : Option Choice) (value : Option String)
  | positional

/-- The option of an argument after two hyphens. -/
def longOption (cs : List Char) : Argument :=
  match Text.splitOnce '=' cs with
  | some (name, value) =>
    .option (Choice.ofName? (String.ofList name)) (some (String.ofList value))
  | none => .option (Choice.ofName? (String.ofList cs)) none

/-- The value that follows the letter of an option at once, perhaps after an equals sign. -/
def attachedValue : List Char → Option String
  | [] => none
  | '=' :: value => some (String.ofList value)
  | value => some (String.ofList value)

/-- The option of an argument after one hyphen.  One that ends the reading does so at its letter,
whatever follows that. -/
def shortOption (c : Char) (cs : List Char) : Argument :=
  match Choice.ofLetter? c with
  | some (.final request) => .option (some (.final request)) none
  | choice => .option choice (attachedValue cs)

def Argument.of (arg : String) : Argument :=
  match arg.toList with
  | ['-', '-'] => .mark
  | '-' :: '-' :: cs => longOption cs
  | '-' :: c :: cs => if c = '-' then .mark else shortOption c cs
  | _ => .positional

/-- Whether an argument may be the value of the option before it. -/
def isValue (arg : String) : Bool :=
  match Argument.of arg with
  | .positional => true
  | _ => false

/-- What to do when an argument has been taken: go on, or stop because it makes no sense. -/
def orMisuse (call : Option Call) (next : Call → Request) : Request :=
  match call with
  | some call => next call
  | none => .misuse

def read (call : Call) (args : List String) : Request :=
  match args with
  | [] => .run call
  | arg :: rest =>
    match Argument.of arg with
    | .mark => orMisuse (call.positionals? rest) .run
    | .positional => orMisuse (call.positional? arg) fun call => read call rest
    | .option none _ => .misuse
    | .option (some (.final request)) none => request
    | .option (some (.final _)) (some _) => .misuse
    | .option (some (.plain set)) none => orMisuse (set call) fun call => read call rest
    | .option (some (.plain _)) (some _) => .misuse
    | .option (some (.valued set)) (some value) =>
      orMisuse (set call value) fun call => read call rest
    | .option (some (.valued set)) none =>
      match rest with
      | value :: rest =>
        if isValue value then orMisuse (set call value) fun call => read call rest else .misuse
      | [] => .misuse

/-- What the arguments of a call come to. -/
def Request.ofArguments (args : List String) : Request :=
  read {} args

/-- The settings that the options of a call override. -/
def Call.overrides (c : Call) : Overrides where
  iterative := if c.stub then some false else none
  nameservers := c.nameservers
  rootHints := c.rootHints
  logLevel := c.logLevel
  checkpoint := c.checkpoint

end CachingResolver.CommandLine
