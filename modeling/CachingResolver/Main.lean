import CachingResolver.CommandLine.Run
import CachingResolver.Network

/-!
# The program

Reads the arguments, the files and the time, and writes what a run leaves behind.  It runs without
access to a network.
-/

namespace CachingResolver.Main

open CachingResolver.CommandLine

/-- What the system says about a file that cannot be read. -/
def fileError : IO.Error → String
  | .noFileOrDirectory .. => "No such file or directory (os error 2)"
  | .permissionDenied .. => "Permission denied (os error 13)"
  | .inappropriateType .. => "Is a directory (os error 21)"
  | e => toString e

def readFile (path : String) : IO (Except String (List UInt8)) := do
  try
    let octets ← IO.FS.readBinFile path
    return .ok octets.data.toList
  catch e => return .error (fileError e)

/-- What a file that was not read holds. -/
def unread : Except String (List UInt8) := .error "not read"

/-- Read files, once each. -/
def readFiles (paths : List String) : IO (String → Except String (List UInt8)) := do
  let files ← paths.mapM fun path => do return (path, ← readFile path)
  return fun path => (files.lookup path).getD unread

/-- The first word after a keyword. -/
def wordAfter? (keyword : String) (text : String) : Option (List Char) :=
  let rec find : List (List Char) → Option (List Char)
    | key :: word :: rest => if key = keyword.toList then some word else find (word :: rest)
    | _ => none
  find (Text.words text.toList)

/-- The whole seconds of a number with a fraction. -/
def wholeSeconds (word : List Char) : Nat :=
  (Text.natural? (word.takeWhile (· != '.'))).getD 0

/-- The seconds since 1970: when the system was started, and how long it has been running. -/
def now : IO Int64 := do
  let text (path : String) : IO String := do
    return match ← readFile path with
      | .ok octets => String.ofList (Text.Utf8.decodeLossy octets)
      | .error _ => ""
  let started := ((wordAfter? "btime" (← text "/proc/stat")).map wholeSeconds).getD 0
  let running := ((Text.words (← text "/proc/uptime").toList).head?.map wholeSeconds).getD 0
  return Int64.ofNat (started + running)

def run (args : List String) : IO UInt32 := do
  let request := Request.ofArguments args
  let file ←
    match request with
    | .run call =>
      let settings ← readFiles call.config.toList
      readFiles (call.files settings)
    | _ => pure fun _ => unread
  let generator := mkStdGen (← IO.rand 0 0x7fffffff)
  let outcome := request.perform Network.none.environment generator (← now) file
  IO.print outcome.printed
  IO.eprint outcome.reported
  if let some (path, octets) := outcome.written then
    try IO.FS.writeBinFile path ⟨octets.toArray⟩ catch _ => pure ()
  return outcome.exit.toUInt32

end CachingResolver.Main

/-- Run the program on its arguments. -/
def main (args : List String) : IO UInt32 :=
  CachingResolver.Main.run args
