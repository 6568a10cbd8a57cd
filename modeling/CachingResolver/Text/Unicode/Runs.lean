import CachingResolver.Text.Blank
import CachingResolver.Text.Hexadecimal

/-!
# Runs of characters

Properties of characters hold for runs of neighbours.  Tables of them are written as words: one
code point in hexadecimal, or the first and the last of a run with a hyphen between, and where a run
has a value of its own, a colon and the value after it.
-/

namespace CachingResolver.Text.Unicode

structure Run where
  first : Char
  last : Char
  deriving DecidableEq, Repr

def Run.contains (r : Run) (c : Char) : Bool :=
  r.first ≤ c && c ≤ r.last

/-- The run that a word writes. -/
def Run.ofWord? (word : List Char) : Option Run :=
  match splitOnce '-' word with
  | some (first, last) => do return { first := ← codePoint? first, last := ← codePoint? last }
  | none => (codePoint? word).map fun c => { first := c, last := c }

def lineWords (lines : List String) : List (List Char) :=
  lines.flatMap fun line => words line.toList

abbrev Runs := List Run

def Runs.ofLines (lines : List String) : Runs :=
  (lineWords lines).filterMap Run.ofWord?

def Runs.contains (rs : Runs) (c : Char) : Bool :=
  rs.any (·.contains c)

/-- The run that a word writes before its colon, and what stands after it. -/
def valuedRun? (word : List Char) : Option (Run × List Char) := do
  let (run, value) ← splitOnce ':' word
  return (← Run.ofWord? run, value)

end CachingResolver.Text.Unicode
