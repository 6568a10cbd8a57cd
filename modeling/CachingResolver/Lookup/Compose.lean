import CachingResolver.Cache.Basic
import CachingResolver.Failure
import CachingResolver.Lookup.Resolution

/-!
# Answers composed from the cache

Two ways to answer a question from what is cached.  `compose` walks along cached aliases, at most
sixteen of them, to records of the type asked for.  `answerFromCache` is the short way, which looks
at the question itself and at the target of one alias.
-/

namespace CachingResolver.Cache

/-- The most aliases that an answer walks along. -/
def maxAliases : Nat := 16

/-- Read the name that a cached alias of `name` leads to, with the entry. -/
def readAlias? (c : Cache) (name : String) : Option (String × Entry) × Cache :=
  let (e, c) := c.getPositive? name .cname
  (e.bind fun e => e.values.head?.map fun target => (target, e), c)

/-- Walk from `name` along cached aliases to records of a type, in a given number of rounds.  The
result gives the records and the targets of the aliases. -/
def walk (c : Cache) (type : RecordType) :
    (rounds : Nat) → (name : String) → Option (List ResourceRecord × List String) × Cache
  | 0, _ => (none, c)
  | rounds + 1, name =>
    let (found, c) := c.getPositive? name type
    match found with
    | some e => (some (e.records name type c.now, []), c)
    | none =>
      if type = .cname then (none, c)
      else
        let (link, c) := c.readAlias? name
        match link with
        | none => (none, c)
        | some (target, e) =>
          let (rest, c) := c.walk type rounds target
          (rest.map fun (records, aliases) =>
            (e.records name .cname c.now ++ records, target :: aliases), c)

/-- Compose the answer to a question after a lookup that asked `exchanges` times and `server`
last. -/
def compose (c : Cache) (q : Question) (exchanges : Nat) (server : Option Endpoint) :
    Except Failure Resolution × Cache :=
  let (found, c) := c.walk q.type (maxAliases + 1) q.name
  match found with
  | some (records, aliases) =>
    (.ok { records, isCacheHit := exchanges == 0, aliases, server }, c)
  | none =>
    let (known, c) := c.isNegative q.name q.type
    (.error (if known then .knownFailure q.text else .unresolved q.text), c)

/-- Answer a question without asking any server, if the cache decides it. -/
def answerFromCache (c : Cache) (q : Question) : Except Failure (Option Resolution) × Cache :=
  let (found, c) := c.lookup q.name q.type
  match found with
  | some a =>
    if a.isNegative then (.error (.knownFailure q.text), c)
    else (.ok (some { records := a.entry.records q.name q.type c.now, isCacheHit := true }), c)
  | none =>
    if q.type = .cname then (.ok none, c)
    else
      let (link, c) := c.readAlias? q.name
      match link with
      | none => (.ok none, c)
      | some (target, e) =>
        let (records, c) := c.getPositive? target q.type
        (.ok (records.map fun r =>
          { records := e.records q.name .cname c.now ++ r.records target q.type c.now
            isCacheHit := true
            aliases := [target] }), c)

end CachingResolver.Cache
