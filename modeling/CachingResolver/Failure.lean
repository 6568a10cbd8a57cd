/-!
# Failures

Why a lookup, or a step on the way to it, fails, and how each failure is worded.
-/

namespace CachingResolver

inductive Failure where
  | invalidName (detail : String)
  | unsupportedType (detail : String)
  | malformedMessage (detail : String)
  | timeout (server : String)
  | connectionRefused (server : String)
  | connectionFailed (server reason : String)
  | inputOutput (detail : String)
  | checkpoint (detail : String)
  | rootHints (detail : String)
  | noForwarders
  | overloaded
  | stepLimit (question : String)
  | unresolved (detail : String)
  | knownFailure (question : String)
  deriving DecidableEq, Repr, Inhabited

namespace Failure

def message : Failure → String
  | invalidName detail => "Invalid domain name: " ++ detail
  | unsupportedType detail => "Unsupported record type: " ++ detail
  | malformedMessage detail => "Invalid DNS response: " ++ detail
  | timeout server => "Timeout talking to " ++ server
  | connectionRefused server => "Connection refused by " ++ server
  | connectionFailed server reason => "Connection to " ++ server ++ " failed: " ++ reason
  | inputOutput detail => "I/O error: " ++ detail
  | checkpoint detail => "Cache persistence error: " ++ detail
  | rootHints detail => "Root hints unavailable: " ++ detail
  | noForwarders => "No upstream nameservers configured"
  | overloaded => "Too many queries in flight"
  | stepLimit question => "Resolution of " ++ question ++ " exceeded the step limit"
  | unresolved detail => "Resolution failed: " ++ detail
  | knownFailure question => "Cached failure for " ++ question

end Failure

end CachingResolver
