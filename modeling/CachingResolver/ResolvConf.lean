import CachingResolver.Failure
import CachingResolver.IpAddress
import CachingResolver.Text.Blank
import CachingResolver.Text.Utf8

/-!
# The name servers of the system

The file in which a system lists its name servers: a line whose first word is `nameserver` and whose
second is an address names one, and every other line is passed over.  The whole file has to be
UTF-8.
-/

namespace CachingResolver.ResolvConf

open CachingResolver.Text

def port : UInt16 := 53

def server? (line : List Char) : Option Endpoint :=
  match words line with
  | keyword :: address :: _ =>
    if keyword = "nameserver".toList then
      (IpAddress.ofText? (String.ofList address)).map fun ip => { ip, port }
    else none
  | _ => none

/-- What is said about a file that should be text and is not UTF-8. -/
def notText : String := "stream did not contain valid UTF-8"

def servers (octets : List UInt8) : Except Failure (List Endpoint) :=
  match Utf8.decode? octets with
  | some text => .ok ((splitAt '\n' text.toList).filterMap server?)
  | none => .error (.inputOutput notText)

/-- The servers that a file lists, given as its octets or as the reason why it cannot be read. -/
def ofFile : Except String (List UInt8) → Except Failure (List Endpoint)
  | .ok octets => servers octets
  | .error reason => .error (.inputOutput reason)

end CachingResolver.ResolvConf
