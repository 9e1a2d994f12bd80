import Outbound.Redis.Error

/-!
# Errors of the clients

One type for everything a client can answer instead of a result, and the text of each.
-/

namespace Outbound

/-- What went wrong with an HTTP exchange. -/
inductive HttpFault where
  /-- The server answered with a status of 400 or more. -/
  | status (code : Nat)
  | timeout
  | connect
  /-- The body is not what was asked for. -/
  | decode
  | builder
  | body
  /-- Anything else, for instance a connection that ended before an answer. -/
  | request
deriving Repr, DecidableEq

def HttpFault.message : HttpFault → String
  | status code => "HTTP status error (" ++ toString code ++ ")"
  | timeout => "operation timed out"
  | connect => "error trying to connect"
  | decode => "error decoding response body"
  | builder => "builder error"
  | body => "request or response body error"
  | request => "error sending request"

/-- The two reasons for which a context ends. -/
inductive Reason where
  | canceled
  | deadlineExceeded
deriving Repr, DecidableEq

inductive Error where
  | closed
  /-- The caller's context ended. -/
  | ended (reason : Reason)
  | abandoned
  | transport (text : String)
  | http (fault : HttpFault)
  | rpc (code : Int) (text : String)
  | missingResponse (id : Nat)
  | decode (text : String)
  | redis (cause : Redis.Error)
  | config (text : String)
deriving Repr, DecidableEq

namespace Error

def message : Error → String
  | closed => "batcher is closed"
  | ended .canceled => "context canceled"
  | ended .deadlineExceeded => "context deadline exceeded"
  | abandoned => "task dropped before it was resolved"
  | transport text => "transport error: " ++ text
  | http fault => "http error: " ++ fault.message
  | rpc code text => "rpc error " ++ toString code ++ ": " ++ text
  | missingResponse id => "missing response for request id " ++ toString id
  | decode text => "decode error: " ++ text
  | redis cause => "redis error: " ++ cause.message
  | config text => "configuration error: " ++ text

/-- The caller gave up waiting, as opposed to the backend failing. -/
def isContextError : Error → Bool
  | ended _ => true
  | _ => false

/-- The text of the error underneath, where there is one. -/
def source? : Error → Option String
  | http fault => some fault.message
  | redis cause => some cause.message
  | _ => none

end Error

/-- A result, or the error that stands in its place. -/
abbrev Outcome (α : Type) := Except Error α

end Outbound
