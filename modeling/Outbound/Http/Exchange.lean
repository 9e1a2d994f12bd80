import Outbound.Error
import Outbound.Json.Parser

/-!
# Exchanges with a server

A request is answered with a status and a body, or something goes wrong before that.
-/

namespace Outbound

structure HttpReply where
  status : Nat := 200
  body : String := ""
deriving Repr, DecidableEq

/-- What became of a request. -/
abbrev Exchange := Except HttpFault HttpReply

namespace Exchange

/-- The JSON of the body. A status of 400 or more is an error whatever the body says. -/
def json (exchange : Exchange) : Except HttpFault Json := do
  let reply ← exchange
  if 400 ≤ reply.status then .error (.status reply.status)
  else
    match Json.parse reply.body with
    | .ok v => .ok v
    | .error _ => .error .decode

end Exchange

end Outbound
