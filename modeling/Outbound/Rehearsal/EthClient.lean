import Outbound.Eth.Client
import Outbound.Rehearsal.Notation

/-!
# Direct calls

A rehearsal of a client over transports that give scripted replies: each step is one query, and
the report shows what reached a transport and what came back to the caller.
-/

namespace Outbound.Rehearsal

def roleName : Eth.Role → String
  | .primary => "primary"
  | .archive => "archive"

def bytesReport (data : List UInt8) : Json :=
  .str (String.ofList (Hex.encode data))

def answerReport : Eth.Answer → Json
  | .bytes data => bytesReport data
  | .number n => .str (toString n)

/-- One request as a transport sees it. -/
def sentReport (call : Eth.Call) (role : Eth.Role) (requestId : Option String) : Json :=
  .ofMembers [("method", .str call.method), ("params", call.params),
    ("request_id", .ofOption .str requestId), ("role", .str (roleName role))]

/-- A scripted reply: a value or an error. -/
def replyOf (v : Json) : Outcome Json :=
  match error? (v.member "err") with
  | some e => .error e
  | none => .ok (v.member "value")

private def query? (step : Json) : Option Eth.Query :=
  let block := blockRef (step.member "block")
  let account := byteVector? 20 (step.text "account")
  match step.text "do" with
  | "call_contract" => some (.callContract (callMsg (step.member "msg")) block)
  | "balance_at" => account.map (.balance · block)
  | "code_at" => account.map (.code · block)
  | "nonce_at" => account.map (.nonce · block)
  | "storage_at" => do
    return .storage (← account) (← byteVector? 32 (step.text "key")) block
  | "block_number" => some .blockNumber
  | _ => none

private def queryStep (client : Eth.Client) (step : Json) : Json :=
  match query? step with
  | none => badInput
  | some q =>
    .ofMembers
      [("sent", sentReport q.call (client.endpoint q.block) (step.text? "request_id")),
        ("result", outcomeReport answerReport (q.answer (replyOf (step.member "reply"))))]

def ethClient (script : Json) : Json :=
  let client : Eth.Client := ⟨script.flag "single"⟩
  .ofMembers [("debug", .str client.debugText),
    ("steps", .ofList (queryStep client) (script.list "steps"))]

end Outbound.Rehearsal
