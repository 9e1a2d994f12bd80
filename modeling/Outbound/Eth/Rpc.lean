import Outbound.Eth.Client
import Outbound.Http.Exchange
import Outbound.Metrics

/-!
# Requests of JSON-RPC

A request carries an id, a method and parameters. Ids are words that start over after the largest
one. Requests of a batch have consecutive ids, and their responses may come in any order: each
request gets the last response that carries its id.
-/

namespace Outbound

namespace Eth

namespace Rpc

def requestJson (id : UInt64) (call : Call) : Json :=
  .ofMembers [("jsonrpc", .str "2.0"), ("id", .int id.toNat), ("method", .str call.method),
    ("params", call.params)]

/-- The requests of a batch, numbered from an id on. -/
def batchJson : UInt64 → List Call → List Json
  | _, [] => []
  | id, call :: calls => requestJson id call :: batchJson (id + 1) calls

/-- An error that a node reports for a request. -/
structure NodeError where
  code : Int
  message : String
deriving Repr, DecidableEq

structure Response where
  id : Json := .null
  result : Json := .null
  error : Option NodeError := none

/-- The result of a response; an error it reports comes first. -/
def Response.outcome (r : Response) : Outcome Json :=
  match r.error with
  | some e => .error (.rpc e.code e.message)
  | none => .ok r.result

/-- The member of that key, or null; none if there are two of them. -/
def onlyMember? (members : List (String × Json)) (key : String) : Option (Option Json) :=
  match members.filter (·.1 == key) with
  | [] => some none
  | [m] => some (some m.2)
  | _ => none

def nodeError? (code message : Json) : Option NodeError :=
  match code, message with
  | .int n, .str s => if fitsSigned n then some ⟨n, s⟩ else none
  | _, _ => none

/-- An error from an object, or from an array of its parts. -/
def readNodeError? : Json → Option NodeError
  | .obj members => do
    nodeError? (← ← onlyMember? members "code") (← ← onlyMember? members "message")
  | .arr [code, message] => nodeError? code message
  | _ => none

def response? (id result error : Json) : Option Response :=
  let result := result.canonical
  let id := id.canonical
  match error with
  | .null => some { id, result }
  | error => (readNodeError? error).map fun e ↦ { id, result, error := some e }

/-- A response from an object, or from an array of its parts. Parts that are missing are null. -/
def readResponse? : Json → Option Response
  | .obj members => do
    response? ((← onlyMember? members "id").getD .null) ((← onlyMember? members "result").getD .null)
      ((← onlyMember? members "error").getD .null)
  | .arr [] => some {}
  | .arr [id] => response? id .null .null
  | .arr [id, result] => response? id result .null
  | .arr [id, result, error] => response? id result error
  | _ => none

/-- What a node answers to a batch: a response for each request, or one for them all. -/
inductive BatchReply where
  | many (responses : List Response)
  | one (response : Response)

/-- A list of responses is tried first. -/
def readBatchReply? (v : Json) : Option BatchReply :=
  match v with
  | .arr items =>
    match items.mapM readResponse? with
    | some responses => some (.many responses)
    | none => (readResponse? v).map .one
  | _ => (readResponse? v).map .one

/-- The responses of a reply by their ids. Of those with one id the last counts, and one whose id is
no word is passed over. -/
def byId (responses : List Response) : Nat → Option Response :=
  responses.foldl (fun found r ↦
    match r.id.unsigned? with
    | some id => fun i ↦ if i = id then some r else found i
    | none => found) fun _ ↦ none

/-- Takes the outcomes of `count` requests, which are numbered from an id on, out of the
responses. -/
def takeOutcomes (found : Nat → Option Response) : UInt64 → Nat → List (Outcome Json)
  | _, 0 => []
  | id, count + 1 =>
    (match found id.toNat with
      | some r => r.outcome
      | none => .error (.missingResponse id.toNat)) ::
      takeOutcomes (fun i ↦ if i = id.toNat then none else found i) (id + 1) count

/-- The outcome of each of `count` requests that are numbered from `first` on. -/
def correlate (responses : List Response) (first : UInt64) (count : Nat) : List (Outcome Json) :=
  takeOutcomes (byId responses) first count

def decoded {α : Type} (read? : Json → Option α) (exchange : Exchange) : Outcome α :=
  match exchange.json with
  | .error fault => .error (.http fault)
  | .ok v =>
    match read? v with
    | some a => .ok a
    | none => .error (.http .decode)

/-- The result of a single request. -/
def readSingle (exchange : Exchange) : Outcome Json := do
  (← decoded readResponse? exchange).outcome

/-- The results of a batch. A response for the whole batch can only be an error. -/
def readBatch (first : UInt64) (count : Nat) (exchange : Exchange) :
    Outcome (List (Outcome Json)) := do
  match ← decoded readBatchReply? exchange with
  | .many responses => return correlate responses first count
  | .one response =>
    let _ ← response.outcome
    .error (.decode "batch answered with a single result")

end Rpc

/-- Numbers the requests of one client. -/
structure RpcCounter where
  next : UInt64 := 1
deriving Repr, DecidableEq

namespace RpcCounter

/-- The first of `count` ids, and the counter behind them. -/
def take (counter : RpcCounter) (count : Nat) : UInt64 × RpcCounter :=
  (counter.next, ⟨counter.next + .ofNat count⟩)

end RpcCounter

end Eth

/-- A round trip to a node is counted and timed. -/
def Metrics.countRpc (metrics : Metrics) (kind : String) (ok : Bool) : Metrics :=
  (metrics.count (.rpcRequests kind (if ok then "ok" else "error"))).time (.rpcSeconds kind)

end Outbound
