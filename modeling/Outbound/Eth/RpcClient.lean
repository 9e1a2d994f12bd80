import Outbound.Eth.Rpc

/-!
# A client of one endpoint

Requests, single or in batches, are numbered when they are made. Each of them is one round trip,
which ends with a reply or with the context under which it was made, and any number of them are
under way at a time. A round trip counts as good if its reply can be decoded, also when the reply
says that the request has failed.
-/

namespace Outbound.Eth

/-- What a round trip carries. -/
inductive RpcBody where
  | single (call : Call)
  | batch (calls : List Call)

inductive RpcResult where
  | single (outcome : Outcome Json)
  | batch (outcome : Outcome (List (Outcome Json)))

namespace RpcBody

def calls : RpcBody → List Call
  | single call => [call]
  | batch calls => calls

def kind : RpcBody → String
  | single _ => "single"
  | batch _ => "batch"

def json (first : UInt64) : RpcBody → Json
  | single call => Rpc.requestJson first call
  | batch calls => .arr (Rpc.batchJson first calls)

def read (first : UInt64) (exchange : Exchange) : RpcBody → RpcResult
  | single _ => .single (Rpc.readSingle exchange)
  | batch calls => .batch (Rpc.readBatch first calls.length exchange)

/-- The reply to a round trip can be decoded, whatever it says. -/
def decodes (exchange : Exchange) : RpcBody → Bool
  | single _ => (Rpc.decoded Rpc.readResponse? exchange).toBool
  | batch _ => (Rpc.decoded Rpc.readBatchReply? exchange).toBool

def fail (e : Error) : RpcBody → RpcResult
  | single _ => .single (.error e)
  | batch _ => .batch (.error e)

end RpcBody

structure RoundTrip where
  /-- The id of its first request. -/
  first : UInt64
  body : RpcBody
  sent : Bool
  /-- None while it is under way. -/
  result : Option RpcResult

/-- What is read from the exchange of a round trip. -/
def RoundTrip.read (t : RoundTrip) (exchange : Exchange) : RpcResult :=
  t.body.read t.first exchange

structure RpcClient where
  counter : RpcCounter := {}
  /-- All round trips, oldest first. -/
  trips : List RoundTrip := []
  metrics : Metrics := []

namespace RpcClient

inductive Event where
  /-- A request or a batch is made, under a context that has ended for that reason or is live. -/
  | start (body : RpcBody) (ended : Option Reason)
  | reply (trip : Nat) (exchange : Exchange)
  /-- The context of a round trip ends before there is a reply. -/
  | expire (trip : Nat) (reason : Reason)

/-- Numbers what is asked and sends it, unless the context has ended. A batch of nothing takes no
id and is answered at once. -/
def start (s : RpcClient) (body : RpcBody) (ended : Option Reason) : RpcClient :=
  if body.calls.isEmpty then
    { s with trips := s.trips ++ [⟨s.counter.next, body, false, some (.batch (.ok []))⟩] }
  else
    let (first, counter) := s.counter.take body.calls.length
    match ended with
    | some reason =>
      { s with
        counter
        trips := s.trips ++ [⟨first, body, false, some (body.fail (.ended reason))⟩]
        metrics := s.metrics.countRpc body.kind false }
    | none => { s with counter, trips := s.trips ++ [⟨first, body, true, none⟩] }

/-- A round trip ends, with a reply that could be decoded or not. -/
def finish (s : RpcClient) (trip : Nat) (decoded : RoundTrip → Bool)
    (result : RoundTrip → RpcResult) : Option RpcClient := do
  let t ← s.trips[trip]?
  if t.result.isSome then none
  else
    return { s with
      trips := s.trips.set trip { t with result := some (result t) }
      metrics := s.metrics.countRpc t.body.kind (decoded t) }

/-- The state after an event, if the event can happen. No list is longer than there are ids. -/
def step (s : RpcClient) : Event → Option RpcClient
  | .start body ended => if body.calls.length < UInt64.size then some (s.start body ended) else none
  | .reply trip exchange => s.finish trip (·.body.decodes exchange) (·.read exchange)
  | .expire trip reason => s.finish trip (fun _ ↦ false) (·.body.fail (.ended reason))

/-- All that can come of a new client. -/
inductive Run : List Event → RpcClient → Prop where
  | new : Run [] {}
  | event {events : List Event} {s s' : RpcClient} (run : Run events s) (e : Event)
    (h : s.step e = some s') : Run (events ++ [e]) s'

end RpcClient

end Outbound.Eth
