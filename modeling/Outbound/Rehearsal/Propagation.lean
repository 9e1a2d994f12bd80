import Outbound.Grpc.Metadata
import Outbound.Rehearsal.Notation
import Outbound.Trace.Propagation

/-!
# Header fields of requests

Rehearsals of what requests carry besides their content.
-/

namespace Outbound.Rehearsal

def headersReport (headers : Headers) : Json :=
  .ofMembers (headers.map fun (k, v) ↦ (k, .str v))

/-- The text members of an object. -/
def textMembers (v : Json) : List (String × String) :=
  ((v.obj?).getD []).map fun (k, v) ↦ (k, (v.str?).getD "")

private def hexNumber (s : String) : Nat :=
  s.toList.foldl (fun n c ↦ n * 16 + (Hex.value? c).getD 0) 0

private def textPair (v : Json) : String × String :=
  (((v.item? 0).bind Json.str?).getD "", ((v.item? 1).bind Json.str?).getD "")

private def span? (trace : Json) : Option SpanContext :=
  if trace.isNull then none
  else
    let parent :=
      if trace.has "parent_id" then
        some (trace.flag "sampled", TraceState.ofPairs ((trace.list "tracestate").map textPair))
      else none
    some (.start (hexNumber (trace.text "trace_id")) (hexNumber (trace.text "span_id")) parent)

def propagation (script : Json) : Json :=
  let requestId := script.text? "request_id"
  .ofMembers [
    ("headers", headersReport (propagationHeaders (span? (script.member "trace")) requestId
      (script.text? "fallback"))),
    ("asked", .ofNat (if requestId.isSome then 0 else 1))]

def grpcMetadata (script : Json) : Json :=
  match Grpc.metadataEntries (textMembers (script.member "headers")) with
  | .error e => errorReport e
  | .ok entries => headersReport (Grpc.stamp entries (textMembers (script.member "existing")))

end Outbound.Rehearsal
